import Knaic.Training.Document

open Kube Yaml
open Training (field isSpace)

-- The forms of the local models, whose documents are put together by hand.
namespace Console.LocalModelForms

-- `/[:#@`{}[\]&*!,?>|%\s'"]/`
def special (c : Char) : Bool :=
  isSpace c || c ∈ ":#@`{}[]&*!,?>|%'\"".toList

def yamlQuote (s : Text) : Text :=
  if s = [] then ['"', '"']
  else if s.any special ∨ s.head? = some '-' then quote s
  else s

structure NodeGroupFormPayload where
  name             : Text
  storageLimit     : Text
  capacity         : Text
  storageClassName : Text
  localPath        : Text
  selectorKey      : Text
  selectorValues   : List Text

structure CacheFormPayload where
  name           : Text
  sourceModelUri : Text
  modelSize      : Text
  nodeGroups     : List Text

-- `a || b`
def orElse (a b : Text) : Text :=
  if a ≠ [] then a else b

def orBlank (l : List Text) : List Text :=
  if l ≠ [] then l else [[]]

def hostname : Text :=
  "kubernetes.io/hostname".toList

def nodeGroupLines (p : NodeGroupFormPayload) : List Text :=
  let capacity := orElse p.capacity p.storageLimit
  ["apiVersion: serving.kserve.io/v1alpha1".toList,
    "kind: LocalModelNodeGroup".toList,
    "metadata:".toList,
    "  name: ".toList ++ yamlQuote p.name,
    "spec:".toList,
    "  storageLimit: ".toList ++ yamlQuote p.storageLimit,
    "  persistentVolumeClaimSpec:".toList,
    "    accessModes:".toList,
    "      - ReadWriteOnce".toList,
    "    resources:".toList,
    "      requests:".toList,
    "        storage: ".toList ++ yamlQuote capacity,
    "    storageClassName: ".toList ++ yamlQuote p.storageClassName,
    "    volumeMode: Filesystem".toList,
    "  persistentVolumeSpec:".toList,
    "    accessModes:".toList,
    "      - ReadWriteOnce".toList,
    "    volumeMode: Filesystem".toList,
    "    capacity:".toList,
    "      storage: ".toList ++ yamlQuote capacity,
    "    local:".toList,
    "      path: ".toList ++ yamlQuote p.localPath,
    "    storageClassName: ".toList ++ yamlQuote p.storageClassName,
    "    nodeAffinity:".toList,
    "      required:".toList,
    "        nodeSelectorTerms:".toList,
    "          - matchExpressions:".toList,
    "              - key: ".toList ++ yamlQuote (orElse p.selectorKey hostname),
    "                operator: In".toList,
    "                values:".toList] ++
  (orBlank p.selectorValues).map fun v => "                  - ".toList ++ yamlQuote v

def buildNodeGroupYaml (p : NodeGroupFormPayload) : Text :=
  ['\n'].intercalate (nodeGroupLines p) ++ ['\n']

def cacheLines (p : CacheFormPayload) : List Text :=
  ["apiVersion: serving.kserve.io/v1alpha1".toList,
    "kind: LocalModelCache".toList,
    "metadata:".toList,
    "  name: ".toList ++ yamlQuote p.name,
    "spec:".toList,
    "  sourceModelUri: ".toList ++ yamlQuote p.sourceModelUri,
    "  modelSize: ".toList ++ yamlQuote p.modelSize,
    "  nodeGroups:".toList] ++
  (orBlank p.nodeGroups).map fun n => "    - ".toList ++ yamlQuote n

def buildCacheYaml (p : CacheFormPayload) : Text :=
  ['\n'].intercalate (cacheLines p) ++ ['\n']

-- The documents.
section Nodes

-- Whether a text is written as it is.
def bare (s : Text) : Bool :=
  s ≠ [] && !s.any special && s.head? ≠ some '-'

def leaf (s : Text) : Node :=
  if bare s then .plain s else .quoted s

def leaves (l : List Text) : Node :=
  .seq (l.map leaf)

def word (s : String) : Node :=
  .plain s.toList

def claimSpecNode (p : NodeGroupFormPayload) : Node :=
  .map [
    field "accessModes" (.seq [word "ReadWriteOnce"]),
    field "resources" (.map [field "requests" (.map [field "storage" (leaf (orElse p.capacity p.storageLimit))])]),
    field "storageClassName" (leaf p.storageClassName),
    field "volumeMode" (word "Filesystem")]

def expressionNode (p : NodeGroupFormPayload) : Node :=
  .map [
    field "key" (leaf (orElse p.selectorKey hostname)),
    field "operator" (word "In"),
    field "values" (leaves (orBlank p.selectorValues))]

def volumeSpecNode (p : NodeGroupFormPayload) : Node :=
  .map [
    field "accessModes" (.seq [word "ReadWriteOnce"]),
    field "volumeMode" (word "Filesystem"),
    field "capacity" (.map [field "storage" (leaf (orElse p.capacity p.storageLimit))]),
    field "local" (.map [field "path" (leaf p.localPath)]),
    field "storageClassName" (leaf p.storageClassName),
    field "nodeAffinity" (.map [field "required" (.map [field "nodeSelectorTerms" (.seq [
      .map [field "matchExpressions" (.seq [expressionNode p])]])])])]

def nodeGroupNode (p : NodeGroupFormPayload) : Node :=
  .map [
    field "apiVersion" (word "serving.kserve.io/v1alpha1"),
    field "kind" (word "LocalModelNodeGroup"),
    field "metadata" (.map [field "name" (leaf p.name)]),
    field "spec" (.map [
      field "storageLimit" (leaf p.storageLimit),
      field "persistentVolumeClaimSpec" (claimSpecNode p),
      field "persistentVolumeSpec" (volumeSpecNode p)])]

def cacheNode (p : CacheFormPayload) : Node :=
  .map [
    field "apiVersion" (word "serving.kserve.io/v1alpha1"),
    field "kind" (word "LocalModelCache"),
    field "metadata" (.map [field "name" (leaf p.name)]),
    field "spec" (.map [
      field "sourceModelUri" (leaf p.sourceModelUri),
      field "modelSize" (leaf p.modelSize),
      field "nodeGroups" (leaves (orBlank p.nodeGroups))])]

end Nodes

section Lines

open Training (fieldLines_inline fieldLines_below itemLines_map)

theorem inline_leaf (s : Text) : (leaf s).inline = some (yamlQuote s) := by
  unfold leaf bare yamlQuote
  by_cases hs : s = []
  case pos =>
    subst hs
    rfl
  case neg =>
    by_cases hq : s.any special ∨ s.head? = some '-'
    case pos =>
      rw [if_neg hs, if_pos hq, if_neg (by grind)]
      rfl
    case neg =>
      rw [if_neg hs, if_neg hq, if_pos (by grind)]
      rfl

theorem leaves_lines (n : Nat) (l : List Text) :
    (leaves l).lines n = l.map fun s => indent n ++ ['-', ' '] ++ yamlQuote s := by
  rw [leaves, Node.lines]
  induction l
  case nil         => rfl
  case cons s l hi => simp only [List.map_cons, itemLines, inline_leaf, hi, List.singleton_append]

theorem cacheLines_eq (p : CacheFormPayload) : cacheLines p = (cacheNode p).lines 0 := by
  rw [cacheLines, cacheNode, Node.lines, field, fieldLines_inline rfl, field, fieldLines_inline rfl, field,
    fieldLines_below rfl, Node.lines]
  rw [field, fieldLines_inline (inline_leaf _), field, fieldLines_below rfl, Node.lines]
  rw [field, fieldLines_inline (inline_leaf _), field, fieldLines_inline (inline_leaf _), field, fieldLines_below rfl,
    leaves_lines]
  simp only [fieldLines, List.append_nil, List.cons_append, List.nil_append]
  repeat rw [String.toList_ofList]
  rfl

theorem claimSpecNode_lines (p : NodeGroupFormPayload) : (claimSpecNode p).lines 4 = [
    "    accessModes:".toList,
    "      - ReadWriteOnce".toList,
    "    resources:".toList,
    "      requests:".toList,
    "        storage: ".toList ++ yamlQuote (orElse p.capacity p.storageLimit),
    "    storageClassName: ".toList ++ yamlQuote p.storageClassName,
    "    volumeMode: Filesystem".toList] := by
  rw [claimSpecNode, Node.lines, field, fieldLines_below rfl, field, fieldLines_below rfl, Node.lines, Node.lines]
  rw [field, fieldLines_below rfl, Node.lines, field, fieldLines_inline (inline_leaf _)]
  rw [field, fieldLines_inline (inline_leaf _), field, fieldLines_inline rfl]
  simp only [fieldLines, List.append_nil, List.cons_append, List.nil_append]
  repeat rw [String.toList_ofList]
  rfl

theorem expressionNode_lines (p : NodeGroupFormPayload) : itemLines 14 [expressionNode p] = [
    "              - key: ".toList ++ yamlQuote (orElse p.selectorKey hostname),
    "                operator: In".toList,
    "                values:".toList] ++
    (orBlank p.selectorValues).map fun v => "                  - ".toList ++ yamlQuote v := by
  rw [expressionNode, itemLines_map, field, fieldLines_inline (inline_leaf _), field, fieldLines_inline rfl, field,
    fieldLines_below rfl, leaves_lines]
  simp only [fieldLines, List.append_nil, List.cons_append, List.nil_append]
  repeat rw [String.toList_ofList]
  rfl

theorem volumeSpecNode_lines (p : NodeGroupFormPayload) : (volumeSpecNode p).lines 4 = [
    "    accessModes:".toList,
    "      - ReadWriteOnce".toList,
    "    volumeMode: Filesystem".toList,
    "    capacity:".toList,
    "      storage: ".toList ++ yamlQuote (orElse p.capacity p.storageLimit),
    "    local:".toList,
    "      path: ".toList ++ yamlQuote p.localPath,
    "    storageClassName: ".toList ++ yamlQuote p.storageClassName,
    "    nodeAffinity:".toList,
    "      required:".toList,
    "        nodeSelectorTerms:".toList,
    "          - matchExpressions:".toList] ++ itemLines 14 [expressionNode p] := by
  rw [volumeSpecNode, Node.lines, field, fieldLines_below rfl, field, fieldLines_inline rfl, field,
    fieldLines_below rfl, Node.lines, Node.lines]
  rw [field, fieldLines_inline (inline_leaf _), field, fieldLines_below rfl, Node.lines]
  rw [field, fieldLines_inline (inline_leaf _), field, fieldLines_inline (inline_leaf _)]
  rw [field, fieldLines_below rfl, Node.lines, field, fieldLines_below rfl, Node.lines]
  rw [field, fieldLines_below rfl, Node.lines, itemLines_map, field, fieldLines_below rfl, Node.lines]
  simp only [fieldLines, List.append_nil, List.cons_append, List.nil_append]
  repeat rw [String.toList_ofList]
  rfl

theorem nodeGroupLines_eq (p : NodeGroupFormPayload) : nodeGroupLines p = (nodeGroupNode p).lines 0 := by
  rw [nodeGroupLines, nodeGroupNode, Node.lines, field, fieldLines_inline rfl, field, fieldLines_inline rfl, field,
    fieldLines_below rfl, Node.lines]
  rw [field, fieldLines_inline (inline_leaf _), field, fieldLines_below rfl, Node.lines]
  rw [field, fieldLines_inline (inline_leaf _), field, fieldLines_below rfl, claimSpecNode_lines, field,
    fieldLines_below rfl, volumeSpecNode_lines, expressionNode_lines]
  simp only [fieldLines, List.append_nil, List.cons_append, List.nil_append]
  repeat rw [String.toList_ofList]
  rfl

end Lines

section Shapes

variable {r : Resolver} {ok : Text → Prop} {s : Text} {t : Node}

-- What may stand in a document: a text that is written as it is, and one that is quoted.
structure Fit (ok : Text → Prop) (s : Text) : Prop where
  plain  : bare s → s.all printable
  quoted : bare s = false → ok s

-- A document that has its shape, and between quotes only what is allowed there.
structure Sound (r : Resolver) (ok : Text → Prop) (t : Node) : Prop where
  shaped : t.Shaped r
  quotes : ∀ s ∈ t.quotes, ok s

def formKeys : List String := [
  "apiVersion", "kind", "metadata", "name", "spec", "storageLimit", "persistentVolumeClaimSpec", "accessModes",
  "resources", "requests", "storage", "storageClassName", "volumeMode", "persistentVolumeSpec", "capacity", "local",
  "path", "nodeAffinity", "required", "nodeSelectorTerms", "matchExpressions", "key", "operator", "values",
  "sourceModelUri", "modelSize", "nodeGroups"]

theorem formKeys_word : ∀ k ∈ formKeys, IsKey k.toList ∧ IsWord k.toList := by
  decide +kernel

theorem bare_iff : bare s ↔ s ≠ [] ∧ (∀ c ∈ s, special c = false) ∧ s.head? ≠ some '-' := by
  simp [bare, and_assoc]

theorem closed_of (h : ∀ c ∈ s, c ≠ ':' ∧ c ≠ '#') : closed s := by
  fun_induction closed s
  case case1                 => rfl
  case case2 c               => simpa using (h c (.head _)).left
  case case3 c d s hi        =>
    have hc := h c (.head _)
    have hd := h d (.tail _ (.head _))
    simp [hc.left, hd.right, hi fun c hm => h c (.tail _ hm)]

-- The indicators other than the dash, and blanks, are special.
theorem special_of {c : Char} (h : blank c ∨ c ∈ indicators ∧ c ≠ '-') : special c := by
  rcases h with h | ⟨h, hd⟩
  · simp only [blank, Bool.or_eq_true, decide_eq_true_eq] at h
    rcases h with rfl | rfl
    · decide
    · decide
  · have hall : (indicators.all fun c => c = '-' || special c) = true := by
      decide
    simpa [hd] using List.all_eq_true.mp hall c h

-- A text without special characters can stand by itself.
theorem bare_plain (hb : bare s) (hp : s.all printable) : IsPlain s := by
  have ⟨hn, hs, hd⟩ := bare_iff.mp hb
  have hblank : ∀ c ∈ s, blank c = false := by
    intro c hc
    by_contra hb
    have := special_of (.inl (by simpa using hb))
    simp [hs c hc] at this
  have hclosed : closed s := by
    refine closed_of fun c hc => ⟨?_, ?_⟩
    all_goals
      rintro rfl
      exact absurd (hs _ hc) (by decide)
  cases s
  case nil      => exact absurd rfl hn
  case cons c s =>
    have hi : c ∉ indicators := by
      intro hm
      have := special_of (.inr ⟨hm, fun he => hd (by rw [he]; rfl)⟩)
      simp [hs c (.head _)] at this
    have hl : (c :: s).getLast?.any blank = false := by
      cases hg : (c :: s).getLast?
      case none   => rfl
      case some d => exact hblank d (List.mem_of_getLast? hg)
    simp [IsPlain, hp, hblank c (.head _), hl, hclosed, hi]

theorem leaf_sound (h : Fit ok s) : Sound r ok (leaf s) := by
  unfold leaf
  split
  case isTrue hb  => exact ⟨bare_plain hb (h.plain hb), List.forall_mem_nil _⟩
  case isFalse hb => exact ⟨rfl, List.forall_mem_singleton.mpr (h.quoted (by simpa using hb))⟩

theorem word_sound {w : String} (h : IsPlain w.toList) : Sound r ok (word w) :=
  ⟨h, List.forall_mem_nil _⟩

theorem map_sound {fields : List (Text × Node)} (ks : List String) (he : fields.map Prod.fst = ks.map String.toList)
    (hk : ks ≠ [] ∧ ks.Nodup ∧ ∀ k ∈ ks, k ∈ formKeys) (h : ∀ e ∈ fields, Sound r ok e.2) :
    Sound r ok (.map fields) := by
  constructor
  case shaped =>
    refine map_shaped ?_ ?_ fun e hm => ⟨?_, (h e hm).shaped⟩
    · rintro rfl
      exact hk.left (List.map_eq_nil_iff.mp he.symm)
    · rw [he]
      exact hk.right.left.map fun _ _ => String.toList_inj.mp
    · have hm : e.1 ∈ ks.map String.toList := he ▸ List.mem_map_of_mem hm
      obtain ⟨k, hm, hk'⟩ := List.mem_map.mp hm
      have ⟨hi, hw⟩ := formKeys_word k (hk.right.right k hm)
      rw [← hk']
      exact ⟨hi, r.word _ hw⟩
  case quotes =>
    intro s hs
    rw [Node.quotes, fieldQuotes_eq] at hs
    have ⟨e, hm, hs⟩ := List.mem_flatMap.mp hs
    exact (h e hm).quotes s hs

theorem seq_sound {items : List Node} (hn : items ≠ []) (h : ∀ v ∈ items, Sound r ok v) : Sound r ok (.seq items) := by
  constructor
  case shaped => exact seq_shaped hn fun v hv => (h v hv).shaped
  case quotes =>
    intro s hs
    rw [Node.quotes, itemQuotes_eq] at hs
    have ⟨v, hm, hs⟩ := List.mem_flatMap.mp hs
    exact (h v hm).quotes s hs

theorem leaves_sound {l : List Text} (hn : l ≠ []) (h : ∀ s ∈ l, Fit ok s) : Sound r ok (leaves l) := by
  refine seq_sound (by simpa using hn) fun v hv => ?_
  obtain ⟨s, hs, rfl⟩ := List.mem_map.mp hv
  exact leaf_sound (h s hs)

theorem orBlank_ne_nil (l : List Text) : orBlank l ≠ [] := by
  unfold orBlank
  split
  case isTrue hn => exact hn
  case isFalse   => exact List.cons_ne_nil _ _

end Shapes

-- A field of a form: where it is in the document, what was entered, and what stands for that.
structure Field where
  path    : List Sel
  entered : Text
  written : Text

-- A form as a document, with its fields and its list.
structure Form where
  yaml        : Text
  node        : Node
  fields      : List Field
  listPath    : List Sel
  listEntered : List Text
  listWritten : List Text
  rendered    : yaml = node.render
  field       : ∀ f ∈ fields, node.pick f.path = some (leaf f.written)
  list        : node.pick listPath = some (leaves listWritten)
  sound       : ∀ r ok, (∀ s ∈ fields.map Field.written ++ listWritten, Fit ok s) → Sound r ok node

def keys (ks : List String) : List Sel :=
  ks.map fun k => .key k.toList

section Cache

variable (p : CacheFormPayload)

def cacheFields : List Field := [
  ⟨keys ["metadata", "name"], p.name, p.name⟩,
  ⟨keys ["spec", "sourceModelUri"], p.sourceModelUri, p.sourceModelUri⟩,
  ⟨keys ["spec", "modelSize"], p.modelSize, p.modelSize⟩]

theorem cacheNode_sound (r : Resolver) (ok : Text → Prop)
    (h : ∀ s ∈ (cacheFields p).map Field.written ++ orBlank p.nodeGroups, Fit ok s) : Sound r ok (cacheNode p) := by
  have ⟨hf, hg⟩ := List.forall_mem_append.mp h
  simp only [cacheFields, List.map_cons, List.map_nil, List.forall_mem_cons] at hf
  obtain ⟨hn, hu, hm, -⟩ := hf
  refine map_sound ["apiVersion", "kind", "metadata", "spec"] rfl (by decide) ?_
  simp only [List.forall_mem_cons, Training.field]
  refine ⟨word_sound (by decide), word_sound (by decide), ?_, ?_, List.forall_mem_nil _⟩
  · refine map_sound ["name"] rfl (by decide) ?_
    simp only [List.forall_mem_cons]
    exact ⟨leaf_sound hn, List.forall_mem_nil _⟩
  · refine map_sound ["sourceModelUri", "modelSize", "nodeGroups"] rfl (by decide) ?_
    simp only [List.forall_mem_cons]
    exact ⟨leaf_sound hu, leaf_sound hm, leaves_sound (orBlank_ne_nil _) hg, List.forall_mem_nil _⟩

def cacheForm : Form where
  yaml        := buildCacheYaml p
  node        := cacheNode p
  fields      := cacheFields p
  listPath    := keys ["spec", "nodeGroups"]
  listEntered := p.nodeGroups
  listWritten := orBlank p.nodeGroups
  rendered    := by rw [buildCacheYaml, cacheLines_eq, Node.render]
  field       := by
    simp only [cacheFields, List.forall_mem_cons]
    exact ⟨rfl, rfl, rfl, List.forall_mem_nil _⟩
  list        := rfl
  sound       := cacheNode_sound p

end Cache

section NodeGroup

variable (p : NodeGroupFormPayload)

def expressionPath : List Sel :=
  keys ["spec", "persistentVolumeSpec", "nodeAffinity", "required", "nodeSelectorTerms"] ++ [.item 0] ++
    keys ["matchExpressions"] ++ [.item 0]

def nodeGroupFields : List Field :=
  let capacity := orElse p.capacity p.storageLimit
  [⟨keys ["metadata", "name"], p.name, p.name⟩,
    ⟨keys ["spec", "storageLimit"], p.storageLimit, p.storageLimit⟩,
    ⟨keys ["spec", "persistentVolumeClaimSpec", "resources", "requests", "storage"], p.capacity, capacity⟩,
    ⟨keys ["spec", "persistentVolumeClaimSpec", "storageClassName"], p.storageClassName, p.storageClassName⟩,
    ⟨keys ["spec", "persistentVolumeSpec", "capacity", "storage"], p.capacity, capacity⟩,
    ⟨keys ["spec", "persistentVolumeSpec", "local", "path"], p.localPath, p.localPath⟩,
    ⟨keys ["spec", "persistentVolumeSpec", "storageClassName"], p.storageClassName, p.storageClassName⟩,
    ⟨expressionPath ++ keys ["key"], p.selectorKey, orElse p.selectorKey hostname⟩]

theorem nodeGroupNode_sound (r : Resolver) (ok : Text → Prop)
    (h : ∀ s ∈ (nodeGroupFields p).map Field.written ++ orBlank p.selectorValues, Fit ok s) :
    Sound r ok (nodeGroupNode p) := by
  have ⟨hf, hg⟩ := List.forall_mem_append.mp h
  simp only [nodeGroupFields, List.map_cons, List.map_nil, List.forall_mem_cons] at hf
  obtain ⟨hn, hl, hc, hs, -, hp, -, hk, -⟩ := hf
  have hm : Sound r ok (.seq [word "ReadWriteOnce"]) :=
    seq_sound (List.cons_ne_nil _ _) (List.forall_mem_singleton.mpr (word_sound (by decide)))
  have hclaim : Sound r ok (claimSpecNode p) := by
    refine map_sound ["accessModes", "resources", "storageClassName", "volumeMode"] rfl (by decide) ?_
    simp only [List.forall_mem_cons, Training.field]
    refine ⟨hm, ?_, leaf_sound hs, word_sound (by decide), List.forall_mem_nil _⟩
    refine map_sound ["requests"] rfl (by decide) (List.forall_mem_singleton.mpr ?_)
    exact map_sound ["storage"] rfl (by decide) (List.forall_mem_singleton.mpr (leaf_sound hc))
  have hexpression : Sound r ok (expressionNode p) := by
    refine map_sound ["key", "operator", "values"] rfl (by decide) ?_
    simp only [List.forall_mem_cons, Training.field]
    exact ⟨leaf_sound hk, word_sound (by decide), leaves_sound (orBlank_ne_nil _) hg, List.forall_mem_nil _⟩
  have hvolume : Sound r ok (volumeSpecNode p) := by
    refine map_sound ["accessModes", "volumeMode", "capacity", "local", "storageClassName", "nodeAffinity"] rfl
      (by decide) ?_
    simp only [List.forall_mem_cons, Training.field]
    refine ⟨hm, word_sound (by decide), ?_, ?_, leaf_sound hs, ?_, List.forall_mem_nil _⟩
    · exact map_sound ["storage"] rfl (by decide) (List.forall_mem_singleton.mpr (leaf_sound hc))
    · exact map_sound ["path"] rfl (by decide) (List.forall_mem_singleton.mpr (leaf_sound hp))
    · refine map_sound ["required"] rfl (by decide) (List.forall_mem_singleton.mpr ?_)
      refine map_sound ["nodeSelectorTerms"] rfl (by decide) (List.forall_mem_singleton.mpr ?_)
      refine seq_sound (List.cons_ne_nil _ _) (List.forall_mem_singleton.mpr ?_)
      refine map_sound ["matchExpressions"] rfl (by decide) (List.forall_mem_singleton.mpr ?_)
      exact seq_sound (List.cons_ne_nil _ _) (List.forall_mem_singleton.mpr hexpression)
  refine map_sound ["apiVersion", "kind", "metadata", "spec"] rfl (by decide) ?_
  simp only [List.forall_mem_cons, Training.field]
  refine ⟨word_sound (by decide), word_sound (by decide), ?_, ?_, List.forall_mem_nil _⟩
  · exact map_sound ["name"] rfl (by decide) (List.forall_mem_singleton.mpr (leaf_sound hn))
  · refine map_sound ["storageLimit", "persistentVolumeClaimSpec", "persistentVolumeSpec"] rfl (by decide) ?_
    simp only [List.forall_mem_cons]
    exact ⟨leaf_sound hl, hclaim, hvolume, List.forall_mem_nil _⟩

def nodeGroupForm : Form where
  yaml        := buildNodeGroupYaml p
  node        := nodeGroupNode p
  fields      := nodeGroupFields p
  listPath    := expressionPath ++ keys ["values"]
  listEntered := p.selectorValues
  listWritten := orBlank p.selectorValues
  rendered    := by rw [buildNodeGroupYaml, nodeGroupLines_eq, Node.render]
  field       := by
    simp only [nodeGroupFields, List.forall_mem_cons]
    exact ⟨rfl, rfl, rfl, rfl, rfl, rfl, rfl, rfl, List.forall_mem_nil _⟩
  list        := rfl
  sound       := nodeGroupNode_sound p

end NodeGroup

-- What is read has each field as it was entered, and the list.
structure Form.Describes (f : Form) (v : Value) : Prop where
  fields : ∀ e ∈ f.fields, pickValue v e.path = some (text e.entered)
  list   : pickValue v f.listPath = some (.list (f.listEntered.map text))

-- What may stand between quotes.
def Quotable (s : Text) : Prop :=
  s.all allowed ∧ marked s = false

-- What a text is read as.
def got (r : Resolver) (s : Text) : Value :=
  if bare s then r.resolve s else text (fold s)

-- A text that is read as itself.
structure Kept (r : Resolver) (s : Text) : Prop where
  plain  : bare s → s.all printable ∧ r.resolve s = text s
  quoted : bare s = false → s.all allowed ∧ marked s = false ∧ fold s = s

section Reading

variable {r : Resolver} {f : Form} {s : Text} {parse : Text → Option Value} {v : Value}

def Form.written (f : Form) : List Text :=
  f.fields.map Field.written ++ f.listWritten

def Form.entered (f : Form) : List Text :=
  f.fields.map Field.entered ++ f.listEntered

theorem leaf_got (r : Resolver) (s : Text) : ((leaf s).mapQuoted fold).value r.resolve = got r s := by
  unfold leaf got
  split <;> rfl

theorem leaves_got (r : Resolver) (l : List Text) :
    ((leaves l).mapQuoted fold).value r.resolve = .list (l.map (got r)) := by
  simp only [leaves, Node.mapQuoted, Node.value, mapItems_eq, itemValues_eq, List.map_map]
  exact congrArg Value.list (List.map_congr_left fun s _ => leaf_got r s)

theorem leaf_mem (s : Text) :
    s ∈ (leaf s).texts ++ (leaf s).quotes ∧ (bare s = false → s ∈ (leaf s).quotes) := by
  unfold leaf
  split
  case isTrue hb  => exact ⟨.head _, fun hn => by simp [hb] at hn⟩
  case isFalse hb => exact ⟨.head _, fun _ => .head _⟩

-- Each text stands in the document.
theorem written_found (h : s ∈ f.written) : ∃ path, f.node.pick path = some (leaf s) := by
  rcases List.mem_append.mp h with h | h
  · obtain ⟨e, he, rfl⟩ := List.mem_map.mp h
    exact ⟨e.path, f.field e he⟩
  · have ⟨n, hn⟩ := List.getElem?_of_mem h
    refine ⟨f.listPath ++ [.item n], ?_⟩
    rw [pick_append f.list]
    simp [leaves, Node.pick, hn]

theorem written_mem (h : s ∈ f.written) :
    s ∈ f.node.texts ++ f.node.quotes ∧ (bare s = false → s ∈ f.node.quotes) := by
  have ⟨path, hp⟩ := written_found h
  have ⟨ht, hq⟩ := pick_texts hp
  have ⟨hm, hb⟩ := leaf_mem s
  refine ⟨?_, fun hs => hq (hb hs)⟩
  rcases List.mem_append.mp hm with hm | hm
  · exact List.mem_append_left _ (ht hm)
  · exact List.mem_append_right _ (hq hm)

theorem entered_found (h : f.Describes v) (hs : s ∈ f.entered) : ∃ path, pickValue v path = some (text s) := by
  rcases List.mem_append.mp hs with hs | hs
  · obtain ⟨e, he, rfl⟩ := List.mem_map.mp hs
    exact ⟨e.path, h.fields e he⟩
  · have ⟨n, hn⟩ := List.getElem?_of_mem hs
    refine ⟨f.listPath ++ [.item n], ?_⟩
    rw [pickValue_append h.list]
    simp [pickValue, hn]

-- The only break that is not special is U+0085.
theorem bare_printable (hb : bare s) (ha : s.all allowed) (hn : '\u0085' ∉ s) : s.all printable := by
  have hbreak : (['\n', '\r', '\u0085', '\u2028', '\u2029'].all fun c => special c || c = '\u0085') = true := by
    decide
  refine List.all_eq_true.mpr fun c hc => ?_
  have hp := List.all_eq_true.mp ha c hc
  simp only [allowed, isBreak, Bool.or_eq_true, decide_eq_true_eq] at hp
  rcases hp with hp | hp
  · exact hp
  · have hs := List.all_eq_true.mp hbreak c hp
    simp only [(bare_iff.mp hb).right.left c hc, Bool.false_or, decide_eq_true_eq] at hs
    exact absurd (hs ▸ hc) hn

-- A document that is read well has only texts that may stand where they are.
theorem written_fit (h : Reader parse r f.node) (hw : ∀ s ∈ f.written, s ∈ f.entered ∨ '\u0085' ∉ s)
    (hv : parse f.node.render = some v) (hd : f.Describes v) : ∀ s ∈ f.written, Fit Quotable s := by
  have hall : ∀ s ∈ f.written, s.all allowed := by
    intro s hs
    by_contra ha
    have hn := h.control ⟨s, (written_mem hs).left, by simpa using ha⟩
    rw [hv] at hn
    cases hn
  have hnext : ∀ s ∈ f.written, '\u0085' ∉ s := by
    intro s hs
    rcases hw s hs with hs | hs
    · have ⟨path, hp⟩ := entered_found hd hs
      exact noNextLine_text (textsAll_pick (h.nextLine v hv) hp)
    · exact hs
  have hprint : ∀ s ∈ f.written, bare s → s.all printable :=
    fun s hs hb => bare_printable hb (hall s hs) (hnext s hs)
  have hshape : f.node.Shaped r :=
    (f.sound r (fun _ => True) fun s hs => ⟨hprint s hs, fun _ => trivial⟩).shaped
  intro s hs
  refine ⟨hprint s hs, fun hb => ⟨hall s hs, ?_⟩⟩
  by_contra hm
  have hn := h.marker hshape ⟨s, (written_mem hs).right hb, by simpa using hm⟩
  rw [hv] at hn
  cases hn

-- What is read where all texts may stand where they are.
theorem read_of_fit (h : Reader parse r f.node) (hf : ∀ s ∈ f.written, Fit Quotable s) :
    ∃ v, parse f.node.render = some v ∧ (∀ e ∈ f.fields, pickValue v e.path = some (got r e.written)) ∧
      pickValue v f.listPath = some (.list (f.listWritten.map (got r))) := by
  have hs := f.sound r Quotable hf
  refine ⟨_, h.reads hs.shaped hs.quotes, fun e he => ?_, ?_⟩
  · rw [pick_value hs.shaped (f.field e he), leaf_got]
  · rw [pick_value hs.shaped f.list, leaves_got]

theorem describes_iff (h : Reader parse r f.node) (hw : ∀ s ∈ f.written, s ∈ f.entered ∨ '\u0085' ∉ s) :
    (∃ v, parse f.yaml = some v ∧ f.Describes v) ↔
      (∀ s ∈ f.written, Fit Quotable s) ∧ (∀ e ∈ f.fields, got r e.written = text e.entered) ∧
        f.listWritten.map (got r) = f.listEntered.map text := by
  rw [f.rendered]
  constructor
  case mp =>
    intro ⟨v, hv, hd⟩
    have hf := written_fit h hw hv hd
    have ⟨v', hv', hg, hl⟩ := read_of_fit h hf
    cases hv.symm.trans hv'
    refine ⟨hf, fun e he => ?_, ?_⟩
    · exact Option.some.inj ((hg e he).symm.trans (hd.fields e he))
    · exact Value.list.inj (Option.some.inj (hl.symm.trans hd.list))
  case mpr =>
    intro ⟨hf, hg, hl⟩
    have ⟨v, hv, hgv, hlv⟩ := read_of_fit h hf
    refine ⟨v, hv, fun e he => ?_, ?_⟩
    · rw [hgv e he, hg e he]
    · rw [hlv, hl]

end Reading

section Payloads

variable {r : Resolver} {s : Text} {parse : Text → Option Value}

theorem kept_iff_fit : Kept r s ↔ Fit Quotable s ∧ got r s = text s := by
  unfold got
  cases hb : bare s
  case true  =>
    rw [if_pos rfl]
    constructor
    · intro h
      exact ⟨⟨fun hb => (h.plain hb).left, fun hn => absurd (hb.symm.trans hn) (by decide)⟩, (h.plain hb).right⟩
    · intro ⟨hf, hg⟩
      exact ⟨fun hb => ⟨hf.plain hb, hg⟩, fun hn => absurd (hb.symm.trans hn) (by decide)⟩
  case false =>
    rw [if_neg (by decide)]
    constructor
    · intro h
      have ⟨ha, hm, hs⟩ := h.quoted hb
      exact ⟨⟨fun hn => absurd (hb.symm.trans hn) (by decide), fun _ => ⟨ha, hm⟩⟩, congrArg text hs⟩
    · intro ⟨hf, hg⟩
      have hs : fold s = s := utf8_inj.mp (Value.string.inj hg)
      exact ⟨fun hn => absurd (hb.symm.trans hn) (by decide), fun hb => ⟨(hf.quoted hb).left, (hf.quoted hb).right, hs⟩⟩

-- Something is entered wherever another text would stand in.
structure NodeGroupFormPayload.Complete (p : NodeGroupFormPayload) : Prop where
  capacity       : p.capacity = [] → p.storageLimit = []
  selectorKey    : p.selectorKey ≠ []
  selectorValues : p.selectorValues ≠ []

def NodeGroupFormPayload.texts (p : NodeGroupFormPayload) : List Text :=
  [p.name, p.storageLimit, p.capacity, p.storageClassName, p.localPath, p.selectorKey] ++ p.selectorValues

def CacheFormPayload.texts (p : CacheFormPayload) : List Text :=
  [p.name, p.sourceModelUri, p.modelSize] ++ p.nodeGroups

-- A list is read as itself if its texts are, and if there are some.
theorem list_got {l : List Text} :
    (∀ s ∈ orBlank l, Fit Quotable s) ∧ (orBlank l).map (got r) = l.map text ↔ l ≠ [] ∧ ∀ s ∈ l, Kept r s := by
  unfold orBlank
  split
  case isTrue hn  =>
    simp only [List.map_inj_left, kept_iff_fit, hn, ne_eq, not_false_eq_true, true_and]
    exact ⟨fun h s hs => ⟨h.left s hs, h.right s hs⟩, fun h => ⟨fun s hs => (h s hs).left, fun s hs => (h s hs).right⟩⟩
  case isFalse hn =>
    simp only [ne_eq, Decidable.not_not] at hn
    simp [hn]

theorem kept_nil : Kept r [] :=
  ⟨nofun, fun _ => by decide⟩

theorem capacity_got {capacity storageLimit : Text} (hl : Kept r storageLimit) :
    Fit Quotable (orElse capacity storageLimit) ∧ got r (orElse capacity storageLimit) = text capacity ↔
      (capacity = [] → storageLimit = []) ∧ Kept r capacity := by
  unfold orElse
  split
  case isTrue hn  => rw [← kept_iff_fit, and_iff_right fun hc => absurd hc hn]
  case isFalse hn =>
    simp only [ne_eq, Decidable.not_not] at hn
    have hg : got r storageLimit = text storageLimit := (kept_iff_fit.mp hl).right
    have ht : text storageLimit = text [] ↔ storageLimit = [] :=
      ⟨fun h => utf8_inj.mp (Value.string.inj h), congrArg text⟩
    rw [hn, hg, ht, and_iff_right (kept_iff_fit.mp hl).left, and_iff_left kept_nil, imp_iff_right rfl]

theorem selectorKey_got {key : Text} :
    Fit Quotable (orElse key hostname) ∧ got r (orElse key hostname) = text key ↔ key ≠ [] ∧ Kept r key := by
  unfold orElse
  split
  case isTrue hn  => rw [← kept_iff_fit, and_iff_right hn]
  case isFalse hn =>
    simp only [ne_eq, Decidable.not_not] at hn
    have hg : got r hostname = text hostname := r.word _ (by decide)
    refine ⟨fun h => ?_, fun h => absurd hn h.left⟩
    rw [hn, hg] at h
    exact absurd (utf8_inj.mp (Value.string.inj h.right)) (by decide)

-- What stands in a document was entered, or has no end of a line.
theorem orBlank_entered {l : List Text} : ∀ s ∈ orBlank l, s ∈ l ∨ '\u0085' ∉ s := by
  intro s hs
  unfold orBlank at hs
  split at hs
  case isTrue  => exact .inl hs
  case isFalse =>
    rw [List.mem_singleton.mp hs]
    exact .inr List.not_mem_nil

theorem orElse_eq (a b : Text) : orElse a b = a ∨ orElse a b = b := by
  unfold orElse
  split
  case isTrue  => exact .inl rfl
  case isFalse => exact .inr rfl

theorem cache_describes_iff {p : CacheFormPayload} (h : Reader parse r (cacheNode p)) :
    (∃ v, parse (buildCacheYaml p) = some v ∧ (cacheForm p).Describes v) ↔
      p.nodeGroups ≠ [] ∧ ∀ s ∈ p.texts, Kept r s := by
  have hw : ∀ s ∈ (cacheForm p).written, s ∈ (cacheForm p).entered ∨ '\u0085' ∉ s := by
    intro s hs
    rcases List.mem_append.mp hs with hs | hs
    · exact .inl (List.mem_append_left _ hs)
    · exact (orBlank_entered s hs).imp_left (List.mem_append_right _)
  refine (describes_iff (f := cacheForm p) h hw).trans ?_
  have hl := @list_got r p.nodeGroups
  simp only [Form.written, cacheForm, cacheFields, CacheFormPayload.texts, List.forall_mem_append, List.forall_mem_cons,
    List.map_cons, List.map_nil, kept_iff_fit] at hl ⊢
  tauto

theorem nodeGroup_describes_iff {p : NodeGroupFormPayload} (h : Reader parse r (nodeGroupNode p)) :
    (∃ v, parse (buildNodeGroupYaml p) = some v ∧ (nodeGroupForm p).Describes v) ↔
      p.Complete ∧ ∀ s ∈ p.texts, Kept r s := by
  have hw : ∀ s ∈ (nodeGroupForm p).written, s ∈ (nodeGroupForm p).entered ∨ '\u0085' ∉ s := by
    intro s hs
    rcases List.mem_append.mp hs with hs | hs
    · have hk : '\u0085' ∉ hostname := by decide
      have hc := orElse_eq p.capacity p.storageLimit
      have hy := orElse_eq p.selectorKey hostname
      simp only [nodeGroupForm, nodeGroupFields, List.map_cons, List.map_nil, List.mem_cons, List.not_mem_nil,
        or_false] at hs
      simp only [nodeGroupForm, nodeGroupFields, Form.entered, List.map_cons, List.map_nil, List.mem_append,
        List.mem_cons]
      grind
    · exact (orBlank_entered s hs).imp_left (List.mem_append_right _)
  refine (describes_iff (f := nodeGroupForm p) h hw).trans ?_
  have hl := @list_got r p.selectorValues
  have hc := @capacity_got r p.capacity p.storageLimit
  have hk := @selectorKey_got r p.selectorKey
  simp only [Form.written, nodeGroupForm, nodeGroupFields, NodeGroupFormPayload.texts, List.forall_mem_append,
    List.forall_mem_cons, List.map_cons, List.map_nil, kept_iff_fit] at hl hc hk ⊢
  constructor
  case mp =>
    rintro ⟨⟨⟨fn, fl, fc, fs, _, fp, _, fk, _⟩, fv⟩, ⟨gn, gl, gc, gs, _, gp, _, gk, _⟩, gv⟩
    obtain ⟨c, kc⟩ := (hc ⟨fl, gl⟩).mp ⟨fc, gc⟩
    obtain ⟨k, kk⟩ := hk.mp ⟨fk, gk⟩
    obtain ⟨v, kv⟩ := hl.mp ⟨fv, gv⟩
    exact ⟨⟨c, k, v⟩, ⟨⟨fn, gn⟩, ⟨fl, gl⟩, kc, ⟨fs, gs⟩, ⟨fp, gp⟩, kk, List.forall_mem_nil _⟩, kv⟩
  case mpr =>
    rintro ⟨⟨c, k, v⟩, ⟨⟨fn, gn⟩, ⟨fl, gl⟩, kc, ⟨fs, gs⟩, ⟨fp, gp⟩, kk, _⟩, kv⟩
    obtain ⟨fc, gc⟩ := (hc ⟨fl, gl⟩).mpr ⟨c, kc⟩
    obtain ⟨fk, gk⟩ := hk.mpr ⟨k, kk⟩
    obtain ⟨fv, gv⟩ := hl.mpr ⟨v, kv⟩
    exact ⟨⟨⟨fn, fl, fc, fs, fc, fp, fs, fk, List.forall_mem_nil _⟩, fv⟩,
      ⟨gn, gl, gc, gs, gc, gp, gs, gk, List.forall_mem_nil _⟩, gv⟩

end Payloads

-- Both forms produce the manifest that they describe if and only if each of their texts is read as itself, and nothing
-- is left empty where something else would stand in.
theorem manifests_described_iff (parse : Text → Option Value) (r : Resolver) (p : NodeGroupFormPayload)
    (c : CacheFormPayload) (hp : Reader parse r (nodeGroupNode p)) (hc : Reader parse r (cacheNode c)) :
    ((∃ v, parse (buildNodeGroupYaml p) = some v ∧ (nodeGroupForm p).Describes v) ↔
      p.Complete ∧ ∀ s ∈ p.texts, Kept r s) ∧
    ((∃ v, parse (buildCacheYaml c) = some v ∧ (cacheForm c).Describes v) ↔
      c.nodeGroups ≠ [] ∧ ∀ s ∈ c.texts, Kept r s) :=
  ⟨nodeGroup_describes_iff hp, cache_describes_iff hc⟩

section Words

variable {t : Node} {s : Text}

theorem words_resolve (h : s ∉ reserved) : Resolver.words.resolve s = text s := by
  simp only [reserved, List.mem_append, not_or] at h
  simp only [Resolver.words]
  rw [if_neg h.left.left, if_neg h.left.right, if_neg h.right]
  rfl

-- A text in one line is read as itself when it is no word of the resolver.
theorem Kept.of_line {r : Resolver} (h : s.all printable) (hr : bare s → r.resolve s = text s) : Kept r s := by
  have hc := List.all_eq_true.mp h
  have hb : ∀ c ∈ s, isBreak c = false := fun c hm => isBreak_of_printable (hc c hm)
  constructor
  case plain  => exact fun hp => ⟨h, hr hp⟩
  case quoted =>
    intro _
    exact ⟨List.all_eq_true.mpr fun c hm => allowed_of_printable (hc c hm), marked_line hb, fold_line hb⟩

-- A reader of two documents.
def readerOf (t t' : Node) (s : Text) : Option Value :=
  if s = t.render then some ((t.mapQuoted fold).value Resolver.words.resolve)
  else if s = t'.render then some ((t'.mapQuoted fold).value Resolver.words.resolve)
  else none

theorem readerOf_left (t t' : Node) : readerOf t t' t.render = some ((t.mapQuoted fold).value Resolver.words.resolve) :=
  if_pos rfl

theorem readerOf_right {t t' : Node} (h : t'.render ≠ t.render) :
    readerOf t t' t'.render = some ((t'.mapQuoted fold).value Resolver.words.resolve) :=
  (if_neg h).trans (if_pos rfl)

end Words

def workers : NodeGroupFormPayload where
  name             := "workers".toList
  storageLimit     := "500Gi".toList
  capacity         := "500Gi".toList
  storageClassName := "local-storage".toList
  localPath        := "/mnt/models".toList
  selectorKey      := "kubernetes.io/hostname".toList
  selectorValues   := ["worker-0".toList]

def llama (group : String) : CacheFormPayload where
  name           := "llama".toList
  sourceModelUri := "hf://meta/llama".toList
  modelSize      := "10Gi".toList
  nodeGroups     := [group.toList]

def reader : Text → Option Value :=
  readerOf (nodeGroupNode workers) (cacheNode (llama "workers"))

theorem workers_described : (∃ v, reader (buildNodeGroupYaml workers) = some v ∧ (nodeGroupForm workers).Describes v) ∧
    ∃ v, reader (buildCacheYaml (llama "workers")) = some v ∧ (cacheForm (llama "workers")).Describes v := by
  have hp : Reader reader .words (nodeGroupNode workers) := by
    refine .of_value (readerOf_left _ _) ?_ ?_ ?_
    all_goals decide +kernel
  have hc : Reader reader .words (cacheNode (llama "workers")) := by
    have hn : (cacheNode (llama "workers")).render ≠ (nodeGroupNode workers).render := by decide +kernel
    refine .of_value (readerOf_right hn) ?_ ?_ ?_
    all_goals decide +kernel
  have h := manifests_described_iff reader .words workers (llama "workers") hp hc
  have hk : ∀ s ∈ workers.texts ++ (llama "workers").texts, s.all printable ∧ s ∉ reserved := by
    decide +kernel
  have kept {s : Text} (hs : s ∈ workers.texts ++ (llama "workers").texts) : Kept .words s :=
    .of_line (hk s hs).left fun _ => words_resolve (hk s hs).right
  exact ⟨h.left.mpr ⟨⟨nofun, nofun, nofun⟩, fun s hs => kept (List.mem_append_left _ hs)⟩,
    h.right.mpr ⟨nofun, fun s hs => kept (List.mem_append_right _ hs)⟩⟩

-- A group of nodes that is a boolean for the reader.
theorem group_read_as_bool : ∃ parse r c, Reader parse r (cacheNode c) ∧
    ¬∃ v, parse (buildCacheYaml c) = some v ∧ (cacheForm c).Describes v := by
  refine ⟨readerOf (cacheNode (llama "no")) .emptyMap, .words, llama "no", ?_, ?_⟩
  · refine .of_value (readerOf_left _ _) ?_ ?_ ?_
    all_goals decide +kernel
  · intro ⟨v, hv, hd⟩
    rw [show buildCacheYaml (llama "no") = (cacheNode (llama "no")).render from (cacheForm (llama "no")).rendered,
      readerOf_left] at hv
    cases hv
    cases hd.list

end Console.LocalModelForms
