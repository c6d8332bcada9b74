import Knaic.Console.LocalModelForms
import Knaic.Inference.RouteStatus
import Knaic.K8sRes.InferenceProj

open Go Kube
open Inference (objects sliceAt stringAt)

namespace K8sRes

structure LocalModelNodeGroup where
  name             : Str
  storageLimit     : Str
  hostPath         : Str
  storageClassName : Str
  used             : Str
  available        : Str
  selectorKey      : Str
  selectorOp       : Str
  selectorValues   : Option (List Str)
deriving DecidableEq

def termsPath : List String :=
  ["spec", "persistentVolumeSpec", "nodeAffinity", "required", "nodeSelectorTerms"]

-- The first expression of the first term, which stands for all of them.
def nodeSelector (o : Fields) : Option Fields := do
  let term ← nestedFirstContainer o (termsPath.map str)
  nestedFirstContainer term [str "matchExpressions"]

def projectLocalModelNodeGroup (o : Fields) : LocalModelNodeGroup :=
  let storageLimit := stringAt o ["spec", "storageLimit"]
  let storageClass := stringAt o ["spec", "persistentVolumeSpec", "storageClassName"]
  let selector     := (nodeSelector o).getD []
  { name             := o.getName
    storageLimit     :=
      if storageLimit = [] then ((o.nestedInt64 [str "spec", str "storageLimit"]).map formatInt).getD []
      else storageLimit
    hostPath         := stringAt o ["spec", "persistentVolumeSpec", "local", "path"]
    storageClassName :=
      if storageClass = [] then stringAt o ["spec", "persistentVolumeClaimSpec", "storageClassName"] else storageClass
    used             := stringAt o ["status", "used"]
    available        := stringAt o ["status", "available"]
    selectorKey      := stringAt selector ["key"]
    selectorOp       := stringAt selector ["operator"]
    selectorValues   := (selector.nestedStringSlice [str "values"]).filter (· ≠ []) }

structure NodeStatus where
  node  : Str
  state : Str
deriving DecidableEq

structure LocalModelCache where
  name              : Str
  sourceModelUri    : Str
  modelSize         : Str
  nodeGroups        : Option (List Str)
  nodeStatus        : List NodeStatus
  copiesAvailable   : Int
  copiesTotal       : Int
  inferenceServices : List (Str × Str)
deriving DecidableEq

-- The map of the states is visited in the order of `visit`.
def projectLocalModelCache (visit : Fields → List (Str × Value)) (o : Fields) : LocalModelCache where
  name              := o.getName
  sourceModelUri    := stringAt o ["spec", "sourceModelUri"]
  modelSize         := stringAt o ["spec", "modelSize"]
  nodeGroups        := o.nestedStringSlice [str "spec", str "nodeGroups"]
  nodeStatus        := (visit ((o.nestedMap [str "status", str "nodeStatus"]).getD [])).map fun e =>
    ⟨e.1, e.2.string?.getD []⟩
  copiesAvailable   := (o.nestedInt64 [str "status", str "copies", str "available"]).getD 0
  copiesTotal       := (o.nestedInt64 [str "status", str "copies", str "total"]).getD 0
  inferenceServices := (objects (sliceAt o ["status", "inferenceServices"])).filterMap fun m =>
    if stringAt m ["name"] = [] then none else some (stringAt m ["name"], stringAt m ["namespace"])

end K8sRes

namespace Console.LocalModelForms

open K8sRes Yaml
open Js (utf8)

section Picking

variable {v w : Value} {o : Fields} {path more : List Sel}

theorem pickValue_split (h : pickValue v (path ++ more) = some w) :
    ∃ u, pickValue v path = some u ∧ pickValue u more = some w := by
  induction path generalizing v
  case nil            => exact ⟨v, rfl, h⟩
  case cons c path hi =>
    cases v
    case obj o      =>
      cases c
      case item  => cases h
      case key k =>
        obtain ⟨u, hu, h⟩ := Option.bind_eq_some_iff.mp h
        rw [pickValue, hu]
        exact hi h
    case list items =>
      cases c
      case key    => cases h
      case item n =>
        obtain ⟨u, hu, h⟩ := Option.bind_eq_some_iff.mp h
        rw [pickValue, hu]
        exact hi h
    all_goals cases c <;> cases h

-- What is found under keys is found by the functions of the client library.
theorem nestedField_of_pick {ks : List String} (hn : ks ≠ []) (h : pickValue (.obj o) (keys ks) = some v) :
    o.nestedField (ks.map str) = some v := by
  induction ks generalizing o
  case nil          => exact absurd rfl hn
  case cons k ks hi =>
    obtain ⟨u, hu, h⟩ := Option.bind_eq_some_iff.mp h
    have hu : o.get (str k) = some u := hu
    cases ks
    case nil       =>
      cases h
      exact hu
    case cons k' _ =>
      cases u
      case obj m =>
        rw [List.map_cons, Fields.nestedField_cons o _ (by simp), hu]
        exact hi (by simp) h
      all_goals cases h

theorem stringAt_of_pick {ks : List String} {s : Text} (hn : ks ≠ []) (h : pickValue (.obj o) (keys ks) = some (text s)) :
    stringAt o ks = utf8 s := by
  rw [stringAt, Fields.nestedString, nestedField_of_pick hn h]
  rfl

theorem strings_of_pick {ks : List String} {l : List Text} (hn : ks ≠ [])
    (h : pickValue (.obj o) (keys ks) = some (.list (l.map text))) :
    o.nestedStringSlice (ks.map str) = some (l.map utf8) := by
  have hl : l.map text = toAnySlice (l.map utf8) := by
    rw [toAnySlice, List.map_map]
    rfl
  rw [Fields.nestedStringSlice, Fields.nestedSlice, nestedField_of_pick hn h, hl]
  exact mapM_toAnySlice _

-- The first item of a list of objects.
theorem first_of_pick {ks : List String} {m : Fields} (hn : ks ≠ [])
    (h : pickValue (.obj o) (keys ks ++ [.item 0]) = some (.obj m)) : nestedFirstContainer o (ks.map str) = some m := by
  obtain ⟨u, hu, h⟩ := pickValue_split h
  cases u
  case list l =>
    obtain ⟨u, hl, h⟩ := Option.bind_eq_some_iff.mp h
    cases h
    rw [nestedFirstContainer, Fields.nestedSlice, nestedField_of_pick hn hu]
    rw [Option.bind_some, Value.list?_list, Option.bind_some, List.head?_eq_getElem?, hl]
    rfl
  all_goals cases h

end Picking

-- What the cluster has once a document was taken: the name and the specification stay, and the rest is up to the
-- controllers.
structure Served (doc served : Fields) : Prop where
  name : served.getName = doc.getName
  spec : served.get (str "spec") = doc.get (str "spec")

section Shown

variable {r : Resolver} {f : Form} {s : Text} {parse : Text → Option Value} {doc served : Fields}

-- A document in which all texts may stand where they are is read with everything that it has.
theorem read_pick (h : Reader parse r f.node) (hf : ∀ s ∈ f.written, Fit Quotable s) :
    ∃ v, parse f.yaml = some v ∧
      ∀ path t, f.node.pick path = some t → pickValue v path = some ((t.mapQuoted fold).value r.resolve) := by
  have hs := f.sound r Quotable hf
  exact ⟨_, by rw [f.rendered]; exact h.reads hs.shaped hs.quotes, fun path t ht => pick_value hs.shaped ht⟩

theorem kept_leaf (h : Kept r s) : ((leaf s).mapQuoted fold).value r.resolve = text s := by
  rw [leaf_got]
  exact (kept_iff_fit.mp h).right

theorem kept_leaves {l : List Text} (h : ∀ s ∈ l, Kept r s) :
    ((leaves l).mapQuoted fold).value r.resolve = .list (l.map text) := by
  rw [leaves_got]
  exact congrArg Value.list (List.map_congr_left fun s hs => (kept_iff_fit.mp (h s hs)).right)

theorem Served.field (h : Served doc served) (ks : List String) : served.nestedField (str "spec" :: ks.map str) =
    doc.nestedField (str "spec" :: ks.map str) := by
  cases ks
  case nil  => exact h.spec
  case cons => simp only [List.map_cons, Fields.nestedField_cons_cons, h.spec]

theorem Served.text (h : Served doc served) {ks : List String} (hk : Kept r s)
    (hp : pickValue (.obj doc) (keys ("spec" :: ks)) = some (((leaf s).mapQuoted fold).value r.resolve)) :
    stringAt served ("spec" :: ks) = utf8 s := by
  rw [kept_leaf hk] at hp
  have hd := stringAt_of_pick (List.cons_ne_nil _ _) hp
  rwa [stringAt, Fields.nestedString, List.map_cons, ← h.field] at hd

theorem Served.named (h : Served doc served) (hk : Kept r s)
    (hp : pickValue (.obj doc) (keys ["metadata", "name"]) = some (((leaf s).mapQuoted fold).value r.resolve)) :
    served.getName = utf8 s := by
  rw [kept_leaf hk] at hp
  exact h.name.trans (stringAt_of_pick (List.cons_ne_nil _ _) hp)

theorem orElse_self {a : Text} (h : a ≠ []) (b : Text) : orElse a b = a :=
  if_pos h

theorem orBlank_self {l : List Text} (h : l ≠ []) : orBlank l = l :=
  if_pos h

-- A row with what was entered, and with the status that the cluster has.
def cacheRow (c : CacheFormPayload) (status : LocalModelCache) : LocalModelCache :=
  { status with
    name           := utf8 c.name
    sourceModelUri := utf8 c.sourceModelUri
    modelSize      := utf8 c.modelSize
    nodeGroups     := some (c.nodeGroups.map utf8) }

def nodeGroupRow (p : NodeGroupFormPayload) (status : LocalModelNodeGroup) : LocalModelNodeGroup :=
  { status with
    name             := utf8 p.name
    storageLimit     := utf8 p.storageLimit
    hostPath         := utf8 p.localPath
    storageClassName := utf8 p.storageClassName
    selectorKey      := utf8 p.selectorKey
    selectorOp       := str "In"
    selectorValues   := some (p.selectorValues.map utf8) }

theorem cache_shown {c : CacheFormPayload} (h : Reader parse r (cacheNode c)) (hn : c.nodeGroups ≠ [])
    (hk : ∀ s ∈ c.texts, Kept r s) (visit : Fields → List (Str × Value)) :
    ∃ doc, parse (buildCacheYaml c) = some (.obj doc) ∧ ∀ served, Served doc served →
      projectLocalModelCache visit served = cacheRow c (projectLocalModelCache visit served) := by
  have hf : ∀ s ∈ (cacheForm c).written, Fit Quotable s := by
    simp only [Form.written, cacheForm, cacheFields, List.map_cons, List.map_nil, orBlank_self hn]
    exact fun s hs => (kept_iff_fit.mp (hk s hs)).left
  obtain ⟨v, hv, hp⟩ := read_pick (f := cacheForm c) h hf
  obtain ⟨doc, rfl⟩ : ∃ doc, v = .obj doc := ⟨_, Option.some.inj (hp [] _ rfl)⟩
  refine ⟨doc, hv, fun served hs => ?_⟩
  simp only [CacheFormPayload.texts, List.forall_mem_append, List.forall_mem_cons] at hk
  obtain ⟨⟨kn, ku, km, -⟩, kg⟩ := hk
  have hg : served.nestedStringSlice [str "spec", str "nodeGroups"] = some (c.nodeGroups.map utf8) := by
    have hl := hp (keys ["spec", "nodeGroups"]) (leaves c.nodeGroups) (by rw [← orBlank_self hn]; rfl)
    rw [kept_leaves kg] at hl
    have hd := strings_of_pick (List.cons_ne_nil _ _) hl
    rwa [Fields.nestedStringSlice, Fields.nestedSlice, List.map_cons, ← hs.field] at hd
  have hname := hs.named kn (hp (keys ["metadata", "name"]) (leaf c.name) rfl)
  have huri := hs.text ku (hp (keys ["spec", "sourceModelUri"]) (leaf c.sourceModelUri) rfl)
  have hsize := hs.text km (hp (keys ["spec", "modelSize"]) (leaf c.modelSize) rfl)
  simp only [projectLocalModelCache, cacheRow, hname, huri, hsize, hg]

-- The expression that a form writes is the one that is shown.
theorem Served.selector (h : Served doc served) {term e : Fields}
    (ht : pickValue (.obj doc) (keys termsPath ++ [.item 0]) = some (.obj term))
    (he : pickValue (.obj doc) expressionPath = some (.obj e)) : nodeSelector served = some e := by
  have hn : termsPath ≠ [] := List.cons_ne_nil _ _
  have hd := first_of_pick hn ht
  have hm : pickValue (.obj term) (keys ["matchExpressions"] ++ [.item 0]) = some (.obj e) := by
    rw [← pickValue_append ht, ← List.append_assoc]
    exact he
  have hs : served.nestedField (termsPath.map str) = doc.nestedField (termsPath.map str) :=
    h.field ["persistentVolumeSpec", "nodeAffinity", "required", "nodeSelectorTerms"]
  rw [nestedFirstContainer, Fields.nestedSlice, ← hs] at hd
  rw [nodeSelector, show nestedFirstContainer served (termsPath.map str) = some term from hd]
  exact first_of_pick (List.cons_ne_nil _ _) hm

theorem nodeGroup_shown {p : NodeGroupFormPayload} (h : Reader parse r (nodeGroupNode p)) (hc : p.Complete)
    (hk : ∀ s ∈ p.texts, Kept r s) : ∃ doc, parse (buildNodeGroupYaml p) = some (.obj doc) ∧ ∀ served, Served doc served →
      projectLocalModelNodeGroup served = nodeGroupRow p (projectLocalModelNodeGroup served) := by
  have hkey := orElse_self hc.selectorKey hostname
  have hvalues := orBlank_self hc.selectorValues
  have hf : ∀ s ∈ (nodeGroupForm p).written, Fit Quotable s := by
    intro s hs
    refine (kept_iff_fit.mp (hk s ?_)).left
    have hcap := orElse_eq p.capacity p.storageLimit
    simp only [Form.written, nodeGroupForm, nodeGroupFields, List.map_cons, List.map_nil, hkey, hvalues, List.mem_append,
      List.mem_cons, List.not_mem_nil, or_false] at hs
    simp only [NodeGroupFormPayload.texts, List.mem_append, List.mem_cons, List.not_mem_nil, or_false]
    grind
  obtain ⟨v, hv, hp⟩ := read_pick (f := nodeGroupForm p) h hf
  obtain ⟨doc, rfl⟩ : ∃ doc, v = .obj doc := ⟨_, Option.some.inj (hp [] _ rfl)⟩
  refine ⟨doc, hv, fun served hs => ?_⟩
  simp only [NodeGroupFormPayload.texts, List.forall_mem_append, List.forall_mem_cons] at hk
  obtain ⟨⟨kn, kl, -, ks, kp, kk, -⟩, kv⟩ := hk
  have hname := hs.named kn (hp (keys ["metadata", "name"]) (leaf p.name) rfl)
  have hlimit := hs.text kl (hp (keys ["spec", "storageLimit"]) (leaf p.storageLimit) rfl)
  have hpath := hs.text kp (hp (keys ["spec", "persistentVolumeSpec", "local", "path"]) (leaf p.localPath) rfl)
  have hclass := hs.text ks (hp (keys ["spec", "persistentVolumeSpec", "storageClassName"]) (leaf p.storageClassName) rfl)
  have hclaim := hs.text ks
    (hp (keys ["spec", "persistentVolumeClaimSpec", "storageClassName"]) (leaf p.storageClassName) rfl)
  obtain ⟨e, he⟩ : ∃ e : Fields, pickValue (.obj doc) expressionPath = some (.obj e) :=
    ⟨_, hp expressionPath (expressionNode p) rfl⟩
  obtain ⟨term, ht⟩ : ∃ term : Fields, pickValue (.obj doc) (keys termsPath ++ [.item 0]) = some (.obj term) :=
    ⟨_, hp (keys termsPath ++ [.item 0]) (.map [Training.field "matchExpressions" (.seq [expressionNode p])]) rfl⟩
  have hsel := hs.selector ht he
  have below (ks : List String) (t : Node) (hn : (nodeGroupNode p).pick (expressionPath ++ keys ks) = some t) :
      pickValue (.obj e) (keys ks) = some ((t.mapQuoted fold).value r.resolve) := by
    rw [← pickValue_append he]
    exact hp _ t hn
  have hshown : stringAt e ["key"] = utf8 p.selectorKey := by
    have hl := below ["key"] (leaf p.selectorKey) (by rw [← hkey]; rfl)
    rw [kept_leaf kk] at hl
    exact stringAt_of_pick (List.cons_ne_nil _ _) hl
  have hop : stringAt e ["operator"] = str "In" := by
    have hl := below ["operator"] (word "In") rfl
    have hw : ((word "In").mapQuoted fold).value r.resolve = text "In".toList := r.word _ (by decide)
    rw [hw] at hl
    exact stringAt_of_pick (List.cons_ne_nil _ _) hl
  have hin : e.nestedStringSlice [str "values"] = some (p.selectorValues.map utf8) := by
    have hl := below ["values"] (leaves p.selectorValues) (by rw [← hvalues]; rfl)
    rw [kept_leaves kv] at hl
    exact strings_of_pick (List.cons_ne_nil _ _) hl
  have hsome : (some (p.selectorValues.map utf8)).filter (fun l => decide (l ≠ [])) = some (p.selectorValues.map utf8) := by
    simp [hc.selectorValues]
  have hint : served.nestedInt64 [str "spec", str "storageLimit"] = none := by
    have hl := hp (keys ["spec", "storageLimit"]) (leaf p.storageLimit) rfl
    rw [kept_leaf kl] at hl
    have hd := nestedField_of_pick (List.cons_ne_nil _ _) hl
    rw [List.map_cons, ← hs.field] at hd
    rw [Fields.nestedInt64]
    exact (congrArg (·.bind Value.int?) hd).trans rfl
  simp only [projectLocalModelNodeGroup, nodeGroupRow, hname, hlimit, hpath, hclass, hclaim, hsel, hshown, hop, hin, hint,
    hsome, Option.getD_some, Option.map_none, Option.getD_none, ite_self]
  congr 1
  split
  case isTrue he  => exact he.symm
  case isFalse    => rfl

end Shown

-- What is entered in the forms is what the tables show, whatever the controllers write of it: the document is read as an
-- object, and the row of what the cluster makes of that has each field as it was entered, and the status as it is.
theorem entered_shown (parse : Text → Option Value) (r : Resolver) (p : NodeGroupFormPayload) (c : CacheFormPayload)
    (hp : Reader parse r (nodeGroupNode p)) (hc : Reader parse r (cacheNode c)) (hf : p.Complete) (hn : c.nodeGroups ≠ [])
    (hk : ∀ s ∈ p.texts ++ c.texts, Kept r s) (visit : Fields → List (Str × Value)) :
    (∃ doc, parse (buildNodeGroupYaml p) = some (.obj doc) ∧ ∀ served, Served doc served →
      projectLocalModelNodeGroup served = nodeGroupRow p (projectLocalModelNodeGroup served)) ∧
    ∃ doc, parse (buildCacheYaml c) = some (.obj doc) ∧ ∀ served, Served doc served →
      projectLocalModelCache visit served = cacheRow c (projectLocalModelCache visit served) :=
  ⟨nodeGroup_shown hp hf fun s hs => hk s (List.mem_append_left _ hs),
    cache_shown hc hn (fun s hs => hk s (List.mem_append_right _ hs)) visit⟩

theorem workers_shown : (∃ doc, reader (buildNodeGroupYaml workers) = some (.obj doc) ∧ ∀ served, Served doc served →
      projectLocalModelNodeGroup served = nodeGroupRow workers (projectLocalModelNodeGroup served)) ∧
    ∃ doc, reader (buildCacheYaml (llama "workers")) = some (.obj doc) ∧ ∀ served, Served doc served →
      projectLocalModelCache id served = cacheRow (llama "workers") (projectLocalModelCache id served) := by
  have hp : Reader reader .words (nodeGroupNode workers) := by
    refine .of_value (readerOf_left _ _) ?_ ?_ ?_
    all_goals decide +kernel
  have hc : Reader reader .words (cacheNode (llama "workers")) := by
    have hn : (cacheNode (llama "workers")).render ≠ (nodeGroupNode workers).render := by decide +kernel
    refine .of_value (readerOf_right hn) ?_ ?_ ?_
    all_goals decide +kernel
  have hk : ∀ s ∈ workers.texts ++ (llama "workers").texts, s.all printable ∧ s ∉ reserved := by
    decide +kernel
  exact entered_shown reader .words workers (llama "workers") hp hc ⟨nofun, nofun, nofun⟩ nofun
    (fun s hs => .of_line (hk s hs).left fun _ => words_resolve (hk s hs).right) id

end Console.LocalModelForms
