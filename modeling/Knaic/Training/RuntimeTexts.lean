import Knaic.Training.Agreement

open Go Kube Yaml
open Js (utf8)

-- The texts of a runtime that reach its document, and what makes the document readable.
namespace Training

namespace RuntimePayload

variable (req : RuntimePayload)

-- The trainer and the jobs before it.
def containers : List PreJob :=
  ⟨[], req.image, req.command, req.args, req.env⟩ :: req.preJobs

def gpuKeys : List Text :=
  req.gpuValues.map Prod.fst

-- An accelerator under the key of a quantity takes its place.
def quantityTexts : List Text :=
  (if "cpu".toList ∈ req.gpuKeys then [] else [req.cpuRequest, req.cpuLimit.getD req.cpuRequest]) ++
  (if "memory".toList ∈ req.gpuKeys then []
    else [req.memoryRequest, req.memoryLimit.getD req.memoryRequest])

-- What goes through `yamlQuote`.
def quotable : List Text :=
  req.containers.flatMap (fun c => c.command ++ c.args ++ c.env.map EnvEntry.value) ++ req.quantityTexts

def quoted : List Text :=
  req.quotable.filter needsQuotes

-- What is written as it is.
def bare : List Text :=
  req.containers.flatMap (fun c => c.image :: c.env.map EnvEntry.name) ++
  req.quotable.filter fun s => !needsQuotes s

end RuntimePayload

-- What is written as it is can be written so, and what is quoted has only characters that a quoted text may
-- have.
structure Legible (r : Resolver) (ns : Text) (req : RuntimePayload) : Prop where
  name    : IsPlain req.name
  cluster : req.cluster ∨ IsPlain ns
  bare    : ∀ s ∈ req.bare, IsPlain s
  quoted  : ∀ s ∈ req.quoted, s.all printable
  gpuKeys : ∀ k ∈ req.gpuKeys, r.Keys k

-- Each text is taken for a text, and each number is an integer.
structure Literal (r : Resolver) (req : RuntimePayload) : Prop where
  bare      : ∀ s ∈ req.bare, r.resolve s = text s
  numNodes  : req.numNodes = .null ∨ ∃ n, req.numNodes = .int n ∧ IsInt64 n
  gpuValues : ∀ e ∈ req.gpuValues, ∃ n, e.2 = .int n ∧ IsInt64 n

section Texts

variable {req : RuntimePayload} {P : Text → Prop} {l : Quantities} {k k' s : Text}

theorem mem_assign_number (l : Quantities) (k : Text) (x : Number) :
    (k', Quantity.text s) ∈ assign l k (.number x) ↔ (k', .text s) ∈ l ∧ k' ≠ k := by
  unfold assign
  split
  case isTrue h =>
    rw [List.mem_map]
    constructor
    case mp =>
      intro ⟨e, he, h⟩
      split at h
      case isTrue     => cases h
      case isFalse hk =>
        subst h
        exact ⟨he, hk⟩
    case mpr => exact fun h => ⟨_, h.left, if_neg h.right⟩
  case isFalse h =>
    rw [List.mem_append, List.mem_singleton]
    constructor
    case mpr => exact fun h => .inl h.left
    case mp  =>
      intro hm
      cases hm
      case inr hm => cases hm
      case inl hm => exact ⟨hm, fun hk => h (hk ▸ List.mem_map_of_mem hm)⟩

theorem mem_assignAll_text (l : Quantities) (gpuValues : List (Text × Number)) :
    (k', Quantity.text s) ∈ assignAll l gpuValues ↔
      (k', .text s) ∈ l ∧ k' ∉ gpuValues.map Prod.fst := by
  induction gpuValues generalizing l
  case nil                 => simp [assignAll]
  case cons e gpuValues hi =>
    have h := hi (assign l e.1 (.number e.2))
    rw [mem_assign_number] at h
    rw [List.map_cons, List.mem_cons, not_or, ← and_assoc]
    exact h

theorem assignText_eq {cpu memory : Text} (hc : cpu ≠ []) (hm : memory ≠ []) :
    assignText (assignText [] "cpu" cpu) "memory" memory =
      [("cpu".toList, .text cpu), ("memory".toList, .text memory)] := by
  rw [assignText, if_pos hm, assignText, if_pos hc]
  rfl

theorem leaf_texts : (∀ s ∈ (leaf k).texts, P s) ↔ (needsQuotes k = false → P k) := by
  unfold leaf
  cases needsQuotes k
  case true  => simp [Node.texts]
  case false => simp [Node.texts]

theorem quantityNode_texts {q : Quantity} (h : ∀ x, q = .number x → ∃ n, x = .int n) :
    (∀ s ∈ (quantityNode q).texts, P s) ↔ ∀ s, q = .text s → needsQuotes s = false → P s := by
  cases q
  case text t   =>
    rw [quantityNode, leaf_texts]
    exact ⟨fun h s hs => Quantity.text.inj hs ▸ h, fun h => h t rfl⟩
  case number x =>
    have ⟨n, hn⟩ := h x rfl
    subst hn
    constructor
    case mp  => exact fun _ _ hs => Quantity.noConfusion hs
    case mpr => exact fun _ => List.forall_mem_nil _

theorem quantitiesNode_texts (h : ∀ e ∈ l, ∀ x, e.2 = .number x → ∃ n, x = .int n) :
    (∀ s ∈ (quantitiesNode l).texts, P s) ↔
      ∀ k s, (k, Quantity.text s) ∈ l → needsQuotes s = false → P s := by
  rw [quantitiesNode, Node.texts]
  induction l
  case nil         => exact ⟨fun _ _ _ h => absurd h List.not_mem_nil, fun _ => List.forall_mem_nil _⟩
  case cons e l hi =>
    rw [List.map_cons, fieldTexts, List.forall_mem_append, hi fun e he => h e (.tail _ he),
      quantityNode_texts (h e (.head _))]
    constructor
    case mp =>
      intro ht k s hm
      cases hm
      case head    => exact ht.left s rfl
      case tail hm => exact ht.right k s hm
    case mpr =>
      intro ht
      exact ⟨fun s hs => ht e.1 s (List.mem_cons.mpr (.inl (Prod.ext rfl hs.symm))),
        fun k s hm => ht k s (.tail _ hm)⟩

-- The quantities of the trainer.
def amounts (cpu memory : Text) (gpuValues : List (Text × Number)) : Quantities :=
  assignAll [("cpu".toList, .text cpu), ("memory".toList, .text memory)] gpuValues

theorem amounts_int {cpu memory : Text} {gpuValues : List (Text × Number)}
    (hg : ∀ e ∈ gpuValues, ∃ n, e.2 = .int n ∧ IsInt64 n) :
    ∀ e ∈ amounts cpu memory gpuValues, ∀ x, e.2 = .number x → ∃ n, x = .int n ∧ IsInt64 n := by
  intro e he x hx
  cases mem_assignAll he
  case inl he =>
    have ht : ∃ s, e.2 = .text s := by
      cases List.mem_pair.mp he
      case inl he => exact ⟨cpu, he ▸ rfl⟩
      case inr he => exact ⟨memory, he ▸ rfl⟩
    have ⟨s, hs⟩ := ht
    cases hs.symm.trans hx
  case inr he =>
    have ⟨g, hm, hq⟩ := he
    subst hq
    exact Quantity.number.inj hx ▸ hg g hm

theorem amounts_texts {cpu memory : Text} {gpuValues : List (Text × Number)}
    (hg : ∀ e ∈ gpuValues, ∃ n, e.2 = .int n ∧ IsInt64 n) :
    (∀ s ∈ (quantitiesNode (amounts cpu memory gpuValues)).texts, P s) ↔
      ("cpu".toList ∉ gpuValues.map Prod.fst → needsQuotes cpu = false → P cpu) ∧
      ("memory".toList ∉ gpuValues.map Prod.fst → needsQuotes memory = false → P memory) := by
  rw [quantitiesNode_texts fun e he x hx => (amounts_int hg e he x hx).imp fun _ => And.left]
  constructor
  case mp =>
    intro h
    constructor
    case left  => exact fun hk => h _ cpu ((mem_assignAll_text _ _).mpr ⟨.head _, hk⟩)
    case right => exact fun hk => h _ memory ((mem_assignAll_text _ _).mpr ⟨.tail _ (.head _), hk⟩)
  case mpr =>
    intro h k s hm
    have ⟨hm, hk⟩ := (mem_assignAll_text _ _).mp hm
    cases List.mem_pair.mp hm
    case inl he => cases he; exact h.left hk
    case inr he => cases he; exact h.right hk

theorem fieldTexts_seq (k : String) (items : List Node) :
    fieldTexts [field k (.seq items)] = itemTexts items :=
  List.append_nil _

theorem listField_texts (k : String) (l : List Text) :
    (∀ s ∈ fieldTexts (listField k l), P s) ↔ ∀ s ∈ l, needsQuotes s = false → P s := by
  have hl : (∀ s ∈ itemTexts (l.map leaf), P s) ↔ ∀ s ∈ l, needsQuotes s = false → P s := by
    induction l
    case nil         => exact ⟨fun _ => List.forall_mem_nil _, fun _ => List.forall_mem_nil _⟩
    case cons s l hi => rw [List.map_cons, itemTexts, List.forall_mem_append, leaf_texts, hi, List.forall_mem_cons]
  rw [← hl]
  cases l
  case nil      => rfl
  case cons s l => rw [listField, if_neg (List.cons_ne_nil _ _), fieldTexts_seq]

theorem envField_texts (env : List EnvEntry) :
    (∀ s ∈ fieldTexts (envField env), P s) ↔
      ∀ e ∈ env, P e.name ∧ (needsQuotes e.value = false → P e.value) := by
  have hl : (∀ s ∈ itemTexts (env.map fun e =>
      .map [field "name" (.plain e.name), field "value" (leaf e.value)]), P s) ↔
      ∀ e ∈ env, P e.name ∧ (needsQuotes e.value = false → P e.value) := by
    induction env
    case nil           => exact ⟨fun _ => List.forall_mem_nil _, fun _ => List.forall_mem_nil _⟩
    case cons e env hi =>
      rw [List.map_cons, itemTexts, List.forall_mem_append, hi, List.forall_mem_cons, ← leaf_texts]
      simp only [Node.texts, field, fieldTexts, List.append_nil, List.forall_mem_append,
        List.forall_mem_singleton]
  rw [← hl]
  cases env
  case nil        => rfl
  case cons e env => rw [envField, if_neg (List.cons_ne_nil _ _), fieldTexts_seq]

theorem fieldTexts_append (fs gs : List (Text × Node)) :
    fieldTexts (fs ++ gs) = fieldTexts fs ++ fieldTexts gs := by
  induction fs
  case nil          => rfl
  case cons f fs hi => rw [List.cons_append, fieldTexts, fieldTexts, hi, List.append_assoc]

theorem itemTexts_append (is js : List Node) : itemTexts (is ++ js) = itemTexts is ++ itemTexts js := by
  induction is
  case nil          => rfl
  case cons v is hi => rw [List.cons_append, itemTexts, itemTexts, hi, List.append_assoc]

-- What a container has, apart from its name.
def Contents (P : Text → Prop) (image : Text) (command args : List Text) (env : List EnvEntry) : Prop :=
  P image ∧ (∀ s ∈ command, needsQuotes s = false → P s) ∧ (∀ s ∈ args, needsQuotes s = false → P s) ∧
    ∀ e ∈ env, P e.name ∧ (needsQuotes e.value = false → P e.value)

theorem containerFields_texts {name image : Text} (hi : image ≠ []) (command args : List Text)
    (env : List EnvEntry) : (∀ s ∈ fieldTexts (containerFields name image command args env), P s) ↔
      P name ∧ Contents P image command args env := by
  rw [containerFields, fieldTexts_append, fieldTexts_append, fieldTexts_append, List.forall_mem_append,
    List.forall_mem_append, List.forall_mem_append, listField_texts, listField_texts, envField_texts,
    if_neg hi]
  simp only [field, fieldTexts, Node.texts, List.append_nil, List.forall_mem_append,
    List.forall_mem_singleton, Contents, and_assoc]

theorem jobNode_texts (lastStep name step : Text) (container : List (Text × Node)) :
    (∀ s ∈ (jobNode lastStep name step container).texts, P s) ↔
      P name ∧ (lastStep ≠ [] → P lastStep ∧ P "Complete".toList) ∧ P step ∧
        ∀ s ∈ fieldTexts container, P s := by
  have hd : (∀ s ∈ fieldTexts (dependsOnField lastStep), P s) ↔
      (lastStep ≠ [] → P lastStep ∧ P "Complete".toList) := by
    unfold dependsOnField
    by_cases h : lastStep = []
    case pos => simp [h, fieldTexts]
    case neg => simp [h, field, fieldTexts, Node.texts, itemTexts]
  rw [jobNode, Node.texts, fieldTexts_append, fieldTexts_append, List.forall_mem_append,
    List.forall_mem_append, hd]
  simp only [templateField, field, fieldTexts, itemTexts, Node.texts, List.append_nil,
    List.forall_mem_append, List.forall_mem_singleton, and_assoc]

theorem isWord_text (t : PreJobType) : IsWord t.text := by
  cases t <;> decide

theorem preJobNodes_last (ht : ∀ t : PreJobType, P t.text) {ps : List PreJob}
    (hn : ∀ p ∈ ps, ∃ t : PreJobType, p.name = t.text) {lastStep : Text} (hl : lastStep ≠ [] → P lastStep)
    (h : (preJobNodes lastStep ps).2 ≠ []) : P (preJobNodes lastStep ps).2 := by
  induction ps generalizing lastStep
  case nil          => exact hl h
  case cons p ps hi =>
    have ⟨t, hname⟩ := hn p (.head _)
    exact hi (fun p hp => hn p (.tail _ hp)) (fun _ => hname ▸ ht t) h

theorem preJobNodes_texts (hw : ∀ s, IsWord s → P s) {ps : List PreJob}
    (hp : ∀ p ∈ ps, (∃ t : PreJobType, p.name = t.text) ∧ p.image ≠ []) {lastStep : Text}
    (hl : lastStep ≠ [] → IsWord lastStep) :
    (∀ s ∈ itemTexts (preJobNodes lastStep ps).1, P s) ↔
      ∀ p ∈ ps, Contents P p.image p.command p.args p.env := by
  induction ps generalizing lastStep
  case nil          => exact ⟨fun _ => List.forall_mem_nil _, fun _ => List.forall_mem_nil _⟩
  case cons p ps hi =>
    have ⟨⟨t, ht⟩, himg⟩ := hp p (.head _)
    have hname : P p.name := hw _ (ht ▸ isWord_text t)
    have hdep : lastStep ≠ [] → P lastStep ∧ P "Complete".toList :=
      fun h => ⟨hw _ (hl h), hw _ (by decide)⟩
    rw [preJobNodes, itemTexts, List.forall_mem_append, jobNode_texts, containerFields_texts himg,
      hi (fun p hm => hp p (.tail _ hm)) (fun _ => ht ▸ isWord_text t), List.forall_mem_cons]
    exact and_congr_left' ⟨fun h => h.right.right.right.right, fun h => ⟨hname, hdep, hname, hname, h⟩⟩

theorem bare_iff : (∀ s ∈ req.bare, P s) ↔
    (∀ c ∈ req.containers, Contents P c.image c.command c.args c.env) ∧
      ∀ s ∈ req.quantityTexts, needsQuotes s = false → P s := by
  simp only [RuntimePayload.bare, RuntimePayload.quotable, Contents, List.forall_mem_append,
    List.forall_mem_filter, List.forall_mem_flatMap, List.forall_mem_cons, List.forall_mem_map,
    Bool.not_eq_true', forall_and]
  constructor
  case mp =>
    rintro ⟨⟨hi, hn⟩, ⟨⟨hc, ha⟩, he⟩, hq⟩
    exact ⟨⟨hi, hc, ha, hn, he⟩, hq⟩
  case mpr =>
    rintro ⟨⟨hi, hc, ha, hn, he⟩, hq⟩
    exact ⟨⟨hi, hn⟩, ⟨⟨hc, ha⟩, he⟩, hq⟩

theorem forall_unless {c : Prop} [Decidable c] (a b : Text) :
    (∀ s ∈ (if c then [] else [a, b]), P s) ↔ (¬c → P a) ∧ (¬c → P b) := by
  split
  case isTrue h  => simp [h]
  case isFalse h => simp [h]

theorem quantityTexts_iff : (∀ s ∈ req.quantityTexts, needsQuotes s = false → P s) ↔
    (("cpu".toList ∉ req.gpuKeys → needsQuotes req.cpuRequest = false → P req.cpuRequest) ∧
      ("memory".toList ∉ req.gpuKeys → needsQuotes req.memoryRequest = false → P req.memoryRequest)) ∧
    ("cpu".toList ∉ req.gpuKeys → needsQuotes (req.cpuLimit.getD req.cpuRequest) = false →
      P (req.cpuLimit.getD req.cpuRequest)) ∧
    ("memory".toList ∉ req.gpuKeys → needsQuotes (req.memoryLimit.getD req.memoryRequest) = false →
      P (req.memoryLimit.getD req.memoryRequest)) := by
  rw [RuntimePayload.quantityTexts, List.forall_mem_append, forall_unless, forall_unless]
  exact and_and_and_comm

theorem requests_eq (h : req.Valid) : req.requests = amounts req.cpuRequest req.memoryRequest req.gpuValues := by
  rw [RuntimePayload.requests, assignText_eq h.cpuRequest h.memoryRequest, amounts]

theorem limits_eq (h : req.Valid) : req.limits =
    amounts (req.cpuLimit.getD req.cpuRequest) (req.memoryLimit.getD req.memoryRequest) req.gpuValues := by
  rw [RuntimePayload.limits, assignText_eq (Valid.cpu h) (Valid.memory h), amounts]

-- The scalars of the runtime that are written as they are: the words of the builder, and what comes from the
-- form.
theorem specNode_texts (hw : ∀ s, IsWord s → P s) (h : req.Valid)
    (hn : ∃ n, req.nodes = .int n) (hg : ∀ e ∈ req.gpuValues, ∃ n, e.2 = .int n ∧ IsInt64 n) :
    (∀ s ∈ (specNode req).texts, P s) ↔ ∀ s ∈ req.bare, P s := by
  have ⟨n, hn⟩ := hn
  have hl : (preJobNodes [] req.preJobs).2 ≠ [] → P (preJobNodes [] req.preJobs).2 :=
    preJobNodes_last (fun t => hw _ (isWord_text t)) (fun p hp => (h.preJobs p hp).left)
      fun hne => absurd rfl hne
  have hr : (∀ s ∈ fieldTexts [resourcesField req.requests req.limits], P s) ↔
      ∀ s ∈ req.quantityTexts, needsQuotes s = false → P s := by
    rw [quantityTexts_iff, resourcesField, requests_eq h, limits_eq h]
    simp only [field, fieldTexts, Node.texts, List.append_nil, List.forall_mem_append]
    rw [amounts_texts hg, amounts_texts hg]
    rfl
  have hs : (specNode req).texts = itemTexts (jobNodes req) := by
    simp only [specNode, field, fieldTexts, Node.texts, hn, numberNode, List.append_nil, List.nil_append]
  rw [hs, jobNodes, itemTexts_append, List.forall_mem_append, preJobNodes_texts hw h.preJobs (by simp),
    itemTexts, itemTexts, List.append_nil, jobNode_texts, fieldTexts_append, List.forall_mem_append,
    containerFields_texts h.image, hr, bare_iff, RuntimePayload.containers, List.forall_mem_cons]
  have hnode : P "node".toList := hw _ (by decide)
  have htrainer : P "trainer".toList := hw _ (by decide)
  have hdep : (preJobNodes [] req.preJobs).2 ≠ [] →
      P (preJobNodes [] req.preJobs).2 ∧ P "Complete".toList :=
    fun hne => ⟨hl hne, hw _ (by decide)⟩
  constructor
  case mp =>
    rintro ⟨hp, _, _, _, ⟨_, hc⟩, hq⟩
    exact ⟨⟨hc, hp⟩, hq⟩
  case mpr =>
    rintro ⟨⟨hc, hp⟩, hq⟩
    exact ⟨hp, hnode, hdep, htrainer, ⟨hnode, hc⟩, hq⟩

end Texts

section Readability

variable {r : Resolver} {req : RuntimePayload} {fs gs : List (Text × Node)}

-- What `yamlQuote` makes of it can be read.
def Fits (s : Text) : Prop :=
  if needsQuotes s then s.all printable else IsPlain s

theorem leaf_readable {s : Text} (h : Fits s) : (leaf s).Readable r := by
  unfold Fits at h
  unfold leaf
  split at h
  case isTrue hq  => rw [if_pos hq]; exact h
  case isFalse hq => rw [if_neg hq]; exact h

theorem fieldsReadable_append :
    FieldsReadable r (fs ++ gs) ↔ FieldsReadable r fs ∧ FieldsReadable r gs := by
  induction fs
  case nil          => exact (and_iff_right trivial).symm
  case cons f fs hi => rw [List.cons_append, FieldsReadable, FieldsReadable, hi, and_assoc, and_assoc]

theorem itemsReadable_append {is js : List Node} :
    ItemsReadable r (is ++ js) ↔ ItemsReadable r is ∧ ItemsReadable r js := by
  induction is
  case nil          => exact (and_iff_right trivial).symm
  case cons v is hi => rw [List.cons_append, ItemsReadable, ItemsReadable, hi, and_assoc]

theorem itemsReadable_map {α : Type} {l : List α} {f : α → Node} (h : ∀ x ∈ l, (f x).Readable r) :
    ItemsReadable r (l.map f) := by
  induction l
  case nil         => trivial
  case cons x l hi => exact ⟨h x (.head _), hi fun x hx => h x (.tail _ hx)⟩

-- The keys that do not come from the form.
def fixedKeys : List String :=
  ["apiVersion", "kind", "metadata", "name", "namespace", "labels", "knaic.io/managed", "knaic.io/component",
    "knaic.io/framework", "spec", "mlPolicy", "numNodes", "torch", "deepspeed", "mpi", "tensorflow", "jax",
    "template", "replicatedJobs", "dependsOn", "status", "trainer.kubeflow.org/trainjob-ancestor-step",
    "containers", "image", "command", "args", "env", "value", "resources", "requests", "limits", "cpu", "memory"]

theorem fixedKeys_word : ∀ k ∈ fixedKeys, IsKey k.toList ∧ IsWord k.toList := by
  decide

theorem keys_fixed {k : String} (h : k ∈ fixedKeys) : r.Keys k.toList where
  isKey   := (fixedKeys_word k h).left
  resolve := r.word _ (fixedKeys_word k h).right

theorem listField_readable {k : String} {l : List Text} (hk : k ∈ fixedKeys) (h : ∀ s ∈ l, Fits s) :
    FieldsReadable r (listField k l) := by
  cases l
  case nil      => trivial
  case cons s l =>
    rw [listField, if_neg (List.cons_ne_nil _ _)]
    exact ⟨keys_fixed hk, ⟨List.cons_ne_nil _ _, itemsReadable_map fun s hs => leaf_readable (h s hs)⟩, trivial⟩

theorem pair_nodup : (["name".toList, "value".toList] : List Text).Nodup := by
  decide

theorem envField_readable {env : List EnvEntry} (h : ∀ e ∈ env, IsPlain e.name ∧ Fits e.value) :
    FieldsReadable r (envField env) := by
  have he : ∀ e ∈ env, (Node.map [field "name" (.plain e.name), field "value" (leaf e.value)]).Readable r :=
    fun e he => ⟨List.cons_ne_nil _ _, pair_nodup, keys_fixed (by decide), (h e he).left,
      keys_fixed (by decide), leaf_readable (h e he).right, trivial⟩
  cases env
  case nil        => trivial
  case cons e env =>
    rw [envField, if_neg (List.cons_ne_nil _ _)]
    exact ⟨keys_fixed (by decide), ⟨List.cons_ne_nil _ _, itemsReadable_map he⟩, trivial⟩

theorem listField_keys (k : String) (l : List Text) :
    ((listField k l).map Prod.fst).Sublist [k.toList] := by
  unfold listField
  split
  case isTrue  => exact List.nil_sublist _
  case isFalse => exact List.Sublist.refl _

theorem envField_keys (env : List EnvEntry) : ((envField env).map Prod.fst).Sublist ["env".toList] := by
  unfold envField
  split
  case isTrue  => exact List.nil_sublist _
  case isFalse => exact List.Sublist.refl _

theorem containerFields_keys (name image : Text) (command args : List Text) (env : List EnvEntry) :
    ((containerFields name image command args env).map Prod.fst).Sublist
      (["name", "image", "command", "args", "env"].map String.toList) := by
  rw [containerFields, List.map_append, List.map_append, List.map_append]
  exact (((List.Sublist.refl _).append (listField_keys "command" command)).append
    (listField_keys "args" args)).append (envField_keys env)

-- What a container needs to be readable, apart from its name.
structure Fitting (image : Text) (command args : List Text) (env : List EnvEntry) : Prop where
  image   : IsPlain image
  command : ∀ s ∈ command, Fits s
  args    : ∀ s ∈ args, Fits s
  env     : ∀ e ∈ env, IsPlain e.name ∧ Fits e.value

variable {name image lastStep step : Text} {command args : List Text} {env : List EnvEntry}

theorem containerFields_readable (hn : IsPlain name) (h : Fitting image command args env) :
    FieldsReadable r (containerFields name image command args env) := by
  have hi : IsPlain (if image = [] then "<image>".toList else image) := by
    split
    case isTrue he => rw [he] at h; cases h.image
    case isFalse   => exact h.image
  rw [containerFields, fieldsReadable_append, fieldsReadable_append, fieldsReadable_append]
  refine ⟨⟨⟨?_, listField_readable (by decide) h.command⟩, listField_readable (by decide) h.args⟩,
    envField_readable h.env⟩
  exact ⟨keys_fixed (by decide), hn, keys_fixed (by decide), hi, trivial⟩

theorem containerKeys_nodup :
    (["name", "image", "command", "args", "env", "resources"].map String.toList).Nodup := by
  decide

theorem container_readable (hn : IsPlain name) (h : Fitting image command args env) :
    (Node.map (containerFields name image command args env)).Readable r := by
  refine ⟨List.cons_ne_nil _ _, ?_, containerFields_readable hn h⟩
  exact ((containerFields_keys name image command args env).trans
    (List.sublist_append_left _ ["resources".toList])).nodup containerKeys_nodup

theorem jobKeys_nodup : (["name", "dependsOn", "template"].map String.toList).Nodup := by
  decide

theorem singleton_readable {k : String} {v : Node} (hk : k ∈ fixedKeys) (h : v.Readable r) :
    (Node.map [field k v]).Readable r :=
  ⟨List.cons_ne_nil _ _, List.nodup_singleton _, keys_fixed hk, h, trivial⟩

theorem dependsOnField_keys (lastStep : Text) :
    ((dependsOnField lastStep).map Prod.fst).Sublist ["dependsOn".toList] := by
  unfold dependsOnField
  split
  case isTrue  => exact List.nil_sublist _
  case isFalse => exact List.Sublist.refl _

theorem dependsOnField_readable (hl : lastStep ≠ [] → IsPlain lastStep) :
    FieldsReadable r (dependsOnField lastStep) := by
  unfold dependsOnField
  split
  case isTrue    => trivial
  case isFalse h =>
    have hd : (["name".toList, "status".toList] : List Text).Nodup := by decide
    have hs : IsPlain "Complete".toList := by decide
    have hj : (Node.map [field "name" (.plain lastStep), field "status" (.plain "Complete".toList)]).Readable r :=
      ⟨List.cons_ne_nil _ _, hd, keys_fixed (by decide), hl h, keys_fixed (by decide), hs, trivial⟩
    exact ⟨keys_fixed (by decide), ⟨List.cons_ne_nil _ _, hj, trivial⟩, trivial⟩

theorem templateField_readable {container : List (Text × Node)} (hs : IsPlain step)
    (hc : (Node.map container).Readable r) : FieldsReadable r [templateField step container] := by
  have hd : (["metadata".toList, "spec".toList] : List Text).Nodup := by decide
  have hm : (Node.map [field "labels" (.map [
      field "trainer.kubeflow.org/trainjob-ancestor-step" (.plain step)])]).Readable r :=
    singleton_readable (by decide) (singleton_readable (by decide) hs)
  have hp : (Node.map [field "template" (.map [
      field "spec" (.map [field "containers" (.seq [.map container])])])]).Readable r :=
    singleton_readable (by decide) (singleton_readable (by decide)
      (singleton_readable (by decide) ⟨List.cons_ne_nil _ _, hc, trivial⟩))
  exact ⟨keys_fixed (by decide), ⟨List.cons_ne_nil _ _, hd, keys_fixed (by decide), hm,
    keys_fixed (by decide), hp, trivial⟩, trivial⟩

theorem jobNode_readable {container : List (Text × Node)} (hn : IsPlain name)
    (hl : lastStep ≠ [] → IsPlain lastStep) (hs : IsPlain step)
    (hc : (Node.map container).Readable r) : (jobNode lastStep name step container).Readable r := by
  refine ⟨List.cons_ne_nil _ _, ?_, ?_⟩
  · rw [List.map_append, List.map_append]
    have hsub := ((List.Sublist.refl ["name".toList]).append (dependsOnField_keys lastStep)).append
      (List.Sublist.refl ["template".toList])
    exact hsub.nodup jobKeys_nodup
  · rw [fieldsReadable_append, fieldsReadable_append]
    exact ⟨⟨⟨keys_fixed (by decide), hn, trivial⟩, dependsOnField_readable hl⟩, templateField_readable hs hc⟩

theorem isPlain_text (t : PreJobType) : IsPlain t.text := by
  cases t <;> decide

theorem preJobNodes_readable {ps : List PreJob} (hn : ∀ p ∈ ps, ∃ t : PreJobType, p.name = t.text)
    (hp : ∀ p ∈ ps, Fitting p.image p.command p.args p.env) {lastStep : Text}
    (hl : lastStep ≠ [] → IsPlain lastStep) : ItemsReadable r (preJobNodes lastStep ps).1 := by
  induction ps generalizing lastStep
  case nil          => trivial
  case cons p ps hi =>
    have ⟨t, ht⟩ := hn p (.head _)
    have hname : IsPlain p.name := ht ▸ isPlain_text t
    exact ⟨jobNode_readable hname hl hname (container_readable hname (hp p (.head _))),
      hi (fun p hm => hn p (.tail _ hm)) (fun p hm => hp p (.tail _ hm)) fun _ => hname⟩

theorem quantityNode_readable {q : Quantity} (hs : ∀ s, q = .text s → Fits s)
    (hx : ∀ x, q = .number x → ∃ n, x = .int n ∧ IsInt64 n) : (quantityNode q).Readable r := by
  cases q
  case text s   => exact leaf_readable (hs s rfl)
  case number x =>
    have ⟨n, hn, hi⟩ := hx x rfl
    subst hn
    exact hi

theorem amounts_nodup (cpu memory : Text) (gpuValues : List (Text × Number)) :
    ((amounts cpu memory gpuValues).map Prod.fst).Nodup := by
  have hd : (([("cpu".toList, .text cpu), ("memory".toList, .text memory)] : Quantities).map
      Prod.fst).Nodup :=
    (by decide : (["cpu".toList, "memory".toList] : List Text).Nodup)
  exact assignAll_nodup hd gpuValues

theorem assign_ne_nil {l : Quantities} (hl : l ≠ []) (k : Text) (q : Quantity) : assign l k q ≠ [] := by
  unfold assign
  split
  case isTrue  => exact fun h => hl (List.map_eq_nil_iff.mp h)
  case isFalse => exact fun h => hl (List.append_eq_nil_iff.mp h).left

theorem assignAll_ne_nil {l : Quantities} (hl : l ≠ []) (gpuValues : List (Text × Number)) :
    assignAll l gpuValues ≠ [] := by
  induction gpuValues generalizing l
  case nil         => exact hl
  case cons e _ hi => exact hi (assign_ne_nil hl _ _)

theorem quantitiesNode_readable {l : Quantities} (hl : l ≠ []) (hd : (l.map Prod.fst).Nodup)
    (h : ∀ e ∈ l, r.Keys e.1 ∧ (quantityNode e.2).Readable r) : (quantitiesNode l).Readable r := by
  refine ⟨fun he => hl (List.map_eq_nil_iff.mp he), ?keys, ?fields⟩
  case keys =>
    rw [List.map_map]
    exact hd
  case fields =>
    clear hl hd
    induction l
    case nil         => trivial
    case cons e l hi =>
      have he := h e (.head _)
      exact ⟨he.left, he.right, hi fun e hm => h e (.tail _ hm)⟩

theorem amounts_readable {cpu memory : Text} {gpuValues : List (Text × Number)}
    (hk : ∀ k ∈ gpuValues.map Prod.fst, r.Keys k)
    (hg : ∀ e ∈ gpuValues, ∃ n, e.2 = .int n ∧ IsInt64 n)
    (hc : "cpu".toList ∉ gpuValues.map Prod.fst → Fits cpu)
    (hm : "memory".toList ∉ gpuValues.map Prod.fst → Fits memory) :
    (quantitiesNode (amounts cpu memory gpuValues)).Readable r := by
  apply quantitiesNode_readable (assignAll_ne_nil (List.cons_ne_nil _ _) _) (amounts_nodup _ _ _)
  intro e he
  have hkey : r.Keys e.1 := by
    cases mem_assignAll he
    case inl he =>
      cases List.mem_pair.mp he
      case inl he => exact he ▸ keys_fixed (by decide)
      case inr he => exact he ▸ keys_fixed (by decide)
    case inr he =>
      have ⟨g, hgm, he⟩ := he
      exact he ▸ hk _ (List.mem_map_of_mem hgm)
  refine ⟨hkey, quantityNode_readable ?texts (amounts_int hg e he)⟩
  case texts =>
    intro s hs
    have hms : (e.1, Quantity.text s) ∈ amounts cpu memory gpuValues := hs ▸ he
    have ⟨hb, hn⟩ := (mem_assignAll_text _ _).mp hms
    cases List.mem_pair.mp hb
    case inl hb =>
      have hek : e.1 = "cpu".toList := congrArg Prod.fst hb
      exact Quantity.text.inj (congrArg Prod.snd hb) ▸ hc (hek ▸ hn)
    case inr hb =>
      have hek : e.1 = "memory".toList := congrArg Prod.fst hb
      exact Quantity.text.inj (congrArg Prod.snd hb) ▸ hm (hek ▸ hn)

theorem Legible.fits {ns : Text} (h : Legible r ns req) : ∀ s ∈ req.quotable, Fits s := by
  intro s hs
  unfold Fits
  split
  case isTrue hq  => exact h.quoted s (List.mem_filter.mpr ⟨hs, hq⟩)
  case isFalse hq =>
    have hq : (!needsQuotes s) = true := by simp [hq]
    exact h.bare s (List.mem_append_right _ (List.mem_filter.mpr ⟨hs, hq⟩))

theorem Legible.fitting {ns : Text} (h : Legible r ns req) :
    ∀ c ∈ req.containers, Fitting c.image c.command c.args c.env := by
  intro c hc
  have hb := fun s hs => h.bare s (List.mem_append_left _ (List.mem_flatMap.mpr ⟨c, hc, hs⟩))
  have hf := fun s hs => h.fits s (List.mem_append_left _ (List.mem_flatMap.mpr ⟨c, hc, hs⟩))
  constructor
  case image   => exact hb _ (.head _)
  case command => exact fun s hs => hf s (List.mem_append_left _ (List.mem_append_left _ hs))
  case args    => exact fun s hs => hf s (List.mem_append_left _ (List.mem_append_right _ hs))
  case env     =>
    exact fun e he => ⟨hb _ (.tail _ (List.mem_map_of_mem he)),
      hf _ (List.mem_append_right _ (List.mem_map_of_mem he))⟩

theorem Legible.amounts {ns : Text} (h : Legible r ns req) :
    ("cpu".toList ∉ req.gpuKeys → Fits req.cpuRequest ∧ Fits (req.cpuLimit.getD req.cpuRequest)) ∧
      ("memory".toList ∉ req.gpuKeys →
        Fits req.memoryRequest ∧ Fits (req.memoryLimit.getD req.memoryRequest)) := by
  have hf := fun s hs => h.fits s (List.mem_append_right _ hs)
  constructor
  case left =>
    intro hc
    have hq := fun s hs => hf s (List.mem_append_left _ ((if_neg hc).symm ▸ hs))
    exact ⟨hq _ (.head _), hq _ (.tail _ (.head _))⟩
  case right =>
    intro hm
    have hq := fun s hs => hf s (List.mem_append_right _ ((if_neg hm).symm ▸ hs))
    exact ⟨hq _ (.head _), hq _ (.tail _ (.head _))⟩

section Whole

variable {ns : Text}

theorem jobNodes_readable (h : req.Valid) (hl : Legible r ns req)
    (hg : ∀ e ∈ req.gpuValues, ∃ n, e.2 = .int n ∧ IsInt64 n) : ItemsReadable r (jobNodes req) := by
  have hf := List.forall_mem_cons.mp hl.fitting
  have hnode : IsPlain "node".toList := by decide
  have htrainer : IsPlain "trainer".toList := by decide
  have hname : ∀ p ∈ req.preJobs, ∃ t : PreJobType, p.name = t.text := fun p hp => (h.preJobs p hp).left
  have hnil : ([] : Text) ≠ [] → IsPlain [] := fun hne => absurd rfl hne
  have hr : (resourcesField req.requests req.limits).2.Readable r := by
    have hd : (["requests".toList, "limits".toList] : List Text).Nodup := by decide
    rw [requests_eq h, limits_eq h]
    refine ⟨List.cons_ne_nil _ _, hd, keys_fixed (by decide), ?_, keys_fixed (by decide), ?_, trivial⟩
    · exact amounts_readable hl.gpuKeys hg (fun hk => (hl.amounts.left hk).left)
        fun hk => (hl.amounts.right hk).left
    · exact amounts_readable hl.gpuKeys hg (fun hk => (hl.amounts.left hk).right)
        fun hk => (hl.amounts.right hk).right
  have hc : (Node.map (containerFields "node".toList req.image req.command req.args req.env ++
      [resourcesField req.requests req.limits])).Readable r := by
    refine ⟨List.cons_ne_nil _ _, ?_, fieldsReadable_append.mpr
      ⟨containerFields_readable hnode hf.left, keys_fixed (by decide), hr, trivial⟩⟩
    rw [List.map_append]
    exact ((containerFields_keys _ _ _ _ _).append (List.Sublist.refl ["resources".toList])).nodup
      containerKeys_nodup
  rw [jobNodes, itemsReadable_append]
  refine ⟨preJobNodes_readable hname hf.right hnil, ?_, trivial⟩
  exact jobNode_readable hnode (preJobNodes_last (P := fun s => IsPlain s) isPlain_text hname hnil) htrainer hc

theorem framework_mem (h : req.Valid) : ∃ s ∈ fixedKeys, frameworkOrTorch req = s.toList := by
  have hf : ∀ s ∈ frameworks, ∃ k ∈ fixedKeys, s = k.toList := by decide
  rw [frameworkOrTorch_eq h]
  exact hf _ h.framework

theorem specNode_readable (h : req.Valid) (hl : Legible r ns req)
    (hn : ∃ n, req.nodes = .int n ∧ IsInt64 n)
    (hg : ∀ e ∈ req.gpuValues, ∃ n, e.2 = .int n ∧ IsInt64 n) : (specNode req).Readable r := by
  have ⟨n, hn, hi⟩ := hn
  have ⟨f, hf, hfe⟩ := framework_mem h
  have hd : (["mlPolicy".toList, "template".toList] : List Text).Nodup := by decide
  have hp : (["numNodes".toList, frameworkOrTorch req] : List Text).Nodup := by
    have hf : ∀ s ∈ frameworks, (["numNodes".toList, s] : List Text).Nodup := by decide
    rw [frameworkOrTorch_eq h]
    exact hf _ h.framework
  have hm : (Node.map [field "numNodes" (numberNode req.nodes), (frameworkOrTorch req, .emptyMap)]).Readable r := by
    rw [hn]
    exact ⟨List.cons_ne_nil _ _, hp, keys_fixed (by decide), hi, hfe ▸ keys_fixed hf, trivial, trivial⟩
  have hj : (jobNodes req) ≠ [] := List.append_ne_nil_of_right_ne_nil _ (List.cons_ne_nil _ _)
  exact ⟨List.cons_ne_nil _ _, hd, keys_fixed (by decide), hm, keys_fixed (by decide),
    singleton_readable (by decide) (singleton_readable (by decide) ⟨hj, jobNodes_readable h hl hg⟩), trivial⟩

theorem labelsNode_readable (h : req.Valid) : (labelsNode req).Readable r := by
  have hd : (["knaic.io/managed".toList, "knaic.io/component".toList, "knaic.io/framework".toList] :
      List Text).Nodup := by
    decide
  have hf : IsPlain (frameworkOrTorch req) := by
    have hf : ∀ s ∈ frameworks, IsPlain s := by decide
    exact frameworkOrTorch_eq h ▸ hf _ h.framework
  have ht : "true".toList.all printable := by decide
  have hc : IsPlain "training".toList := by decide
  exact ⟨List.cons_ne_nil _ _, hd, keys_fixed (by decide), ht, keys_fixed (by decide), hc,
    keys_fixed (by decide), hf, trivial⟩

theorem metadata_readable (h : req.Valid) (hl : Legible r ns req) : (metadataNode req ns).Readable r := by
  have hs : ((namespaceField req ns).map Prod.fst).Sublist ["namespace".toList] := by
    unfold namespaceField
    split
    case isTrue  => exact List.nil_sublist _
    case isFalse => exact List.Sublist.refl _
  have hn : FieldsReadable r (namespaceField req ns) := by
    unfold namespaceField
    split
    case isTrue     => trivial
    case isFalse hc => exact ⟨keys_fixed (by decide), hl.cluster.resolve_left hc, trivial⟩
  have hd : (["name", "namespace", "labels"].map String.toList).Nodup := by decide
  have hname : IsPlain (if req.name = [] then "<name>".toList else req.name) := by
    rw [if_neg h.name]
    exact hl.name
  refine ⟨List.cons_ne_nil _ _, ?keys, ?fields⟩
  case keys =>
    rw [List.map_append, List.map_append]
    exact (((List.Sublist.refl ["name".toList]).append hs).append
      (List.Sublist.refl ["labels".toList])).nodup hd
  case fields =>
    rw [fieldsReadable_append, fieldsReadable_append]
    exact ⟨⟨⟨keys_fixed (by decide), hname, trivial⟩, hn⟩, keys_fixed (by decide), labelsNode_readable h, trivial⟩

theorem runtimeNode_readable (h : req.Valid) (hl : Legible r ns req)
    (hn : ∃ n, req.nodes = .int n ∧ IsInt64 n)
    (hg : ∀ e ∈ req.gpuValues, ∃ n, e.2 = .int n ∧ IsInt64 n) : (runtimeNode req ns).Readable r := by
  have hd : (["apiVersion", "kind", "metadata", "spec"].map String.toList).Nodup := by decide
  have ha : IsPlain "trainer.kubeflow.org/v1alpha1".toList := by decide
  have hk : IsPlain (if req.cluster then "ClusterTrainingRuntime" else "TrainingRuntime").toList := by
    cases req.cluster <;> decide
  exact ⟨List.cons_ne_nil _ _, hd, keys_fixed (by decide), ha, keys_fixed (by decide), hk,
    keys_fixed (by decide), metadata_readable h hl, keys_fixed (by decide), specNode_readable h hl hn hg, trivial⟩

end Whole

end Readability

end Training
