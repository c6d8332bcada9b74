import Knaic.Training.Document

open Go Kube Yaml
open Inference (quantities setIf)
open Js (utf8)

namespace Training

section Quantities

variable {l : Quantities} {k : Text} {q : Quantity}

def entries (l : Quantities) : Fields :=
  l.map fun e => (utf8 e.1, quantityValue e.2)

theorem quantitiesValue_eq (l : Quantities) : quantitiesValue l = .obj (Entries.setAll [] (entries l)) := by
  rw [quantitiesValue, Entries.setAll, entries, List.foldl_map]

theorem entries_nodup (hd : (l.map Prod.fst).Nodup) : ((entries l).map Prod.fst).Nodup := by
  rw [entries, List.map_map]
  have hm : l.map (Prod.fst ∘ fun e => (utf8 e.1, quantityValue e.2)) = (l.map Prod.fst).map utf8 := by
    rw [List.map_map]
    rfl
  rw [hm]
  exact hd.map fun _ _ => utf8_inj.mp

theorem get_entries_of_notMem (h : k ∉ l.map Prod.fst) : (entries l).get (utf8 k) = none := by
  cases hg : (entries l).get (utf8 k)
  case none   => rfl
  case some v =>
    have ⟨e, he, hv⟩ := List.mem_map.mp (Entries.mem_of_get hg)
    have hk : e.1 = k := utf8_inj.mp (Prod.ext_iff.mp hv).left
    exact absurd (hk ▸ List.mem_map_of_mem he) h

theorem keys_replace (l : Quantities) (k : Text) (q : Quantity) :
    (l.map fun e => if e.1 = k then (k, q) else e).map Prod.fst = l.map Prod.fst := by
  rw [List.map_map]
  apply List.map_congr_left
  intro e _
  simp only [Function.comp_apply]
  split
  case isTrue h  => exact h.symm
  case isFalse h => rfl

theorem assign_nodup (hd : (l.map Prod.fst).Nodup) (k : Text) (q : Quantity) :
    ((assign l k q).map Prod.fst).Nodup := by
  unfold assign
  split
  case isTrue    => rwa [keys_replace]
  case isFalse h =>
    rw [List.map_append, List.map_singleton]
    apply List.nodup_append.mpr
    refine ⟨hd, List.nodup_singleton _, ?_⟩
    intro a ha b hb hab
    have hk : b = k := List.mem_singleton.mp hb
    exact h (hk ▸ hab ▸ ha)

theorem get_replace (l : Quantities) (k : Text) (q : Quantity) (k' : Str) :
    (entries (l.map fun e => if e.1 = k then (k, q) else e)).get k' =
      if k' = utf8 k ∧ k ∈ l.map Prod.fst then some (quantityValue q) else (entries l).get k' := by
  induction l
  case nil         => simp [entries]
  case cons e l hi =>
    simp only [entries, List.map_cons, Entries.get_cons] at hi ⊢
    rw [hi]
    by_cases he : e.1 = k
    case pos =>
      by_cases hk : k' = utf8 k
      case pos => simp [he, hk]
      case neg => simp [he, hk, Ne.symm hk]
    case neg =>
      by_cases hk : k' = utf8 k
      case pos =>
        subst hk
        simp only [he, if_false, true_and, List.mem_cons, Ne.symm he, false_or, utf8_inj]
      case neg => simp [he, hk]

theorem get_assign (l : Quantities) (k : Text) (q : Quantity) (k' : Str) :
    (entries (assign l k q)).get k' =
      if k' = utf8 k then some (quantityValue q) else (entries l).get k' := by
  unfold assign
  split
  case isTrue h  => rw [get_replace]; simp [h]
  case isFalse h =>
    simp only [entries, List.map_append, List.map_singleton, Entries.get, List.find?_append]
    by_cases hk : k' = utf8 k
    case neg => simp [hk, Ne.symm hk]
    case pos =>
      have hn := get_entries_of_notMem h
      rw [entries, Entries.get, Option.map_eq_none_iff] at hn
      simp [hk, hn]

-- Setting an entry of the record sets it in what is sent.
theorem setAll_assign (hd : (l.map Prod.fst).Nodup) (k : Text) (q : Quantity) :
    Entries.setAll [] (entries (assign l k q)) =
      (Entries.setAll [] (entries l)).set (utf8 k) (quantityValue q) := by
  apply Entries.Sorted.ext (Entries.Sorted.nil.setAll _) ((Entries.Sorted.nil.setAll _).set _ _)
  intro k'
  rw [Entries.get_set, Entries.get_setAll_nodup (entries_nodup (assign_nodup hd k q)),
    Entries.get_setAll_nodup (entries_nodup hd), get_assign]
  split <;> rfl

def numbers (f : Number → Value) (gpuValues : List (Text × Number)) : Fields :=
  gpuValues.map fun e => (utf8 e.1, f e.2)

theorem assignAll_nodup (hd : (l.map Prod.fst).Nodup) (gpuValues : List (Text × Number)) :
    ((assignAll l gpuValues).map Prod.fst).Nodup := by
  induction gpuValues generalizing l
  case nil         => exact hd
  case cons e _ hi => exact hi (assign_nodup hd e.1 (.number e.2))

theorem setAll_assignAll (hd : (l.map Prod.fst).Nodup) (gpuValues : List (Text × Number)) :
    Entries.setAll [] (entries (assignAll l gpuValues)) =
      Entries.setAll (Entries.setAll [] (entries l)) (numbers numberValue gpuValues) := by
  induction gpuValues generalizing l
  case nil                 => rfl
  case cons e gpuValues hi =>
    have h := hi (assign_nodup hd e.1 (.number e.2))
    rw [setAll_assign hd] at h
    exact h

-- The quantities of cpu and memory.
def computing (cpu memory : Text) : Fields :=
  Entries.set (Entries.set [] (str "cpu") (text cpu)) (str "memory") (text memory)

theorem setAll_quantities {cpu memory : Text} (hc : cpu ≠ []) (hm : memory ≠ [])
    (gpuValues : List (Text × Number)) :
    Entries.setAll [] (entries (assignAll (assignText (assignText [] "cpu" cpu) "memory" memory) gpuValues)) =
      Entries.setAll (computing cpu memory) (numbers numberValue gpuValues) := by
  have hd : (([] : Quantities).map Prod.fst).Nodup := List.nodup_nil
  have hd' := assign_nodup hd "cpu".toList (.text cpu)
  rw [assignText, if_pos hm, assignText, if_pos hc, setAll_assignAll (assign_nodup hd' _ _),
    setAll_assign hd', setAll_assign hd]
  rfl

-- A number as the server has it.
def decodedValue : Number → Value
  | .null => .int 0
  | n     => numberValue n

theorem decodeGPUValues_eq {o gv : Entries Int} {gpuValues : List (Text × Number)}
    (h : decodeGPUValues o gpuValues = some gv) : (gv.map fun e => (e.1, Value.int e.2)) =
      Entries.setAll (o.map fun e => (e.1, .int e.2)) (numbers decodedValue gpuValues) := by
  induction gpuValues generalizing o
  case nil                 => rw [Option.some.inj h]; rfl
  case cons e gpuValues hi =>
    have ⟨n, hn, h⟩ := Option.bind_eq_some_iff.mp h
    have hv : decodedValue e.2 = .int n := by
      unfold decodeNumber at hn
      split at hn
      case h_1 he => rw [he, ← Option.some.inj hn]; rfl
      case h_2 he =>
        split at hn
        case isTrue  => rw [he, ← Option.some.inj hn]; rfl
        case isFalse => cases hn
      case h_3 => cases hn
    rw [hi h, Entries.map_set, ← hv]
    rfl

theorem quantities_decoded {cpu memory : Text} (hc : cpu ≠ []) (hm : memory ≠ []) {gv : Entries Int}
    {gpuValues : List (Text × Number)} (h : decodeGPUValues [] gpuValues = some gv) :
    quantities (utf8 cpu) (utf8 memory) gv =
      Entries.setAll (computing cpu memory) (numbers decodedValue gpuValues) := by
  have hn : ∀ {s : Text}, s ≠ [] → utf8 s ≠ [] := fun hs hu => hs (utf8_inj.mp hu)
  have hs : (computing cpu memory).Sorted := (Entries.Sorted.nil.set _ _).set _ _
  simp only [quantities, hn hc, hn hm, ne_eq, not_false_eq_true, if_true]
  rw [decodeGPUValues_eq h, List.map_nil]
  apply Entries.Sorted.ext (hs.setAll _) (hs.setAll _)
  intro k
  rw [Entries.get_setAll (Entries.Sorted.nil.setAll _), Entries.get_setAll_nil (computing cpu memory)]

end Quantities

theorem utf8_toList (s : String) : utf8 s.toList = str s :=
  rfl

section Values

variable {f : Text → Value} {o : Fields}

theorem leaf_value (s : Text) : (leaf s).value text = text s := by
  unfold leaf
  split <;> rfl

theorem listField_value (k : String) (l : List Text) :
    fieldValues text o (listField k l) = setIf (l ≠ []) o k (textList l) := by
  have hl : itemValues text (l.map leaf) = l.map text := by
    induction l
    case nil         => rfl
    case cons s l hi => rw [List.map_cons, itemValues, hi, leaf_value, List.map_cons]
  cases l
  case nil      => rfl
  case cons s l => exact congrArg (fun l => Entries.set o (str k) (.list l)) hl

theorem envField_value (env : List EnvEntry) :
    fieldValues text o (envField env) = setIf (env ≠ []) o "env" (envList env) := by
  have hl : itemValues text (env.map fun e =>
      .map [field "name" (.plain e.name), field "value" (leaf e.value)]) =
      env.map fun e => .obj (mapOf [("name", text e.name), ("value", text e.value)]) := by
    induction env
    case nil           => rfl
    case cons e env hi =>
      rw [List.map_cons, itemValues, hi, List.map_cons, Node.value]
      simp only [field, fieldValues, leaf_value, Node.value, utf8_toList, mapOf, List.foldl_cons,
        List.foldl_nil]
  cases env
  case nil        => rfl
  case cons e env => exact congrArg (fun l => Entries.set o (str "env") (.list l)) hl

theorem containerFields_value {name image : Text} (hi : image ≠ []) (command args : List Text)
    (env : List EnvEntry) : fieldValues text [] (containerFields name image command args env) =
      containerObject name image command args env := by
  rw [containerFields, fieldValues_append, fieldValues_append, fieldValues_append, envField_value,
    listField_value, listField_value, if_neg hi]
  simp only [field, fieldValues, Node.value, utf8_toList, containerObject, mapOf, List.foldl_cons,
    List.foldl_nil]

theorem dependsOnField_value (lastStep : Text) :
    fieldValues text o (dependsOnField lastStep) =
      setIf (lastStep ≠ []) o "dependsOn" (dependsOn (text lastStep)) := by
  unfold dependsOnField setIf
  by_cases h : lastStep = []
  case pos => simp only [h, if_true, fieldValues, ne_eq, not_true, decide_false, Bool.false_eq_true, if_false]
  case neg =>
    rw [if_neg h, if_pos (decide_eq_true h)]
    simp only [field, fieldValues, Node.value, itemValues, utf8_toList, dependsOn, mapOf, List.foldl_cons,
      List.foldl_nil]
    rfl

theorem templateField_value (step : Text) (container : List (Text × Node)) :
    fieldValues text o [templateField step container] = Entries.set o (str "template") (.obj (mapOf [
      ("metadata", .obj (mapOf [
        ("labels", .obj (mapOf [("trainer.kubeflow.org/trainjob-ancestor-step", text step)]))])),
      ("spec", .obj (mapOf [
        ("template", .obj (mapOf [
          ("spec", .obj (mapOf [("containers", .list [.obj (fieldValues text [] container)])]))]))]))])) := by
  simp only [templateField, field, fieldValues, Node.value, itemValues, utf8_toList, mapOf, List.foldl_cons,
    List.foldl_nil]

theorem jobNode_value (lastStep name step : Text) (container : List (Text × Node)) :
    (jobNode lastStep name step container).value text =
      .obj (setIf (lastStep ≠ []) (jobObject (text name) (text step) (fieldValues text [] container))
        "dependsOn" (dependsOn (text lastStep))) := by
  rw [jobNode, Node.value, fieldValues_append, fieldValues_append, dependsOnField_value, templateField_value]
  unfold setIf
  split
  case isTrue h  =>
    simp only [jobObject, field, fieldValues, Node.value, utf8_toList, mapOf, List.foldl_cons, List.foldl_nil]
    rw [Entries.Sorted.set_comm]
    · exact Entries.Sorted.nil.set _ _
    · exact fun h => absurd (str_inj.mp h) (by decide)
  case isFalse h => 
    simp only [jobObject, field, fieldValues, Node.value, utf8_toList, mapOf, List.foldl_cons, List.foldl_nil]

theorem preJobNodes_value {ps : List PreJob} (hp : ∀ p ∈ ps, p.image ≠ []) (lastStep : Text) :
    (itemValues text (preJobNodes lastStep ps).1, (preJobNodes lastStep ps).2) =
      preJobObjects lastStep ps := by
  induction ps generalizing lastStep
  case nil          => rfl
  case cons p ps hi =>
    rw [preJobObjects, ← hi (fun p hm => hp p (.tail _ hm)), preJobNodes, itemValues, jobNode_value,
      containerFields_value (hp p (.head _))]

theorem numberNode_value {x : Number} {n : Int} (h : x = .int n) :
    (numberNode x).value f = numberValue x := by
  subst h
  rfl

theorem quantitiesNode_value {l : Quantities} (h : ∀ e ∈ l, ∀ x, e.2 = .number x → ∃ n, x = .int n) :
    (quantitiesNode l).value text = quantitiesValue l := by
  have hv : ∀ q, (∀ x, q = .number x → ∃ n, x = .int n) → (quantityNode q).value text = quantityValue q := by
    intro q hq
    cases q
    case text s   => exact leaf_value s
    case number x =>
      have ⟨n, hn⟩ := hq x rfl
      exact numberNode_value hn
  rw [quantitiesNode, Node.value, quantitiesValue]
  apply congrArg Value.obj
  generalize ([] : Fields) = o
  induction l generalizing o
  case nil         => rfl
  case cons e l hi =>
    rw [List.map_cons, fieldValues, hv e.2 (h e (.head _)), hi fun e he => h e (.tail _ he)]
    rfl

theorem mem_assign {l : Quantities} {k : Text} {q : Quantity} {e : Text × Quantity}
    (h : e ∈ assign l k q) : e ∈ l ∨ e = (k, q) := by
  unfold assign at h
  split at h
  case isTrue =>
    have ⟨e', he, h⟩ := List.mem_map.mp h
    split at h
    case isTrue  => exact .inr h.symm
    case isFalse => exact .inl (h ▸ he)
  case isFalse => exact (List.mem_append.mp h).imp_right List.mem_singleton.mp

theorem mem_assignAll {l : Quantities} {gpuValues : List (Text × Number)} {e : Text × Quantity}
    (h : e ∈ assignAll l gpuValues) : e ∈ l ∨ ∃ g ∈ gpuValues, e = (g.1, .number g.2) := by
  induction gpuValues generalizing l
  case nil                 => exact .inl h
  case cons g gpuValues hi =>
    cases hi h
    case inr h => exact .inr (h.imp fun _ h => h.imp_left (.tail _))
    case inl h => exact (mem_assign h).imp_right fun h => ⟨g, .head _, h⟩

-- What the three builders make of the trainer and of the whole.
def trainerFields (req : RuntimePayload) (requests limits : Fields) : Fields :=
  Entries.set (containerObject "node".toList req.image req.command req.args req.env)
    (str "resources") (.obj (mapOf [("requests", .obj requests), ("limits", .obj limits)]))

def trainerObject (req : RuntimePayload) (requests limits : Fields) : Fields :=
  let lastStep := (preJobObjects [] req.preJobs).2
  setIf (lastStep ≠ []) (jobObject (.string (str "node")) (.string (str "trainer"))
    (trainerFields req requests limits)) "dependsOn" (dependsOn (text lastStep))

def specFields (req : RuntimePayload) (requests limits : Fields) : Fields :=
  mapOf [
    ("mlPolicy", .obj (Entries.set (mapOf [("numNodes", numberValue req.nodes)])
      (utf8 (frameworkOrTorch req)) (.obj []))),
    ("template", .obj (mapOf [
      ("spec", .obj (mapOf [
        ("replicatedJobs", .list (
          (preJobObjects [] req.preJobs).1 ++ [.obj (trainerObject req requests limits)]))]))]))]

def labelFields (req : RuntimePayload) : Fields :=
  mapOf [
    ("knaic.io/managed", .string (str "true")),
    ("knaic.io/component", .string (str "training")),
    ("knaic.io/framework", text (frameworkOrTorch req))]

theorem labelsNode_value (req : RuntimePayload) : (labelsNode req).value text = .obj (labelFields req) := by
  simp only [labelsNode, labelFields, field, fieldValues, Node.value, utf8_toList, mapOf, List.foldl_cons,
    List.foldl_nil]
  rfl

theorem specNode_value {req : RuntimePayload} {requests limits : Fields} (hi : req.image ≠ [])
    (hp : ∀ p ∈ req.preJobs, p.image ≠ []) {n : Int} (hn : req.nodes = .int n)
    (hr : (quantitiesNode req.requests).value text = .obj requests)
    (hl : (quantitiesNode req.limits).value text = .obj limits) :
    (specNode req).value text = .obj (specFields req requests limits) := by
  have hv : itemValues text (jobNodes req) =
      (preJobObjects [] req.preJobs).1 ++ [.obj (trainerObject req requests limits)] := by
    have hc : fieldValues text [] (containerFields "node".toList req.image req.command req.args req.env ++
        [resourcesField req.requests req.limits]) = trainerFields req requests limits := by
      rw [fieldValues_append, containerFields_value hi]
      simp only [resourcesField, trainerFields, field, fieldValues, Node.value, hr, hl, utf8_toList, mapOf,
        List.foldl_cons, List.foldl_nil]
    have hj := preJobNodes_value hp []
    rw [jobNodes, itemValues_append, itemValues, itemValues, jobNode_value, hc, trainerObject, ← hj]
    rfl
  simp only [specNode, specFields, field, fieldValues, Node.value, hv, numberNode_value hn, utf8_toList, mapOf,
    List.foldl_cons, List.foldl_nil]

end Values

section Browser

-- The form sees to these.
structure RuntimePayload.Valid (req : RuntimePayload) : Prop where
  framework     : req.framework ∈ frameworks
  name          : req.name ≠ []
  image         : req.image ≠ []
  cpuRequest    : req.cpuRequest ≠ []
  memoryRequest : req.memoryRequest ≠ []
  cpuLimit      : ∃ s, req.cpuLimit = some s ∧ s ≠ []
  memoryLimit   : ∃ s, req.memoryLimit = some s ∧ s ≠ []
  gpuValues     : (req.gpuValues.map Prod.fst).Nodup
  preJobs       : ∀ p ∈ req.preJobs, (∃ t : PreJobType, p.name = t.text) ∧ p.image ≠ []

theorem Submittable.valid {enabled : PreJobType → Bool} {v : RuntimeFormShape}
    (h : Submittable enabled v) : (collectPayload enabled v).Valid where
  framework     := h.framework
  name          := h.name
  image         := h.image
  cpuRequest    := h.cpuRequest
  memoryRequest := h.memoryRequest
  cpuLimit      := ⟨_, rfl, h.cpuLimit⟩
  memoryLimit   := ⟨_, rfl, h.memoryLimit⟩
  gpuValues     := by
    simp only [collectPayload]
    split
    case isTrue  => exact h.gpuKeys
    case isFalse => exact List.nodup_nil
  preJobs       := by
    intro p hp
    have ⟨t, ht, hp⟩ := List.mem_map.mp hp
    subst hp
    exact ⟨⟨t, rfl⟩, h.preJobs t (List.mem_filter.mp ht).right⟩

variable {req : RuntimePayload}

def requestFields (f : Number → Value) (req : RuntimePayload) : Fields :=
  Entries.setAll (computing req.cpuRequest req.memoryRequest) (numbers f req.gpuValues)

def limitFields (f : Number → Value) (req : RuntimePayload) : Fields :=
  Entries.setAll
    (computing (req.cpuLimit.getD req.cpuRequest) (req.memoryLimit.getD req.memoryRequest))
    (numbers f req.gpuValues)

theorem Valid.cpu (h : req.Valid) : req.cpuLimit.getD req.cpuRequest ≠ [] := by
  have ⟨s, hs, hne⟩ := h.cpuLimit
  rwa [hs]

theorem Valid.memory (h : req.Valid) : req.memoryLimit.getD req.memoryRequest ≠ [] := by
  have ⟨s, hs, hne⟩ := h.memoryLimit
  rwa [hs]

theorem requests_value (h : req.Valid) :
    quantitiesValue req.requests = .obj (requestFields numberValue req) := by
  rw [quantitiesValue_eq, RuntimePayload.requests, setAll_quantities h.cpuRequest h.memoryRequest]
  rfl

theorem limits_value (h : req.Valid) :
    quantitiesValue req.limits = .obj (limitFields numberValue req) := by
  rw [quantitiesValue_eq, RuntimePayload.limits, setAll_quantities (Valid.cpu h) (Valid.memory h)]
  rfl

def labelsOf (o : Fields) : Option Value :=
  o.nestedField [str "metadata", str "labels"]

def specOf (o : Fields) : Option Value :=
  o.get (str "spec")

theorem specOf_object (a b c d : Value) :
    specOf (mapOf [("apiVersion", a), ("kind", b), ("metadata", c), ("spec", d)]) = some d := by
  simp [specOf, mapOf]

theorem labelsOf_object {m : Fields} {v : Value} (h : m.get (str "labels") = some v) (a b d : Value) :
    labelsOf (mapOf [("apiVersion", a), ("kind", b), ("metadata", .obj m), ("spec", d)]) = some v := by
  simp [labelsOf, mapOf, Entries.get_set, h]

theorem framework_ne_nil (h : req.Valid) : req.framework ≠ [] := by
  have hf : ∀ s ∈ frameworks, s ≠ [] := by decide
  exact hf _ h.framework

theorem frameworkOrTorch_eq (h : req.Valid) : frameworkOrTorch req = req.framework :=
  if_neg (framework_ne_nil h)

theorem trainingRuntimeObject_labels (h : req.Valid) :
    labelsOf (trainingRuntimeObject req) = some (.obj (labelFields req)) := by
  rw [labelFields, frameworkOrTorch_eq h]
  exact labelsOf_object (Entries.get_set_self _ _ _) _ _ _

theorem trainingRuntimeObject_spec (h : req.Valid) : specOf (trainingRuntimeObject req) =
    some (.obj (specFields req (requestFields numberValue req) (limitFields numberValue req))) := by
  rw [trainingRuntimeObject, specOf_object, requests_value h, limits_value h]
  rfl

end Browser

section Server

variable {req : RuntimePayload} {r : CreateRuntimeRequest}

theorem decodeRuntime_eq (h : decodeRuntime req = some r) :
    ∃ n gv, decodeNumber req.numNodes = some n ∧ decodeGPUValues [] req.gpuValues = some gv ∧ r = {
      name          := utf8 req.name
      framework     := utf8 req.framework
      image         := utf8 req.image
      numNodes      := n
      command       := req.command.map utf8
      args          := req.args.map utf8
      env           := decodeEnv req.env
      cpuRequest    := utf8 req.cpuRequest
      cpuLimit      := utf8 (req.cpuLimit.getD [])
      memoryRequest := utf8 req.memoryRequest
      memoryLimit   := utf8 (req.memoryLimit.getD [])
      gpuValues     := gv
      preJobs       := req.preJobs.map fun p =>
        ⟨utf8 p.name, utf8 p.image, p.command.map utf8, p.args.map utf8, decodeEnv p.env⟩ } := by
  have ⟨n, hn, h⟩ := Option.bind_eq_some_iff.mp h
  have ⟨gv, hg, h⟩ := Option.bind_eq_some_iff.mp h
  exact ⟨n, gv, hn, hg, (Option.some.inj h).symm⟩

theorem container_decoded (name image : Text) (command args : List Text) (env : List EnvEntry) :
    container (utf8 name) (utf8 image) (command.map utf8) (args.map utf8) (decodeEnv env) =
      containerObject name image command args env := by
  have hl : ∀ l : List Text, Value.list (toAnySlice (l.map utf8)) = textList l := by
    intro l
    rw [toAnySlice, List.map_map]
    rfl
  have he : Inference.envSlice (decodeEnv env) =
      env.map fun e => .obj (mapOf [("name", text e.name), ("value", text e.value)]) := by
    rw [Inference.envSlice, decodeEnv, List.map_map]
    rfl
  rw [container, containerObject, hl, hl, he, envList]
  simp only [decodeEnv, ne_eq, List.map_eq_nil_iff]
  rfl

theorem isPreJobName_text (t : PreJobType) : isPreJobName (utf8 t.text) := by
  cases t <;> decide

theorem preJobs_decoded {ps : List PreJob}
    (hp : ∀ p ∈ ps, (∃ t : PreJobType, p.name = t.text) ∧ p.image ≠ []) (lastStep : Text) :
    preJobs (utf8 lastStep) (ps.map fun p =>
      ⟨utf8 p.name, utf8 p.image, p.command.map utf8, p.args.map utf8, decodeEnv p.env⟩) =
      .ok ((preJobObjects lastStep ps).1, utf8 (preJobObjects lastStep ps).2) := by
  induction ps generalizing lastStep
  case nil          => rfl
  case cons p ps hi =>
    have ⟨⟨t, ht⟩, himg⟩ := hp p (.head _)
    have hne : ∀ {s : Text}, utf8 s = [] ↔ s = [] := fun {s} => utf8_inj (t := [])
    rw [List.map_cons, preJobs, hi fun p hm => hp p (.tail _ hm), container_decoded]
    simp only [ht, isPreJobName_text, Bool.not_true, Bool.false_eq_true, if_false, hne, himg, preJobObjects,
      ne_eq]
    rfl

theorem decodeNumber_eq {x : Number} {n : Int} (h : decodeNumber x = some n) :
    x = .null ∧ n = 0 ∨ x = .int n ∧ IsInt64 n := by
  cases x
  case null      => exact .inl ⟨rfl, (Option.some.inj h).symm⟩
  case float f s => cases h
  case int m     =>
    simp only [decodeNumber] at h
    split at h
    case isTrue hm => exact .inr (Option.some.inj h ▸ ⟨rfl, hm⟩)
    case isFalse   => cases h

theorem nodes_decoded {n : Int} (h : decodeNumber req.numNodes = some n) :
    req.nodes = .int (if n = 0 then 1 else n) := by
  cases decodeNumber_eq h
  case inl h => simp [RuntimePayload.nodes, h]
  case inr h =>
    rw [RuntimePayload.nodes, h.left]
    by_cases hz : n = 0
    case pos => simp [hz]
    case neg =>
      rw [if_neg hz]
      split
      case h_1 he => cases he
      case h_2 he => exact absurd (Number.int.inj he) hz
      case h_3    => rfl

theorem createRuntime_decoded (h : req.Valid) (hd : decodeRuntime req = some r) (ns : Text) :
    ∃ o, createRuntime (utf8 ns) r = .ok o ∧ labelsOf o = some (.obj (labelFields req)) ∧
      specOf o = some (.obj
        (specFields req (requestFields decodedValue req) (limitFields decodedValue req))) := by
  have hne : ∀ {s : Text}, utf8 s = [] ↔ s = [] := fun {s} => utf8_inj (t := [])
  have ⟨n, gv, hn, hg, hr⟩ := decodeRuntime_eq hd
  have ⟨cl, hcl, hcne⟩ := h.cpuLimit
  have ⟨ml, hml, hmne⟩ := h.memoryLimit
  have hj := preJobs_decoded h.preJobs []
  subst hr
  rw [createRuntime, if_neg (by simp [hne, h.name, h.image])]
  simp only [CreateRuntimeRequest.filled, hne, framework_ne_nil h, hcl, hml, Option.getD_some, hcne, hmne,
    if_false, Except.map]
  rw [show preJobs [] _ = _ from hj]
  refine ⟨_, rfl, ?labels, ?spec⟩
  case labels =>
    rw [labelFields, frameworkOrTorch_eq h]
    exact labelsOf_object (Entries.get_set_self _ _ _) _ _ _
  case spec =>
    have hq := quantities_decoded h.cpuRequest h.memoryRequest hg
    have hl := quantities_decoded hcne hmne hg
    rw [createdObject, specOf_object]
    have hc : container (str "node") (utf8 req.image) (req.command.map utf8) (req.args.map utf8)
        (decodeEnv req.env) = containerObject "node".toList req.image req.command req.args req.env :=
      container_decoded _ _ _ _ _
    have hs : requestFields decodedValue req ≠ [] :=
      Entries.setAll_ne_nil (Entries.set_ne_nil _ _ _) _
    simp only [hq, hl, hc]
    rw [specFields, nodes_decoded hn, frameworkOrTorch_eq h, trainerObject, trainerFields, limitFields,
      hcl, hml]
    simp only [requestFields, ne_eq, Option.getD_some] at hs ⊢
    simp only [hne, hs, not_false_eq_true, true_or, decide_true, setIf, if_true]
    rfl

end Server

end Training
