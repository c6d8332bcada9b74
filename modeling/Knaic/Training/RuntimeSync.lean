import Knaic.Training.RuntimeTexts

open Go Kube Yaml
open Js (utf8)

-- When the three builders agree on a runtime.
namespace Training

-- The object of the server, the one of the browser and the one in the text.
def Agree (parse : Text → Option Value) (ns : Text) (req : RuntimePayload) : Prop :=
  ∃ r o t, decodeRuntime req = some r ∧ createRuntime (utf8 ns) r = .ok o ∧
    parse (buildTrainingRuntimeYaml req ns) = some (.obj t) ∧
    labelsOf (trainingRuntimeObject req) = labelsOf o ∧ labelsOf t = labelsOf o ∧
    specOf (trainingRuntimeObject req) = specOf o ∧ specOf t = specOf o

section Numbers

variable {req : RuntimePayload} {gpuValues : List (Text × Number)}

theorem decodeNumber_int {n : Int} (h : IsInt64 n) : decodeNumber (.int n) = some n :=
  if_pos h

theorem decodeGPUValues_some (h : ∀ e ∈ gpuValues, ∃ n, e.2 = .int n ∧ IsInt64 n) (o : Entries Int) :
    ∃ gv, decodeGPUValues o gpuValues = some gv := by
  induction gpuValues generalizing o
  case nil                 => exact ⟨o, rfl⟩
  case cons e gpuValues hi =>
    have ⟨n, he, hn⟩ := h e (.head _)
    rw [decodeGPUValues, he, decodeNumber_int hn]
    exact hi (fun e he => h e (.tail _ he)) _

theorem decodeRuntime_some (hn : req.numNodes = .null ∨ ∃ n, req.numNodes = .int n ∧ IsInt64 n)
    (hg : ∀ e ∈ req.gpuValues, ∃ n, e.2 = .int n ∧ IsInt64 n) : ∃ r, decodeRuntime req = some r := by
  have ⟨gv, hgv⟩ := decodeGPUValues_some hg []
  have hd : ∃ n, decodeNumber req.numNodes = some n := by
    cases hn
    case inl hn => exact ⟨0, hn ▸ rfl⟩
    case inr hn =>
      have ⟨n, hn, hi⟩ := hn
      exact ⟨n, hn ▸ decodeNumber_int hi⟩
  have ⟨n, hd⟩ := hd
  rw [decodeRuntime, hd, hgv]
  exact ⟨_, rfl⟩

theorem decodeGPUValues_mem {o gv : Entries Int} (h : decodeGPUValues o gpuValues = some gv) :
    ∀ e ∈ gpuValues, ∃ n, decodeNumber e.2 = some n := by
  induction gpuValues generalizing o
  case nil                 => exact List.forall_mem_nil _
  case cons e gpuValues hi =>
    have ⟨n, hn, h⟩ := Option.bind_eq_some_iff.mp h
    exact List.forall_mem_cons.mpr ⟨⟨n, hn⟩, hi h⟩

theorem numbers_congr {f g : Number → Value} (h : ∀ e ∈ gpuValues, f e.2 = g e.2) :
    numbers f gpuValues = numbers g gpuValues :=
  List.map_congr_left fun e he => by rw [h e he]

theorem decodedValue_int (h : ∀ e ∈ gpuValues, ∃ n, e.2 = .int n ∧ IsInt64 n) :
    numbers decodedValue gpuValues = numbers numberValue gpuValues := by
  apply numbers_congr
  intro e he
  have ⟨n, hn, _⟩ := h e he
  rw [hn]
  rfl

-- Each number is found in what is set.
theorem numbers_inj {f g : Number → Value} {o : Fields} (hd : (gpuValues.map Prod.fst).Nodup)
    (h : Entries.setAll o (numbers f gpuValues) = Entries.setAll o (numbers g gpuValues)) :
    ∀ e ∈ gpuValues, f e.2 = g e.2 := by
  intro e he
  have hn : ∀ f : Number → Value, ((numbers f gpuValues).map Prod.fst).Nodup := by
    intro f
    have hm : (numbers f gpuValues).map Prod.fst = (gpuValues.map Prod.fst).map utf8 := by
      rw [numbers, List.map_map, List.map_map]
      rfl
    exact hm ▸ hd.map fun _ _ => utf8_inj.mp
  have hg : ∀ f : Number → Value, (Entries.setAll o (numbers f gpuValues)).get (utf8 e.1) = some (f e.2) := by
    intro f
    rw [Entries.get_setAll_nodup (hn f), Entries.get_of_nodup (hn f) (List.mem_map_of_mem he)]
    rfl
  apply Option.some.inj
  rw [← hg f, h, hg g]

end Numbers

section Parsed

variable {parse : Text → Option Value} {r : Resolver} {req : RuntimePayload} {ns : Text}

theorem buildTrainingRuntimeYaml_eq (req : RuntimePayload) (ns : Text) :
    buildTrainingRuntimeYaml req ns = (runtimeNode req ns).render := by
  rw [buildTrainingRuntimeYaml, runtimeLines_eq, Node.render]

theorem labelsNode_resolve (h : req.Valid) :
    (labelsNode req).value r.resolve = .obj (labelFields req) := by
  have hf : ∀ s ∈ frameworks, IsWord s := by decide
  rw [← labelsNode_value]
  apply Node.value_congr
  intro s hs
  apply r.word
  cases hs
  case head    => decide
  case tail hs =>
    rw [List.mem_singleton.mp hs, frameworkOrTorch_eq h]
    exact hf _ h.framework

-- What is found in the document.
theorem runtimeNode_value (hm : (metadataNode req ns).Readable r) (hr : (runtimeNode req ns).Readable r) :
    ∃ t, (runtimeNode req ns).value r.resolve = .obj t ∧
      labelsOf t = some ((labelsNode req).value r.resolve) ∧
      specOf t = some ((specNode req).value r.resolve) := by
  refine ⟨_, rfl, ?labels, get_fieldValues hr.right.left (List.mem_append_right _ (.head _))⟩
  case labels =>
    have hg := get_fieldValues (f := r.resolve) (o := []) hr.right.left
      (List.mem_append_left _ (.tail _ (.tail _ (.head _))))
    have hl := get_fieldValues (f := r.resolve) (o := []) hm.right.left
      (List.mem_append_right _ (.head _))
    rw [labelsOf, Fields.nestedField_cons_cons]
    rw [← utf8_toList "metadata", hg, ← utf8_toList "labels"]
    exact hl

-- What a readable document says of the runtime: what the browser builds, if its scalars are taken for texts.
theorem parsed (h : req.Valid) (hp : Reads parse r (runtimeNode req ns)) (hl : Legible r ns req)
    (hn : ∃ n, req.nodes = .int n ∧ IsInt64 n) (hg : ∀ e ∈ req.gpuValues, ∃ n, e.2 = .int n ∧ IsInt64 n) :
    ∃ t, parse (buildTrainingRuntimeYaml req ns) = some (.obj t) ∧
      labelsOf t = some (.obj (labelFields req)) ∧
      specOf t = some ((specNode req).value r.resolve) := by
  have hr := runtimeNode_readable h hl hn hg
  have ⟨t, ht, hlabels, hspec⟩ := runtimeNode_value (metadata_readable h hl) hr
  rw [labelsNode_resolve h] at hlabels
  refine ⟨t, ?_, hlabels, hspec⟩
  rw [buildTrainingRuntimeYaml_eq, hp hr, ht]

theorem specNode_meant (h : req.Valid) (hn : ∃ n, req.nodes = .int n)
    (hg : ∀ e ∈ req.gpuValues, ∃ n, e.2 = .int n ∧ IsInt64 n) : (specNode req).value text =
      .obj (specFields req (requestFields numberValue req) (limitFields numberValue req)) := by
  have ⟨n, hn⟩ := hn
  have hi : ∀ cpu memory, ∀ e ∈ amounts cpu memory req.gpuValues, ∀ x, e.2 = .number x → ∃ n, x = .int n :=
    fun _ _ e he x hx => (amounts_int hg e he x hx).imp fun _ => And.left
  apply specNode_value h.image (fun p hm => (h.preJobs p hm).right) hn
  case hr =>
    rw [← requests_value h, quantitiesNode_value]
    rw [requests_eq h]
    exact hi _ _
  case hl =>
    rw [← limits_value h, quantitiesNode_value]
    rw [limits_eq h]
    exact hi _ _

end Parsed

section Inverse

variable {req : RuntimePayload} {r r' l l' : Fields}

theorem mapOf_one_inj {k : String} {a b : Value} (h : mapOf [(k, a)] = mapOf [(k, b)]) : a = b := by
  have hg := congrArg (Entries.get · (str k)) h
  simpa [mapOf] using hg

-- The value under the last key of two.
theorem get_mapOf_two (k k' : String) (a b : Value) : (mapOf [(k, a), (k', b)]).get (str k') = some b := by
  simp [mapOf]

theorem mapOf_two_inj {k k' : String} {a a' b b' : Value}
    (h : mapOf [(k, a), (k', b)] = mapOf [(k, a'), (k', b')]) : b = b' := by
  apply Option.some.inj
  rw [← get_mapOf_two k k' a b, h, get_mapOf_two]

-- The template of a job tells its container.
theorem jobObject_inj {name step : Value} {c c' : Fields}
    (h : (jobObject name step c).get (str "template") = (jobObject name step c').get (str "template")) :
    c = c' := by
  rw [jobObject, jobObject, get_mapOf_two, get_mapOf_two] at h
  have hs := Value.obj.inj (mapOf_two_inj (Value.obj.inj (Option.some.inj h)))
  have hp := Value.obj.inj (mapOf_one_inj (Value.obj.inj (mapOf_one_inj hs)))
  have hc := Value.list.inj (mapOf_one_inj hp)
  exact Value.obj.inj (List.cons.inj hc).left

theorem trainerObject_inj (h : trainerObject req r l = trainerObject req r' l') : r = r' ∧ l = l' := by
  have ht := congrArg (Entries.get · (str "template")) h
  have hne : str "template" ≠ str "dependsOn" := fun h => absurd (str_inj.mp h) (by decide)
  simp only [trainerObject, Inference.get_setIf, hne, and_false, if_false] at ht
  have hf := jobObject_inj ht
  have hg := congrArg (Entries.get · (str "resources")) hf
  simp only [trainerFields, Entries.get_set_self] at hg
  have hm := Value.obj.inj (Option.some.inj hg)
  have hl := Value.obj.inj (mapOf_two_inj hm)
  have hr := congrArg (Entries.get · (str "requests")) hm
  simp [mapOf, Entries.get_set] at hr
  exact ⟨hr, hl⟩

-- The quantities of the trainer can be told from the whole.
theorem specFields_inj (h : specFields req r l = specFields req r' l') : r = r' ∧ l = l' := by
  have ht := Value.obj.inj (mapOf_two_inj h)
  have hs := Value.list.inj (mapOf_one_inj (Value.obj.inj (mapOf_one_inj ht)))
  have hj := (List.cons.inj (List.append_cancel_left hs)).left
  exact trainerObject_inj (Value.obj.inj hj)

end Inverse

section Agreement

variable {parse : Text → Option Value} {resolver : Resolver} {req : RuntimePayload} {ns : Text}

theorem nodes_int {n : Int} (h : decodeNumber req.numNodes = some n) :
    ∃ m, req.nodes = .int m ∧ IsInt64 m := by
  refine ⟨_, nodes_decoded h, ?_⟩
  split
  case isTrue    => exact ⟨by decide, by decide⟩
  case isFalse hz =>
    cases decodeNumber_eq h
    case inl h => exact absurd h.right hz
    case inr h => exact h.right

theorem agree_of_literal (h : req.Valid) (hp : Reads parse resolver (runtimeNode req ns))
    (hl : Legible resolver ns req) (ht : Literal resolver req) : Agree parse ns req := by
  have ⟨r, hr⟩ := decodeRuntime_some ht.numNodes ht.gpuValues
  have ⟨n, gv, hn, hgv, hreq⟩ := decodeRuntime_eq hr
  have ⟨m, hm⟩ := nodes_int hn
  have ⟨o, ho, hlabels, hspec⟩ := createRuntime_decoded h hr ns
  have ⟨t, hparse, htlabels, htspec⟩ := parsed h hp hl ⟨m, hm⟩ ht.gpuValues
  have hs : (specNode req).value resolver.resolve = (specNode req).value text :=
    Node.value_congr _ ((specNode_texts resolver.word h ⟨m, hm.left⟩ ht.gpuValues).mpr ht.bare)
  rw [hs, specNode_meant h ⟨m, hm.left⟩ ht.gpuValues] at htspec
  rw [requestFields, limitFields, decodedValue_int ht.gpuValues] at hspec
  refine ⟨r, o, t, hr, ho, hparse, ?_, ?_, ?_, ?_⟩
  · rw [trainingRuntimeObject_labels h, hlabels]
  · rw [htlabels, hlabels]
  · rw [trainingRuntimeObject_spec h, hspec]
    rfl
  · rw [htspec, hspec]
    rfl

theorem literal_of_agree (h : req.Valid) (hp : Reads parse resolver (runtimeNode req ns))
    (hl : Legible resolver ns req) (ha : Agree parse ns req) : Literal resolver req := by
  obtain ⟨r, o, t, hr, ho, hparse, _, _, hto, hts⟩ := ha
  have ⟨n, gv, hn, hgv, _⟩ := decodeRuntime_eq hr
  have ⟨m, hm⟩ := nodes_int hn
  have ⟨o', ho', _, hspec⟩ := createRuntime_decoded h hr ns
  cases ho.symm.trans ho'
  have hg : ∀ e ∈ req.gpuValues, ∃ n, e.2 = .int n ∧ IsInt64 n := by
    -- null is zero to the server and null to the browser
    have hs := Value.obj.inj (Option.some.inj (((trainingRuntimeObject_spec h).symm.trans hto).trans hspec))
    have hv := numbers_inj h.gpuValues (specFields_inj hs).left
    intro e he
    have ⟨i, hd⟩ := decodeGPUValues_mem hgv e he
    cases decodeNumber_eq hd
    case inr hi => exact ⟨i, hi⟩
    case inl hi =>
      have hve := hv e he
      rw [hi.left] at hve
      cases hve
  have ⟨t', hparse', _, htspec⟩ := parsed h hp hl ⟨m, hm⟩ hg
  cases hparse.symm.trans hparse'
  constructor
  case numNodes => exact (decodeNumber_eq hn).imp And.left fun hi => ⟨n, hi⟩
  case gpuValues => exact hg
  case bare =>
    have hs : (specNode req).value resolver.resolve = (specNode req).value text := by
      apply Option.some.inj
      rw [← htspec, hts, ← hto, trainingRuntimeObject_spec h, specNode_meant h ⟨m, hm.left⟩ hg]
    exact (specNode_texts resolver.word h ⟨m, hm.left⟩ hg).mp
      (Node.scalars _ (specNode_readable h hl ⟨m, hm⟩ hg) hs)

-- The three builders agree exactly on the runtimes of which every text that is not quoted is taken for a text
-- and every number is an integer.
theorem builders_agree_iff {enabled : PreJobType → Bool} {v : RuntimeFormShape} (hv : Submittable enabled v)
    (hp : Reads parse resolver (runtimeNode (collectPayload enabled v) ns))
    (hl : Legible resolver ns (collectPayload enabled v)) :
    Agree parse ns (collectPayload enabled v) ↔ Literal resolver (collectPayload enabled v) where
  mp  := literal_of_agree hv.valid hp hl
  mpr := agree_of_literal hv.valid hp hl

-- A reader of one document, to which only the reserved words are no texts.
def readsOnly (t : Node) (s : Text) : Option Value :=
  if s = t.render then some (t.value Resolver.words.resolve) else none

theorem reads_readsOnly (t : Node) : Reads (readsOnly t) .words t :=
  fun _ => if_pos rfl

-- A runtime that starts its image with the given arguments.
def startedWith (args : String) : RuntimeFormShape where
  name          := "llm".toList
  framework     := "torch".toList
  numNodes      := .int 1
  image         := "trainer".toList
  command       := []
  args          := args.toList
  env           := []
  cpuRequest    := "8".toList
  cpuLimit      := "8".toList
  memoryRequest := "64Gi".toList
  memoryLimit   := "64Gi".toList
  gpuProfileId  := []
  gpuValues     := []
  preJobs       := fun _ => ⟨[], [], [], []⟩
  cluster       := false

def startedPayload (args : String) : RuntimePayload :=
  collectPayload (fun _ => false) (startedWith args)

def startedDocument (args : String) : Node :=
  runtimeNode (startedPayload args) "ml".toList

theorem startedWith_submittable (args : String) : Submittable (fun _ => false) (startedWith args) where
  name          := List.cons_ne_nil _ _
  framework     := List.mem_cons_self
  image         := List.cons_ne_nil _ _
  cpuRequest    := List.cons_ne_nil _ _
  cpuLimit      := List.cons_ne_nil _ _
  memoryRequest := List.cons_ne_nil _ _
  memoryLimit   := List.cons_ne_nil _ _
  gpuKeys       := List.nodup_nil
  preJobs       := fun _ h => Bool.noConfusion h

theorem startedWith_legible {args : String} (hb : ∀ s ∈ (startedPayload args).bare, IsPlain s)
    (hq : ∀ s ∈ (startedPayload args).quoted, s.all printable) :
    Legible .words "ml".toList (startedPayload args) where
  name    := (by decide : IsPlain "llm".toList)
  cluster := .inr (by decide)
  bare    := hb
  quoted  := hq
  gpuKeys := List.forall_mem_nil _

theorem startedWith_literal {args : String} (hb : ∀ s ∈ (startedPayload args).bare, IsWord s) :
    Literal .words (startedPayload args) where
  bare      := fun s hs => Resolver.words.word s (hb s hs)
  numNodes  := .inr ⟨1, rfl, by decide, by decide⟩
  gpuValues := List.forall_mem_nil _

theorem builders_agree_epochs :
    Agree (readsOnly (startedDocument "--epochs\n3")) "ml".toList (startedPayload "--epochs\n3") :=
  (builders_agree_iff (startedWith_submittable _) (reads_readsOnly _)
    (startedWith_legible (by decide) (by decide))).mpr (startedWith_literal (by decide))

-- `on` is not quoted.
theorem builders_differ_on : Submittable (fun _ => false) (startedWith "on") ∧
    Reads (readsOnly (startedDocument "on")) .words (startedDocument "on") ∧
    ¬Agree (readsOnly (startedDocument "on")) "ml".toList (startedPayload "on") := by
  refine ⟨startedWith_submittable _, reads_readsOnly _, ?_⟩
  intro ha
  have hl := literal_of_agree (startedWith_submittable _).valid (reads_readsOnly _)
    (startedWith_legible (by decide) (by decide)) ha
  have hon := hl.bare "on".toList (by decide)
  cases hon

end Agreement

end Training
