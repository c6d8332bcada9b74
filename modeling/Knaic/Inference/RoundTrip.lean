import Knaic.Inference.Build
import Knaic.K8sRes.InferenceProj

open Go Kube K8sRes

namespace Inference

-- Every key is the name of an accelerator.
def Accelerators (g : Dict Int) : Prop :=
  ∀ k, (g.get k).isSome → isAccelerator k

-- Reading quantities back.
section Quantities

variable {cpu memory : Str} {g : Dict Int} {k : Str}

theorem quantities_sorted (cpu memory : Str) (g : Dict Int) :
    Entries.Sorted (quantities cpu memory g.entries) := by
  simp only [quantities]
  apply Entries.Sorted.setAll
  have hc : Entries.Sorted (if cpu ≠ [] then Entries.set [] (str "cpu") (Value.string cpu) else []) := by
    split
    · exact Entries.Sorted.set .nil _ _
    · exact .nil
  split
  · exact hc.set _ _
  · exact hc

theorem get_quantities (cpu memory : Str) (g : Dict Int) (k : Str) :
    (quantities cpu memory g.entries).get k =
      ((g.get k).map Value.int).or
        (if memory ≠ [] ∧ k = str "memory" then some (.string memory)
         else if cpu ≠ [] ∧ k = str "cpu" then some (.string cpu) else none) := by
  simp only [quantities]
  rw [Entries.get_setAll (g.sorted.map _), Entries.get_map]
  congr 1
  by_cases hm : memory = [] <;> by_cases hc : cpu = [] <;> simp [hm, hc, Entries.get_set]

theorem get_quantities_accelerator (hk : isAccelerator k) :
    (quantities cpu memory g.entries).get k = (g.get k).map Value.int := by
  simp only [isAccelerator, Bool.and_eq_true, decide_eq_true_eq] at hk
  simp [get_quantities, hk]

theorem Accelerators.get_none (hg : Accelerators g) (hk : ¬isAccelerator k) : g.get k = none := by
  cases h : g.get k
  case none   => rfl
  case some n => exact absurd (hg k (by simp [h])) hk

theorem get_quantities_cpu (hg : Accelerators g) :
    (quantities cpu memory g.entries).get (str "cpu") =
      if cpu = [] then none else some (.string cpu) := by
  have hn : g.get (str "cpu") = none := hg.get_none (by simp [isAccelerator])
  simp [get_quantities, hn]

theorem get_quantities_memory (hg : Accelerators g) :
    (quantities cpu memory g.entries).get (str "memory") =
      if memory = [] then none else some (.string memory) := by
  have hn : g.get (str "memory") = none := hg.get_none (by simp [isAccelerator])
  simp [get_quantities, hn]

theorem get_collect (out : Dict Int) (e : Str × Value) (k : Str) :
    (collect out e).get k =
      (out.get k).or (if isAccelerator k ∧ k = e.1 then count? e.2 else none) := by
  simp only [collect]
  by_cases hk : k = e.1
  case pos =>
    subst hk
    cases ha : isAccelerator e.1 <;> cases ho : out.get e.1 <;> cases hc : count? e.2 <;>
      simp [ho, Dict.get_set]
  case neg =>
    have hs : ∀ n, (out.set e.1 n).get k = out.get k := fun n => by simp [Dict.get_set, hk]
    simp only [hk, and_false, if_false, Option.or_none]
    split
    · split <;> simp [hs]
    · rfl

theorem get_collectAll {src : Fields} (h : Entries.Sorted src) (out : Dict Int) (k : Str) :
    (src.foldl collect out).get k =
      (out.get k).or (if isAccelerator k then (src.get k).bind count? else none) := by
  induction src generalizing out
  case nil           => simp
  case cons e src hi =>
    rw [List.foldl_cons, hi h.tail, get_collect, Entries.get_cons, Option.or_assoc]
    by_cases hk : e.1 = k
    case neg => simp [hk, Ne.symm hk]
    case pos =>
      have hn := h.get_tail
      rw [hk] at hn
      cases ha : isAccelerator k <;> simp [hk, hn]

-- Nothing else is ever collected.
theorem get_collectAll_other (src : Fields) (out : Dict Int) (hk : ¬isAccelerator k) :
    (src.foldl collect out).get k = out.get k := by
  induction src generalizing out
  case nil         => rfl
  case cons e _ hi => rw [List.foldl_cons, hi, get_collect]; simp [hk]

theorem accelerators_containerResources (c : Fields) :
    Accelerators (containerResources c).gpuValues := by
  intro k hs
  by_contra hk
  simp only [containerResources, mergeAcceleratorResources] at hs
  rw [get_collectAll_other _ _ hk, get_collectAll_other _ _ hk] at hs
  simp at hs

theorem get_merge (limits requests : Dict Int) (c m c' m' : Str) (k : Str) :
    (mergeAcceleratorResources (quantities c m limits.entries)
      (quantities c' m' requests.entries)).get k =
      if isAccelerator k then (limits.get k).or (requests.get k) else none := by
  simp only [mergeAcceleratorResources]
  rw [get_collectAll (quantities_sorted ..), get_collectAll (quantities_sorted ..)]
  by_cases hk : isAccelerator k
  case neg => simp [hk]
  case pos =>
    simp only [hk, if_true, get_quantities_accelerator hk, Dict.get_empty, Option.none_or]
    cases limits.get k <;> cases requests.get k <;> simp [count?]

theorem merge_eq (hg : Accelerators g) (c m c' m' : Str) :
    mergeAcceleratorResources (quantities c m g.entries) (quantities c' m' g.entries) = g := by
  ext k n
  rw [get_merge]
  by_cases hk : isAccelerator k
  case pos => simp [hk]
  case neg => simp [hk, hg.get_none hk]

end Quantities

-- The amounts that a container asks for and may take.
structure Amounts where
  cpuRequest    : Str
  cpuLimit      : Str
  memoryRequest : Str
  memoryLimit   : Str
  gpuValues     : Dict Int

def CreateServiceRequest.amounts (req : CreateServiceRequest) : Amounts :=
  ⟨req.cpuRequest, req.cpuLimit, req.memoryRequest, req.memoryLimit, req.gpuValues⟩

-- A container, or a model, with these amounts.
structure Amounts.In (a : Amounts) (c : Fields) : Prop where
  requests : (c.nestedMap [str "resources", str "requests"]).getD [] =
             quantities a.cpuRequest a.memoryRequest a.gpuValues.entries
  limits   : (c.nestedMap [str "resources", str "limits"]).getD [] =
             quantities a.cpuLimit a.memoryLimit a.gpuValues.entries

-- And one that says what the request does.
structure Carries (c : Fields) (req : CreateServiceRequest) : Prop where
  amounts : req.amounts.In c
  env     : (c.nestedSlice [str "env"]).getD [] = envSlice req.env
  command : (c.nestedSlice [str "command"]).getD [] = toAnySlice req.command
  args    : (c.nestedSlice [str "args"]).getD [] = toAnySlice req.args

section Reads

variable {c : Fields} {req : CreateServiceRequest} {a : Amounts}

theorem resourceString_of_get {path : List Str} {s : Str}
    (h : c.nestedField path = if s = [] then none else some (.string s)) :
    resourceString c path = s := by
  by_cases hs : s = [] <;> simp [resourceString, h, hs]

theorem nestedString_of_get {path : List Str} {s : Str}
    (h : c.nestedField path = if s = [] then none else some (.string s)) :
    (c.nestedString path).getD [] = s := by
  by_cases hs : s = [] <;> simp [Fields.nestedString, h, hs]

theorem stringSlice_eq {path : List Str} {l : List Str}
    (h : (c.nestedSlice path).getD [] = toAnySlice l) : stringSliceFromMap c path = l := by
  simp only [stringSliceFromMap, Fields.nestedStringSlice_of_slice h, h, filterMap_toAnySlice, ite_self]

theorem envProjection_eq {path : List Str} {l : List EnvVar}
    (h : (c.nestedSlice path).getD [] = envSlice l) (hn : ∀ e ∈ l, e.name ≠ []) :
    envProjection c path = l := by
  have he : ∀ e : EnvVar, e.name ≠ [] →
      ((Value.obj (mapOf [("name", .string e.name), ("value", .string e.value)])).obj?.bind fun m =>
        let name := (m.nestedString [str "name"]).getD []
        let value := (m.nestedString [str "value"]).getD []
        if name ≠ [] then some (⟨name, value⟩ : EnvVar) else none) = some e := by
    intro e hn
    simp [Fields.nestedString, mapOf, Entries.get_set, hn]
  simp only [envProjection, h, envSlice]
  clear h
  induction l
  case nil         => rfl
  case cons e l hi =>
    have hl := hi fun e he => hn e (.tail _ he)
    rw [List.map_cons, List.filterMap_cons, he e (hn e (.head _)), hl]

namespace Amounts.In

theorem request (h : a.In c) (k : Str) :
    c.nestedField [str "resources", str "requests", k] =
      (quantities a.cpuRequest a.memoryRequest a.gpuValues.entries).get k := by
  rw [← h.requests]
  exact c.nestedField_append [str "resources", str "requests"] k

theorem limit (h : a.In c) (k : Str) :
    c.nestedField [str "resources", str "limits", k] =
      (quantities a.cpuLimit a.memoryLimit a.gpuValues.entries).get k := by
  rw [← h.limits]
  exact c.nestedField_append [str "resources", str "limits"] k

variable (h : a.In c) (hg : Accelerators a.gpuValues)

include h hg

theorem cpuRequest : c.nestedField [str "resources", str "requests", str "cpu"] =
    if a.cpuRequest = [] then none else some (.string a.cpuRequest) :=
  (h.request _).trans (get_quantities_cpu hg)

theorem cpuLimit : c.nestedField [str "resources", str "limits", str "cpu"] =
    if a.cpuLimit = [] then none else some (.string a.cpuLimit) :=
  (h.limit _).trans (get_quantities_cpu hg)

theorem memoryRequest : c.nestedField [str "resources", str "requests", str "memory"] =
    if a.memoryRequest = [] then none else some (.string a.memoryRequest) :=
  (h.request _).trans (get_quantities_memory hg)

theorem memoryLimit : c.nestedField [str "resources", str "limits", str "memory"] =
    if a.memoryLimit = [] then none else some (.string a.memoryLimit) :=
  (h.limit _).trans (get_quantities_memory hg)

theorem accelerators : (containerResources c).gpuValues = a.gpuValues := by
  simp only [containerResources, h.requests, h.limits]
  exact merge_eq hg ..

theorem cpu : (containerResources c).cpu =
    if a.cpuRequest = [] then a.cpuLimit else a.cpuRequest := by
  simp only [containerResources]
  rw [nestedString_of_get (h.cpuRequest hg), nestedString_of_get (h.cpuLimit hg)]

end Amounts.In

-- What the request says of its container.
def CreateServiceRequest.form (req : CreateServiceRequest) : FormFields :=
  ⟨req.cpuRequest, req.cpuLimit, req.memoryRequest, req.memoryLimit, req.env, req.command, req.args⟩

theorem Carries.form (h : Carries c req) (hg : Accelerators req.gpuValues)
    (hn : ∀ e ∈ req.env, e.name ≠ []) : projectServiceFormFields c = req.form := by
  have ha := h.amounts
  simp only [projectServiceFormFields, CreateServiceRequest.form]
  rw [resourceString_of_get (ha.cpuRequest hg), resourceString_of_get (ha.cpuLimit hg),
    resourceString_of_get (ha.memoryRequest hg), resourceString_of_get (ha.memoryLimit hg),
    envProjection_eq h.env hn, stringSlice_eq h.command, stringSlice_eq h.args]
  rfl

end Reads

-- An InferenceService.
section Service

-- What the edit form is to be filled with.
structure ServiceRecovered (p : Projection) (req : CreateServiceRequest) : Prop where
  runtime        : p.runtime = req.runtime
  modelURI       : p.modelURI = req.modelURI
  minReplicas    : p.minReplicas = req.replicas
  maxReplicas    : p.maxReplicas = req.replicas
  deploymentMode : req.deploymentMode ≠ [] → p.deploymentMode = req.deploymentMode
  form           : p.form = req.form
  gpuValues      : p.gpuValues = req.gpuValues

-- A list that is left out where it is empty.
theorem list_unless {l : List Value} {p : Prop} [Decidable p] (h : p → l = []) :
    ((if p then none else some (Value.list l)).bind Value.list?).getD [] = l := by
  by_cases hp : p
  case pos => simp [hp, h hp]
  case neg => simp [hp]

theorem carries_model (req : CreateServiceRequest) : Carries (inferenceServiceModel req) req := by
  constructor
  case amounts =>
    constructor <;>
      simp [inferenceServiceModel, overrides, Fields.nestedMap, mapOf, Entries.get_set, get_setIf,
        resourceRequests, resourceLimits, CreateServiceRequest.amounts]
  all_goals
    simp [inferenceServiceModel, overrides, Fields.nestedSlice, mapOf, Entries.get_set, get_setIf]
  case env     => exact list_unless fun h => by simp [h, envSlice]
  case command => exact list_unless fun h => by simp [h, toAnySlice]
  case args    => exact list_unless fun h => by simp [h, toAnySlice]

theorem getAnnotations_service (ns : Str) (req : CreateServiceRequest) :
    (inferenceServiceObject ns req).getAnnotations =
      if req.deploymentMode = [] then []
      else [(str deploymentModeAnnotation, req.deploymentMode)] := by
  by_cases h : req.deploymentMode = []
  all_goals
    simp [inferenceServiceObject, Fields.getAnnotations, Fields.nestedStringMap, Fields.nestedMap,
      mapOf, Entries.get_set, get_setIf, h]
  case neg => simp [Entries.set_nil]

theorem isStopped_service (ns : Str) {req : CreateServiceRequest} (h : req.replicas ≠ 0) :
    isStopped (inferenceServiceObject ns req) = false := by
  have hs : (inferenceServiceObject ns req).getAnnotations.get (str stopAnnotation) = none := by
    rw [getAnnotations_service]
    split <;> simp [Entries.get_cons, stopAnnotation, deploymentModeAnnotation]
  simp only [isStopped, hs]
  simp [inferenceServiceObject, Fields.nestedInt64, Fields.getKind, Fields.nestedString, mapOf,
    Entries.get_set, h]

theorem deploymentMode_service (ns : Str) {req : CreateServiceRequest}
    (h : req.deploymentMode ≠ []) :
    deploymentMode (inferenceServiceObject ns req) = req.deploymentMode := by
  refine deploymentMode_annotated ?_ h
  simp [getAnnotations_service, h, Entries.get_cons, deploymentModeAnnotation]

theorem replicas_normalise (req : CreateServiceRequest) :
    (normaliseServiceRequest req).replicas ≠ 0 := by
  simp only [normaliseServiceRequest]
  split <;> simp_all

theorem inferenceService_round_trip (ns : Str) (req : CreateServiceRequest)
    (hn : ∀ e ∈ req.env, e.name ≠ []) (hg : Accelerators req.gpuValues) :
    ServiceRecovered
      (projectInferenceService (inferenceServiceObject ns (normaliseServiceRequest req)))
      (normaliseServiceRequest req) := by
  have hr := replicas_normalise req
  have hn' : ∀ e ∈ (normaliseServiceRequest req).env, e.name ≠ [] := hn
  have hg' : Accelerators (normaliseServiceRequest req).gpuValues := hg
  generalize normaliseServiceRequest req = req at hr hn' hg' ⊢
  have hm : (inferenceServiceObject ns req).nestedMap
      [str "spec", str "predictor", str "model"] = some (inferenceServiceModel req) := by
    simp [inferenceServiceObject, Fields.nestedMap, mapOf]
  have hc : ((inferenceServiceObject ns req).nestedMap [str "spec", str "predictor"]).bind
      (fun pod => nestedFirstContainer pod [str "containers"]) = none := by
    simp [inferenceServiceObject, Fields.nestedMap, Fields.nestedSlice, nestedFirstContainer, mapOf,
      Entries.get_set]
  have hi := carries_model req
  have hs := isStopped_service ns hr
  constructor
  all_goals simp only [projectInferenceService, hm, hc, hs, Option.getD_some, Option.getD_none, ite_self]
  case runtime        =>
    simp [inferenceServiceModel, Fields.nestedString, overrides, mapOf, Entries.get_set, get_setIf]
  case modelURI       =>
    simp [inferenceServiceModel, Fields.nestedString, overrides, mapOf, Entries.get_set, get_setIf]
  case minReplicas    =>
    simp [inferenceServiceObject, Fields.nestedInt64, mapOf, Entries.get_set, hr]
  case maxReplicas    =>
    simp [inferenceServiceObject, Fields.nestedInt64, mapOf, Entries.get_set, hr]
  case deploymentMode => exact fun h => deploymentMode_service ns h
  case form           => exact hi.form hg' hn'
  case gpuValues      => exact hi.amounts.accelerators hg'

def embed : CreateServiceRequest where
  name           := str "embed"
  kind           := str "InferenceService"
  runtime        := str "vllm"
  modelURI       := str "hf://BAAI/bge-large-en-v1.5"
  replicas       := 2
  baseConfigs    := []
  modelName      := []
  containerImage := []
  deploymentMode := str "RawDeployment"
  cpuRequest     := str "1"
  cpuLimit       := []
  memoryRequest  := []
  memoryLimit    := str "8Gi"
  gpuValues      := Dict.empty.set (str "nvidia.com/gpu") 1
  env            := [⟨str "LOG_LEVEL", str "debug"⟩]
  command        := []
  args           := [str "--port", str "8080"]

theorem embed_accelerators : Accelerators embed.gpuValues := by
  intro k hk
  simp only [embed, Dict.get_set] at hk
  split at hk
  case isTrue h => subst h; decide
  case isFalse  => simp at hk

theorem inferenceService_round_trip_embed :
    ServiceRecovered
      (projectInferenceService (inferenceServiceObject (str "team-ml") (normaliseServiceRequest embed)))
      (normaliseServiceRequest embed) :=
  inferenceService_round_trip _ embed (by decide) embed_accelerators

-- An accelerator without a name is not looked at.
theorem nameless_accelerator_lost :
    ¬∀ ns req, (∀ e ∈ req.env, e.name ≠ []) →
      (∀ k, (req.gpuValues.get k).isSome → k ≠ str "cpu" ∧ k ≠ str "memory") →
      ServiceRecovered
        (projectInferenceService (inferenceServiceObject ns (normaliseServiceRequest req)))
        (normaliseServiceRequest req) := by
  intro h
  let req := { embed with gpuValues := Dict.empty.set [] 1 }
  have hk : ∀ k, (req.gpuValues.get k).isSome → k ≠ str "cpu" ∧ k ≠ str "memory" := by
    intro k hk
    simp only [req, Dict.get_set] at hk
    split at hk
    case isTrue h => subst h; decide
    case isFalse  => simp at hk
  have hg := congrArg (Dict.get · []) (h (str "team-ml") req (by decide) hk).gpuValues
  revert hg
  decide +kernel

end Service

-- An LLMInferenceService.
section LLM

structure LLMRecovered (p : Projection) (req : CreateServiceRequest) : Prop where
  modelName      : p.modelName = req.modelName
  modelURI       : p.modelURI = req.modelURI
  minReplicas    : p.minReplicas = req.replicas
  maxReplicas    : p.maxReplicas = req.replicas
  baseConfigs    : p.baseConfigs = req.baseConfigs
  containerImage : p.containerImage = req.containerImage
  form           : p.form = req.form
  gpuValues      : p.gpuValues = req.gpuValues

-- The request without anything that goes on the container but the image.
def CreateServiceRequest.bare (req : CreateServiceRequest) : CreateServiceRequest :=
  { req with
    cpuRequest    := []
    cpuLimit      := []
    memoryRequest := []
    memoryLimit   := []
    gpuValues     := .empty
    env           := []
    command       := []
    args          := [] }

def main (req : CreateServiceRequest) : Fields :=
  Entries.set (llmContainer req) (str "name") (.string (str "main"))

theorem carries_main (req : CreateServiceRequest) : Carries (main req) req := by
  constructor
  case amounts =>
    constructor
    case requests =>
      change _ = resourceRequests req
      by_cases h : resourceRequests req = [] <;> by_cases hl : resourceLimits req = [] <;>
        simp [main, llmContainer, Fields.nestedMap, overrides, Entries.get_set, get_setIf, h, hl]
    case limits =>
      change _ = resourceLimits req
      by_cases h : resourceRequests req = [] <;> by_cases hl : resourceLimits req = [] <;>
        simp [main, llmContainer, Fields.nestedMap, overrides, Entries.get_set, get_setIf, h, hl]
  all_goals simp [main, llmContainer, Fields.nestedSlice, overrides, Entries.get_set, get_setIf]
  case env     => exact list_unless fun h => by simp [h, envSlice]
  case command => exact list_unless fun h => by simp [h, toAnySlice]
  case args    => exact list_unless fun h => by simp [h, toAnySlice]

theorem carries_llmModel (req : CreateServiceRequest) : Carries (llmModel req) req.bare := by
  constructor
  case amounts =>
    constructor <;>
      simp [llmModel, Fields.nestedMap, mapOf, Entries.get_set, get_setIf,
        CreateServiceRequest.bare, CreateServiceRequest.amounts, quantities, Dict.empty,
        Entries.setAll]
  all_goals
    simp [llmModel, Fields.nestedSlice, mapOf, Entries.get_set, get_setIf,
      CreateServiceRequest.bare, envSlice, toAnySlice]

theorem quantities_eq_nil {cpu memory : Str} {g : Dict Int} :
    quantities cpu memory g.entries = [] ↔ cpu = [] ∧ memory = [] ∧ g = .empty := by
  constructor
  case mpr =>
    rintro ⟨rfl, rfl, rfl⟩
    rfl
  case mp =>
    intro h
    have hget := Entries.eq_nil_iff_get.mp h
    simp only [get_quantities, Option.or_eq_none_iff, Option.map_eq_none_iff] at hget
    refine ⟨?_, ?_, Dict.ext fun k => (hget k).left⟩
    · simpa using (hget (str "cpu")).right
    · simpa using (hget (str "memory")).right

-- The container is left out only if there is nothing to put there.
theorem llmContainer_eq_nil {req : CreateServiceRequest} (h : llmContainer req = []) :
    req.containerImage = [] ∧ req.form = req.bare.form ∧ req.gpuValues = .empty := by
  have hget := Entries.eq_nil_iff_get.mp h
  have hr : resourceRequests req = [] ∧ resourceLimits req = [] := by
    have hr := hget (str "resources")
    simpa [llmContainer, overrides, get_setIf] using hr
  have ⟨hcr, hmr, hg⟩ := quantities_eq_nil.mp hr.left
  have ⟨hcl, hml, _⟩ := quantities_eq_nil.mp hr.right
  have hi : req.containerImage = [] := by
    simpa [llmContainer, overrides, get_setIf] using hget (str "image")
  have hc : req.command = [] := by
    simpa [llmContainer, overrides, get_setIf] using hget (str "command")
  have ha : req.args = [] := by
    simpa [llmContainer, overrides, get_setIf] using hget (str "args")
  have he : req.env = [] := by
    simpa [llmContainer, overrides, get_setIf] using hget (str "env")
  exact ⟨hi, by simp [CreateServiceRequest.form, CreateServiceRequest.bare, *], hg⟩

section Object

variable (ns : Str) (req : CreateServiceRequest)

theorem llm_spec : (llmInferenceServiceObject ns req).get (str "spec") = some (.obj (llmSpec req)) := by
  simp [llmInferenceServiceObject, mapOf]

theorem llm_container :
    nestedFirstContainer (llmInferenceServiceObject ns req)
      [str "spec", str "template", str "containers"] =
      if llmContainer req = [] then none else some (main req) := by
  by_cases h : llmContainer req = [] <;>
    simp [nestedFirstContainer, Fields.nestedSlice, llm_spec, llmSpec, mapOf, Entries.get_set,
      get_setIf, h, main]

theorem llm_model :
    (llmInferenceServiceObject ns req).nestedMap [str "spec", str "model"] =
      some (llmModel req) := by
  simp [Fields.nestedMap, llm_spec, llmSpec, mapOf, Entries.get_set, get_setIf]

theorem llm_refs :
    ((llmInferenceServiceObject ns req).nestedSlice [str "spec", str "baseRefs"]).getD [] =
      llmBaseRefs req := by
  by_cases h : llmBaseRefs req = [] <;>
    simp [Fields.nestedSlice, llm_spec, llmSpec, mapOf, Entries.get_set, get_setIf, h]

theorem llm_baseRefNames :
    baseRefNames (llmInferenceServiceObject ns req) = req.baseConfigs.filter (· ≠ []) := by
  rw [baseRefNames, llm_refs, llmBaseRefs, List.filterMap_map]
  refine (List.filterMap_congr fun name hm => ?_).trans List.filterMap_some
  have hn : name ≠ [] := by simpa using (List.mem_filter.mp hm).right
  simp [nameOf, Fields.nestedString, mapOf, hn]

end Object

-- Where everything but the image is looked for.
theorem llm_source (ns : Str) {req : CreateServiceRequest} (hg : Accelerators req.gpuValues) :
    let container := nestedFirstContainer (llmInferenceServiceObject ns req)
      [str "spec", str "template", str "containers"]
    let cpu := (container.map fun c => (containerResources c).cpu).getD []
    (if cpu = [] then (some (llmModel req)).or container else container) =
      if req.cpuRequest = [] ∧ req.cpuLimit = [] then some (llmModel req) else some (main req) := by
  simp only [llm_container]
  by_cases h : llmContainer req = []
  case pos =>
    have ⟨_, hf, _⟩ := llmContainer_eq_nil h
    have hr : req.cpuRequest = [] := congrArg FormFields.cpuRequest hf
    have hl : req.cpuLimit = [] := congrArg FormFields.cpuLimit hf
    simp [h, hr, hl]
  case neg =>
    simp only [h, if_false, Option.map_some, Option.getD_some,
      (carries_main req).amounts.cpu hg, CreateServiceRequest.amounts]
    by_cases hr : req.cpuRequest = [] <;> simp [hr]

-- The request sets an amount of cpu, or nothing that is looked for with it.
def CreateServiceRequest.Found (req : CreateServiceRequest) : Prop :=
  req.cpuRequest ≠ [] ∨ req.cpuLimit ≠ [] ∨ req.form = req.bare.form ∧ req.gpuValues = .empty

theorem llm_image (ns : Str) (req : CreateServiceRequest) :
    ((nestedFirstContainer (llmInferenceServiceObject ns req)
      [str "spec", str "template", str "containers"]).bind fun c =>
        c.nestedString [str "image"]).getD [] = req.containerImage := by
  rw [llm_container]
  by_cases h : llmContainer req = []
  case pos => simp [h, (llmContainer_eq_nil h).left]
  case neg =>
    simp only [h, if_false, Option.bind_some]
    by_cases hi : req.containerImage = [] <;>
      simp [main, Fields.nestedString, llmContainer, overrides, Entries.get_set, get_setIf, hi]

-- What is recovered whatever the container says.
theorem llm_projection (ns : Str) {req : CreateServiceRequest} (hr : req.replicas ≠ 0)
    (hg : Accelerators req.gpuValues) :
    let p := projectLLMInferenceService (llmInferenceServiceObject ns req)
    let source := if req.cpuRequest = [] ∧ req.cpuLimit = [] then llmModel req else main req
    p.modelName = req.modelName ∧ p.modelURI = req.modelURI ∧ p.minReplicas = req.replicas ∧
    p.maxReplicas = req.replicas ∧ p.containerImage = req.containerImage ∧
    p.baseConfigs = req.baseConfigs.filter (· ≠ []) ∧
    p.form = projectServiceFormFields source ∧
    p.gpuValues = (containerResources source).gpuValues := by
  have hreplicas : (llmInferenceServiceObject ns req).nestedInt64 [str "spec", str "replicas"] =
      some req.replicas := by
    simp [Fields.nestedInt64, llm_spec, llmSpec, mapOf, get_setIf]
  have hname : ((llmInferenceServiceObject ns req).nestedString
      [str "spec", str "model", str "name"]).getD [] = req.modelName := by
    by_cases h : req.modelName = [] <;>
      simp [Fields.nestedString, llm_spec, llmSpec, llmModel, mapOf, Entries.get_set, get_setIf, h]
  have huri : (llmInferenceServiceObject ns req).nestedString
      [str "spec", str "model", str "uri"] = some req.modelURI := by
    simp [Fields.nestedString, llm_spec, llmSpec, llmModel, mapOf, Entries.get_set, get_setIf]
  have huri' : (llmInferenceServiceObject ns req).nestedString
      [str "spec", str "model", str "storageUri"] = none := by
    simp [Fields.nestedString, llm_spec, llmSpec, llmModel, mapOf, Entries.get_set, get_setIf]
  have hs := llm_source ns hg
  simp only [projectLLMInferenceService, llm_model, llm_image, llm_baseRefNames, hreplicas, hname,
    huri, huri', hs, Option.getD_some, Option.getD_none, hr, decide_false, Bool.false_and,
    Bool.false_eq_true, if_false, true_and]
  refine ⟨?_, ?_, ?_⟩
  case refine_1 => by_cases h : req.modelURI = [] <;> simp [coalesce, h]
  all_goals split <;> rfl

theorem llm_recovered_iff (ns : Str) {req : CreateServiceRequest} (hr : req.replicas ≠ 0)
    (hn : ∀ e ∈ req.env, e.name ≠ []) (hg : Accelerators req.gpuValues) :
    LLMRecovered (projectLLMInferenceService (llmInferenceServiceObject ns req)) req ↔
      (∀ name ∈ req.baseConfigs, name ≠ []) ∧ req.Found := by
  have ⟨hname, huri, hmin, hmax, himage, hrefs, hform, hgpu⟩ := llm_projection ns hr hg
  have hb : req.baseConfigs.filter (· ≠ []) = req.baseConfigs ↔ ∀ name ∈ req.baseConfigs, name ≠ [] := by
    simp
  have hf : projectServiceFormFields (if req.cpuRequest = [] ∧ req.cpuLimit = [] then llmModel req
        else main req) = req.form ∧
      (containerResources (if req.cpuRequest = [] ∧ req.cpuLimit = [] then llmModel req
        else main req)).gpuValues = req.gpuValues ↔ req.Found := by
    by_cases hc : req.cpuRequest = [] ∧ req.cpuLimit = []
    case neg =>
      have hfound : req.Found := by
        by_cases hreq : req.cpuRequest = []
        case neg => exact .inl hreq
        case pos => exact .inr (.inl fun hl => hc ⟨hreq, hl⟩)
      simp only [hc, if_false, hfound, iff_true]
      exact ⟨(carries_main req).form hg hn, (carries_main req).amounts.accelerators hg⟩
    case pos =>
      have hbare : Accelerators req.bare.gpuValues := fun k hk => by
        simp [CreateServiceRequest.bare] at hk
      have hm := carries_llmModel req
      have hfm := hm.form hbare (by simp [CreateServiceRequest.bare])
      have hgm := hm.amounts.accelerators hbare
      simp only [hc, and_self, if_true, hfm, hgm, CreateServiceRequest.Found, ne_eq,
        not_true, false_or]
      exact and_congr eq_comm eq_comm
  constructor
  case mp =>
    intro h
    refine ⟨hb.mp (hrefs.symm.trans h.baseConfigs), hf.mp ⟨?_, ?_⟩⟩
    · exact hform.symm.trans h.form
    · exact hgpu.symm.trans h.gpuValues
  case mpr =>
    intro ⟨hnames, hfound⟩
    have ⟨hform', hgpu'⟩ := hf.mpr hfound
    exact ⟨hname, huri, hmin, hmax, hrefs.trans (hb.mpr hnames), himage, hform.trans hform',
      hgpu.trans hgpu'⟩

theorem accelerators_llm (o : Fields) : Accelerators (projectLLMInferenceService o).gpuValues := by
  have hs : ∀ source : Option Fields,
      Accelerators (((source.map containerResources).map (·.gpuValues)).getD .empty) := by
    intro source
    cases source
    case none   => exact fun k hk => by simp at hk
    case some c => exact accelerators_containerResources c
  exact hs _

theorem found_normalise (req : CreateServiceRequest) :
    (normaliseServiceRequest req).Found ↔ req.Found := by
  by_cases hr : req.cpuRequest = [] <;> by_cases hl : req.cpuLimit = [] <;>
    by_cases hm : req.memoryLimit = [] <;>
    simp [CreateServiceRequest.Found, CreateServiceRequest.form, CreateServiceRequest.bare,
      normaliseServiceRequest, hr, hl, hm]

theorem llm_round_trip_iff (ns : Str) (req : CreateServiceRequest)
    (hn : ∀ e ∈ req.env, e.name ≠ [])
    (hk : ∀ k, (req.gpuValues.get k).isSome → k ≠ str "cpu" ∧ k ≠ str "memory") :
    LLMRecovered
      (projectLLMInferenceService (llmInferenceServiceObject ns (normaliseServiceRequest req)))
      (normaliseServiceRequest req) ↔
    (∀ name ∈ req.baseConfigs, name ≠ []) ∧ req.gpuValues.get [] = none ∧ req.Found := by
  have hr := replicas_normalise req
  have hiff := fun hg => @llm_recovered_iff ns (normaliseServiceRequest req) hr hn hg
  constructor
  case mp =>
    intro h
    have hg : Accelerators req.gpuValues := by
      have ha := accelerators_llm (llmInferenceServiceObject ns (normaliseServiceRequest req))
      rwa [h.gpuValues] at ha
    have ⟨hb, hf⟩ := (hiff hg).mp h
    exact ⟨hb, hg.get_none (by simp [isAccelerator]), (found_normalise req).mp hf⟩
  case mpr =>
    intro ⟨hb, hne, hf⟩
    have hg : Accelerators req.gpuValues := by
      intro k hs
      have hkne : k ≠ [] := by
        rintro rfl
        simp [hne] at hs
      simp [isAccelerator, hk k hs, hkne]
    exact (hiff hg).mpr ⟨hb, (found_normalise req).mpr hf⟩

def qwen : CreateServiceRequest :=
  { embed with
    name        := str "qwen"
    kind        := str "LLMInferenceService"
    modelName   := str "served-qwen"
    baseConfigs := [str "template", str "router"] }

theorem llm_round_trip_qwen :
    LLMRecovered
      (projectLLMInferenceService
        (llmInferenceServiceObject (str "team-ml") (normaliseServiceRequest qwen)))
      (normaliseServiceRequest qwen) := by
  have hk : ∀ k, (qwen.gpuValues.get k).isSome → k ≠ str "cpu" ∧ k ≠ str "memory" := by
    intro k hs
    have ha := embed_accelerators k hs
    simp only [isAccelerator, Bool.and_eq_true, decide_eq_true_eq] at ha
    exact ha.left
  exact (llm_round_trip_iff _ qwen (by decide +kernel) hk).mpr
    ⟨by decide +kernel, by decide +kernel, .inl (by decide)⟩

-- A container without an amount of cpu is passed over.
theorem container_without_cpu_lost :
    ¬∀ ns req, (∀ e ∈ req.env, e.name ≠ []) →
      (∀ k, (req.gpuValues.get k).isSome → k ≠ str "cpu" ∧ k ≠ str "memory") →
      LLMRecovered
        (projectLLMInferenceService (llmInferenceServiceObject ns (normaliseServiceRequest req)))
        (normaliseServiceRequest req) := by
  intro h
  let req := { qwen with cpuRequest := [], gpuValues := .empty }
  have hk : ∀ k, (req.gpuValues.get k).isSome → k ≠ str "cpu" ∧ k ≠ str "memory" :=
    fun k hk => by simp [req] at hk
  have hf := congrArg FormFields.args (h (str "team-ml") req (by decide) hk).form
  revert hf
  decide

end LLM
end Inference
