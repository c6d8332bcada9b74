import Knaic.Inference.RoundTrip

open Go Kube K8sRes

namespace Inference

variable {ns : Str} {sc : SecurityContext} {req : CreateRuntimeRequest}

-- What the builder puts where the request says nothing, as a request that says it.
def SecurityContext.caps (sc : SecurityContext) : Capabilities :=
  match sc.capabilities with
  | none      => ⟨[], [str "ALL"]⟩
  | some caps => if caps.add = [] ∧ caps.drop = [] then ⟨[], [str "ALL"]⟩ else caps

def SecurityContext.seccomp (sc : SecurityContext) : Str :=
  match sc.seccompProfile with
  | none         => str "RuntimeDefault"
  | some profile => if profile.type = [] then str "RuntimeDefault" else profile.type

def SecurityContext.filled (sc : SecurityContext) : SecurityContext where
  allowPrivilegeEscalation := some (sc.allowPrivilegeEscalation.getD false)
  capabilities             := some sc.caps
  privileged               := some (sc.privileged.getD false)
  runAsNonRoot             := some (sc.runAsNonRoot.getD true)
  runAsUser                := some (sc.runAsUser.getD 1000)
  seccompProfile           := some ⟨sc.seccomp⟩

def CreateRuntimeRequest.accelerators (req : CreateRuntimeRequest) : Dict Int :=
  if req.gpuValues.entries ≠ [] then req.gpuValues
  else if req.gpuLimit > 0 then Dict.empty.set (str "nvidia.com/gpu") req.gpuLimit
  else .empty

def CreateRuntimeRequest.filled (req : CreateRuntimeRequest) : CreateRuntimeRequest :=
  { req with
    supportedModelFormats :=
      if req.supportedModelFormats = [] then [str "huggingface"] else req.supportedModelFormats
    securityContext       := req.securityContext.filled
    cpuLimit              := if req.cpuLimit = [] then req.cpuRequest else req.cpuLimit
    memoryLimit           := if req.memoryLimit = [] then req.memoryRequest else req.memoryLimit
    gpuValues             := req.accelerators
    gpuLimit              := 0 }

-- How the request body is decoded.
def decodeSecurityContext (o : Fields) : SecurityContext where
  allowPrivilegeEscalation := (o.get (str "allowPrivilegeEscalation")).bind Value.bool?
  capabilities             := (o.nestedMap [str "capabilities"]).map fun caps =>
    ⟨(caps.nestedStringSlice [str "add"]).getD [], (caps.nestedStringSlice [str "drop"]).getD []⟩
  privileged               := (o.get (str "privileged")).bind Value.bool?
  runAsNonRoot             := (o.get (str "runAsNonRoot")).bind Value.bool?
  runAsUser                := (o.get (str "runAsUser")).bind Value.int?
  seccompProfile           := (o.nestedMap [str "seccompProfile"]).map fun profile =>
    ⟨(profile.nestedString [str "type"]).getD []⟩

-- The request that is made of what is projected.
def requestOf (name : Str) (p : RuntimeProjection) : CreateRuntimeRequest where
  name                  := name
  image                 := p.image
  runtime               := p.runtime
  supportedModelFormats := p.supportedModelFormats
  args                  := p.defaultArgs
  securityContext       := decodeSecurityContext (p.securityContext.getD [])
  cpuRequest            := p.cpuRequest
  cpuLimit              := p.cpuLimit
  memoryRequest         := p.memoryRequest
  memoryLimit           := p.memoryLimit
  gpuValues             := p.gpuValues
  gpuLimit              := 0

theorem runtimeResources_eq (cpu memory : Str) (req : CreateRuntimeRequest) :
    runtimeResources cpu memory req.gpuValues req.gpuLimit =
      quantities cpu memory req.accelerators.entries := by
  simp only [runtimeResources, CreateRuntimeRequest.accelerators]
  split
  · rfl
  · split <;> rfl

theorem runtimeResources_filled (cpu memory : Str) (g : Dict Int) :
    runtimeResources cpu memory g 0 = quantities cpu memory g.entries := by
  simp only [runtimeResources]
  split
  case isTrue    => rfl
  case isFalse h => simp [not_not.mp h]

section SecurityContext

def securityFields (escalation : Bool) (caps : Fields) (privileged nonRoot : Bool) (user : Int)
    (seccomp : Str) : Fields :=
  mapOf [
    ("allowPrivilegeEscalation", .bool escalation),
    ("capabilities", .obj caps),
    ("privileged", .bool privileged),
    ("runAsNonRoot", .bool nonRoot),
    ("runAsUser", .int user),
    ("seccompProfile", .obj (mapOf [("type", .string seccomp)]))]

variable {e p n : Bool} {m m' : Fields} {u : Int} {s s' : Str}

-- A field that is set once more.
theorem set_securityFields (k : String) (v : Value) (o : Fields) (h : o.Sorted)
    (hv : o.get (str k) = some v)
    (ho : ∀ k', k' ≠ str k → (securityFields e m p n u s).get k' = o.get k') :
    Entries.set (securityFields e m p n u s) (str k) v = o := by
  apply Entries.Sorted.ext _ h
  · intro k'
    rw [Entries.get_set]
    split
    case isTrue hk  => rw [hk, hv]
    case isFalse hk => exact ho k' hk
  · exact (mapOf_sorted _).set _ _

theorem capabilitiesFields_eq_nil {caps : Capabilities} :
    capabilitiesFields caps = [] ↔ caps.add = [] ∧ caps.drop = [] := by
  by_cases ha : caps.add = [] <;> by_cases hd : caps.drop = [] <;>
    simp [capabilitiesFields, setIf, ha, hd]

theorem setCapabilities_eq (sc : SecurityContext) :
    setCapabilities sc.capabilities
      (securityFields e (capabilitiesFields ⟨[], [str "ALL"]⟩) p n u s) =
        securityFields e (capabilitiesFields sc.caps) p n u s := by
  simp only [SecurityContext.caps]
  cases sc.capabilities
  case none      => rfl
  case some caps =>
    by_cases h : caps.add = [] ∧ caps.drop = []
    case pos => simp [setCapabilities, capabilitiesFields_eq_nil.mpr h, h, setIf]
    case neg =>
      have hne : capabilitiesFields caps ≠ [] := fun hn => h (capabilitiesFields_eq_nil.mp hn)
      simp only [setCapabilities, hne, ne_eq, not_false_eq_true, decide_true, setIf, if_true, h,
        if_false]
      apply set_securityFields _ _ _ (mapOf_sorted _)
      · simp [mapOf, Entries.get_set]
      · intro k hk
        simp [securityFields, mapOf, Entries.get_set, hk]

theorem setSeccompProfile_eq (sc : SecurityContext) :
    setSeccompProfile sc.seccompProfile (securityFields e m p n u (str "RuntimeDefault")) =
      securityFields e m p n u sc.seccomp := by
  simp only [SecurityContext.seccomp]
  cases sc.seccompProfile
  case none         => rfl
  case some profile =>
    by_cases h : profile.type = []
    case pos => simp [setSeccompProfile, h, setIf]
    case neg =>
      simp only [setSeccompProfile, h, ne_eq, not_false_eq_true, decide_true, setIf, if_true,
        if_false]
      apply set_securityFields _ _ _ (mapOf_sorted _)
      · simp [mapOf]
      · intro k hk
        simp [securityFields, mapOf, Entries.get_set, hk]

theorem runtimeSecurityContext_eq (sc : SecurityContext) :
    runtimeSecurityContext sc =
      securityFields (sc.allowPrivilegeEscalation.getD false) (capabilitiesFields sc.caps)
        (sc.privileged.getD false) (sc.runAsNonRoot.getD true) (sc.runAsUser.getD 1000)
        sc.seccomp := by
  rw [← setSeccompProfile_eq, ← setCapabilities_eq]
  rfl

theorem runtimeSecurityContext_filled (sc : SecurityContext) :
    runtimeSecurityContext sc.filled = runtimeSecurityContext sc := by
  have hc : sc.filled.caps = sc.caps := by
    simp only [SecurityContext.filled, SecurityContext.caps]
    split
    · simp
    · split <;> simp_all
  have hs : sc.filled.seccomp = sc.seccomp := by
    simp only [SecurityContext.filled, SecurityContext.seccomp]
    split
    · simp
    · split <;> simp_all
  rw [runtimeSecurityContext_eq, runtimeSecurityContext_eq, hc, hs]
  rfl

theorem decode_runtimeSecurityContext (sc : SecurityContext) :
    decodeSecurityContext (runtimeSecurityContext sc) = sc.filled := by
  rw [runtimeSecurityContext_eq]
  have ha : ∀ caps, ((capabilitiesFields caps).nestedStringSlice [str "add"]).getD [] = caps.add := by
    intro caps
    by_cases h : caps.add = [] <;>
      simp [capabilitiesFields, Fields.nestedStringSlice, Fields.nestedSlice, get_setIf, h,
        mapM_toAnySlice]
  have hd : ∀ caps, ((capabilitiesFields caps).nestedStringSlice [str "drop"]).getD [] = caps.drop := by
    intro caps
    by_cases h : caps.drop = [] <;>
      simp [capabilitiesFields, Fields.nestedStringSlice, Fields.nestedSlice, get_setIf, h,
        mapM_toAnySlice]
  simp [decodeSecurityContext, securityFields, mapOf, Entries.get_set, Fields.nestedMap,
    Fields.nestedString, SecurityContext.filled, ha, hd]

end SecurityContext

theorem runtimeSpec_filled (req : CreateRuntimeRequest) :
    runtimeSpec req.filled = runtimeSpec req := by
  have hr : ∀ cpu memory, runtimeResources cpu memory req.filled.gpuValues req.filled.gpuLimit =
      runtimeResources cpu memory req.gpuValues req.gpuLimit := by
    intro cpu memory
    rw [runtimeResources_eq cpu memory req]
    exact runtimeResources_filled cpu memory req.accelerators
  have hs : runtimeSecurityContext req.filled.securityContext =
      runtimeSecurityContext req.securityContext := runtimeSecurityContext_filled _
  have hf : runtimeFormats req.filled = runtimeFormats req := by
    by_cases h : req.supportedModelFormats = [] <;>
      simp [runtimeFormats, CreateRuntimeRequest.filled, h]
  have hc : runtimeContainer req.filled = runtimeContainer req := by
    simp only [runtimeContainer, hr, hs]
    by_cases hc : req.cpuLimit = [] <;> by_cases hm : req.memoryLimit = [] <;>
      simp [CreateRuntimeRequest.filled, hc, hm]
  rw [runtimeSpec, hf, hc]
  rfl

section Recovered

variable (ns : Str) (req : CreateRuntimeRequest)

theorem runtime_formats :
    (runtimeObject ns req).nestedSlice [str "spec", str "supportedModelFormats"] =
      some (runtimeFormats req) := by
  simp [runtimeObject, runtimeSpec, Fields.nestedSlice, mapOf, Entries.get_set]

theorem runtime_container :
    nestedFirstContainer (runtimeObject ns req) [str "spec", str "containers"] =
      some (runtimeContainer req) := by
  simp [runtimeObject, runtimeSpec, nestedFirstContainer, Fields.nestedSlice, mapOf]

theorem runtime_label :
    (runtimeObject ns req).getLabels.get (str "knaic.io/runtime") = some req.runtime := by
  have hm : (runtimeObject ns req).nestedMap [str "metadata", str "labels"] =
      some (strings (((Entries.set [] (str "knaic.io/managed") (str "true")).set
        (str "knaic.io/component") (str "inference")).set
        (str "knaic.io/runtime") req.runtime)) := by
    simp [runtimeObject, runtimeLabels, Fields.nestedMap, mapOf, Entries.get_set, ← set_strings]
    rfl
  simp [Fields.getLabels, Fields.nestedStringMap_strings hm]

theorem names_runtimeFormats (hf : ∀ f ∈ req.supportedModelFormats, f ≠ []) :
    (runtimeFormats req).filterMap nameOf = req.filled.supportedModelFormats := by
  have hn : ∀ f : Str, f ≠ [] →
      nameOf (.obj (mapOf [("name", .string f), ("autoSelect", .bool true)])) = some f := by
    intro f hf
    simp [nameOf, Fields.nestedString, mapOf, Entries.get_set, hf]
  by_cases h : req.supportedModelFormats = []
  case pos =>
    have hh := hn (str "huggingface") (by decide)
    simp [runtimeFormats, CreateRuntimeRequest.filled, h, hh]
  case neg =>
    simp only [runtimeFormats, CreateRuntimeRequest.filled, h, List.map_eq_nil_iff, if_false,
      List.filterMap_map]
    exact (List.filterMap_congr fun f hm => hn f (hf f hm)).trans List.filterMap_some

def CreateRuntimeRequest.amounts (req : CreateRuntimeRequest) : Amounts :=
  ⟨req.cpuRequest, req.cpuLimit, req.memoryRequest, req.memoryLimit, req.gpuValues⟩

theorem amounts_runtimeContainer : req.filled.amounts.In (runtimeContainer req) := by
  let requests := runtimeResources req.filled.cpuRequest req.filled.memoryRequest req.gpuValues
    req.gpuLimit
  let limits := runtimeResources req.filled.cpuLimit req.filled.memoryLimit req.gpuValues
    req.gpuLimit
  have hr : requests = quantities _ _ req.accelerators.entries := runtimeResources_eq ..
  have hl : limits = quantities _ _ req.accelerators.entries := runtimeResources_eq ..
  have hc : runtimeContainer req =
      let resources := setIf (requests ≠ []) [] "requests" (.obj requests)
      let resources := setIf (limits ≠ []) resources "limits" (.obj limits)
      setIf (resources ≠ []) (mapOf [
        ("name", .string (str "kserve-container")),
        ("image", .string req.image),
        ("args", .list (toAnySlice req.args)),
        ("securityContext", .obj (runtimeSecurityContext req.securityContext))])
        "resources" (.obj resources) := rfl
  have ho : req.filled.amounts.In (runtimeContainer req) ↔
      ((runtimeContainer req).nestedMap [str "resources", str "requests"]).getD [] = requests ∧
      ((runtimeContainer req).nestedMap [str "resources", str "limits"]).getD [] = limits := by
    rw [hr, hl]
    exact ⟨fun h => ⟨h.requests, h.limits⟩, fun h => ⟨h.left, h.right⟩⟩
  rw [ho, hc]
  generalize requests = requests
  generalize limits = limits
  by_cases hr : requests = [] <;> by_cases hl : limits = [] <;>
    simp [Fields.nestedMap, mapOf, Entries.get_set, setIf, hr, hl]

theorem runtimeContainer_get {k : String} (hk : k ≠ "resources") :
    (runtimeContainer req).get (str k) = (mapOf [
      ("name", .string (str "kserve-container")),
      ("image", .string req.image),
      ("args", .list (toAnySlice req.args)),
      ("securityContext", .obj (runtimeSecurityContext req.securityContext))]).get (str k) := by
  simp [runtimeContainer, get_setIf, hk]

end Recovered

theorem accelerators_filled (hg : Accelerators req.gpuValues) : Accelerators req.accelerators := by
  simp only [CreateRuntimeRequest.accelerators]
  split
  case isTrue => exact hg
  split
  case isTrue =>
    intro k hk
    simp only [Dict.get_set] at hk
    split at hk
    case isTrue h => subst h; decide
    case isFalse  => simp at hk
  case isFalse => exact fun k hk => by simp at hk

theorem runtime_recovered (ns : Str) (req : CreateRuntimeRequest) (hr : req.runtime ≠ [])
    (hf : ∀ f ∈ req.supportedModelFormats, f ≠ []) (hg : Accelerators req.gpuValues) :
    requestOf req.name (projectServingRuntime (runtimeObject ns req)) = req.filled := by
  have ha := amounts_runtimeContainer req
  have hg' := accelerators_filled hg
  have himage : (runtimeContainer req).nestedString [str "image"] = some req.image := by
    simp [Fields.nestedString, runtimeContainer_get, mapOf, Entries.get_set]
  have hargs : (runtimeContainer req).nestedStringSlice [str "args"] = some req.args := by
    simp [Fields.nestedStringSlice, Fields.nestedSlice, runtimeContainer_get, mapOf,
      Entries.get_set, mapM_toAnySlice]
  have hsc : (runtimeContainer req).nestedMap [str "securityContext"] =
      some (runtimeSecurityContext req.securityContext) := by
    simp [Fields.nestedMap, runtimeContainer_get, mapOf]
  simp only [requestOf, projectServingRuntime, runtime_container, runtime_formats, runtime_label,
    Option.getD_some, himage, hargs, hsc, decode_runtimeSecurityContext,
    names_runtimeFormats req hf]
  rw [resourceString_of_get (ha.cpuRequest hg'), resourceString_of_get (ha.cpuLimit hg'),
    resourceString_of_get (ha.memoryRequest hg'), resourceString_of_get (ha.memoryLimit hg'),
    ha.accelerators hg']
  simp only [ne_eq, hr, not_false_eq_true, if_true]
  rfl

theorem runtime_round_trip (ns : Str) (req : CreateRuntimeRequest) (hr : req.runtime ≠ [])
    (hf : ∀ f ∈ req.supportedModelFormats, f ≠ []) (hg : Accelerators req.gpuValues) :
    requestOf req.name (projectServingRuntime (runtimeObject ns req)) = req.filled ∧
    runtimeSpec (requestOf req.name (projectServingRuntime (runtimeObject ns req))) =
      runtimeSpec req := by
  have h := runtime_recovered ns req hr hf hg
  exact ⟨h, by rw [h]; exact runtimeSpec_filled req⟩

def sglang : CreateRuntimeRequest where
  name                  := str "custom-runtime"
  image                 := str "registry.example.com/ml/runtime:latest"
  runtime               := str "sglang"
  supportedModelFormats := [str "huggingface"]
  args                  := [str "--port", str "8080"]
  securityContext       := ⟨some false, some ⟨[], [str "ALL"]⟩, some false, some true, some 1000,
    some ⟨str "RuntimeDefault"⟩⟩
  cpuRequest            := str "1"
  cpuLimit              := str "4"
  memoryRequest         := str "2Gi"
  memoryLimit           := str "16Gi"
  gpuValues             := embed.gpuValues
  gpuLimit              := 0

theorem runtime_round_trip_sglang :
    requestOf sglang.name (projectServingRuntime (runtimeObject (str "team-ml") sglang)) =
      sglang.filled ∧
    runtimeSpec (requestOf sglang.name (projectServingRuntime (runtimeObject (str "team-ml") sglang))) =
      runtimeSpec sglang :=
  runtime_round_trip _ sglang (by decide) (by decide) embed_accelerators

-- What is given for cpu among the accelerators takes the place of the cpu request, and is not an
-- accelerator when it is read.
theorem cpu_as_accelerator_lost :
    ¬∀ ns req, req.runtime ≠ [] → (∀ f ∈ req.supportedModelFormats, f ≠ []) → req.filled = req →
      requestOf req.name (projectServingRuntime (runtimeObject ns req)) = req ∧
      runtimeSpec (requestOf req.name (projectServingRuntime (runtimeObject ns req))) =
        runtimeSpec req := by
  intro h
  let req := { sglang with gpuValues := Dict.empty.set (str "cpu") 4 }
  have hr := (h (str "team-ml") req (by decide) (by decide) rfl).left
  have hc := congrArg CreateRuntimeRequest.cpuRequest hr
  revert hc
  decide

end Inference
