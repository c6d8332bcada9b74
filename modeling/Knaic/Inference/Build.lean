import Knaic.Go.Dict
import Knaic.Kube.Unstructured

open Go Kube

namespace Inference

structure EnvVar where
  name  : Str
  value : Str
deriving DecidableEq

structure Capabilities where
  add  : List Str
  drop : List Str
deriving DecidableEq

structure SeccompProfile where
  type : Str
deriving DecidableEq

structure SecurityContext where
  allowPrivilegeEscalation : Option Bool
  capabilities             : Option Capabilities
  privileged               : Option Bool
  runAsNonRoot             : Option Bool
  runAsUser                : Option Int
  seccompProfile           : Option SeccompProfile
deriving DecidableEq

-- The kinds are told apart by name. Fields that a kind does not have are ignored.
structure CreateServiceRequest where
  name           : Str
  kind           : Str
  runtime        : Str
  modelURI       : Str
  replicas       : Int
  baseConfigs    : List Str
  modelName      : Str
  containerImage : Str
  deploymentMode : Str
  cpuRequest     : Str
  cpuLimit       : Str
  memoryRequest  : Str
  memoryLimit    : Str
  gpuValues      : Dict Int
  env            : List EnvVar
  command        : List Str
  args           : List Str

structure CreateRuntimeRequest where
  name                  : Str
  image                 : Str
  runtime               : Str
  supportedModelFormats : List Str
  args                  : List Str
  securityContext       : SecurityContext
  cpuRequest            : Str
  cpuLimit              : Str
  memoryRequest         : Str
  memoryLimit           : Str
  gpuValues             : Dict Int
  gpuLimit              : Int

def deploymentModeAnnotation : String :=
  "serving.kserve.io/deploymentMode"

-- The quantities of a container: cpu and memory if there are any, and whatever accelerators there are.
def quantities (cpu memory : Str) (gpuValues : Entries Int) : Fields :=
  let out : Fields := []
  let out := if cpu ≠ [] then Entries.set out (str "cpu") (.string cpu) else out
  let out := if memory ≠ [] then Entries.set out (str "memory") (.string memory) else out
  Entries.setAll out (gpuValues.map fun e => (e.1, .int e.2))

def resourceRequests (req : CreateServiceRequest) : Fields :=
  quantities req.cpuRequest req.memoryRequest req.gpuValues.entries

def resourceLimits (req : CreateServiceRequest) : Fields :=
  quantities req.cpuLimit req.memoryLimit req.gpuValues.entries

def runtimeResources (cpu memory : Str) (gpu : Dict Int) (legacyGPU : Int) : Fields :=
  if gpu.entries ≠ [] then quantities cpu memory gpu.entries
  else if legacyGPU > 0 then quantities cpu memory [(str "nvidia.com/gpu", legacyGPU)]
  else quantities cpu memory []

def envSlice (env : List EnvVar) : List Value :=
  env.map fun e => .obj (mapOf [("name", .string e.name), ("value", .string e.value)])

def normaliseServiceRequest (req : CreateServiceRequest) : CreateServiceRequest :=
  { req with
    replicas    := if req.replicas = 0 then 1 else req.replicas
    cpuLimit    := if req.cpuLimit = [] then req.cpuRequest else req.cpuLimit
    memoryLimit := if req.memoryLimit = [] then req.memoryRequest else req.memoryLimit }

-- An entry that is set only where the request has something to put there.
def setIf (c : Bool) (o : Fields) (k : String) (v : Value) : Fields :=
  if c then Entries.set o (str k) v else o

theorem get_setIf (c : Bool) (o : Fields) (k : String) (v : Value) (k' : Str) :
    (setIf c o k v).get k' = if c ∧ k' = str k then some v else o.get k' := by
  cases c <;> simp [setIf, Entries.get_set]

-- The fields of a container that are set in the same way wherever they go.
def overrides (req : CreateServiceRequest) (o : Fields) : Fields :=
  let o := setIf (req.command ≠ []) o "command" (.list (toAnySlice req.command))
  let o := setIf (req.args ≠ []) o "args" (.list (toAnySlice req.args))
  setIf (req.env ≠ []) o "env" (.list (envSlice req.env))

def inferenceServiceModel (req : CreateServiceRequest) : Fields :=
  overrides req (mapOf [
    ("modelFormat", .obj (mapOf [("name", .string (str "huggingface"))])),
    ("runtime", .string req.runtime),
    ("storageUri", .string req.modelURI),
    ("resources", .obj (mapOf [
      ("requests", .obj (resourceRequests req)),
      ("limits", .obj (resourceLimits req))]))])

def inferenceServiceObject (ns : Str) (req : CreateServiceRequest) : Fields :=
  let metadata := mapOf [
    ("name", .string req.name),
    ("namespace", .string ns),
    ("labels", .obj (mapOf [
      ("knaic.io/managed", .string (str "true")),
      ("knaic.io/component", .string (str "inference"))]))]
  let metadata := setIf (req.deploymentMode ≠ []) metadata "annotations"
    (.obj (mapOf [( deploymentModeAnnotation, .string req.deploymentMode)]))
  mapOf [
    ("apiVersion", .string (str "serving.kserve.io/v1beta1")),
    ("kind", .string (str "InferenceService")),
    ("metadata", .obj metadata),
    ("spec", .obj (mapOf [("predictor", .obj (mapOf [
      ("minReplicas", .int req.replicas),
      ("maxReplicas", .int req.replicas),
      ("model", .obj (inferenceServiceModel req))]))]))]

-- The container is left out when it says nothing, so as not to shadow what the base configurations
-- provide.
def llmContainer (req : CreateServiceRequest) : Fields :=
  let container := setIf (req.containerImage ≠ []) [] "image" (.string req.containerImage)
  let container := overrides req container
  let requests := resourceRequests req
  let limits := resourceLimits req
  let resources := setIf (requests ≠ []) [] "requests" (.obj requests)
  let resources := setIf (limits ≠ []) resources "limits" (.obj limits)
  setIf (requests ≠ [] || limits ≠ []) container "resources" (.obj resources)

def llmModel (req : CreateServiceRequest) : Fields :=
  setIf (req.modelName ≠ []) (mapOf [("uri", .string req.modelURI)])
    "name" (.string req.modelName)

def llmBaseRefs (req : CreateServiceRequest) : List Value :=
  (req.baseConfigs.filter (· ≠ [])).map fun name => .obj (mapOf [("name", .string name)])

def llmSpec (req : CreateServiceRequest) : Fields :=
  let spec := mapOf [("model", .obj (llmModel req)), ("replicas", .int req.replicas)]
  let refs := llmBaseRefs req
  let spec := setIf (refs ≠ []) spec "baseRefs" (.list refs)
  let container := llmContainer req
  setIf (container ≠ []) spec "template" (.obj (mapOf [
    ("containers", .list [.obj (Entries.set container (str "name") (.string (str "main")))])]))

def llmInferenceServiceObject (ns : Str) (req : CreateServiceRequest) : Fields :=
  mapOf [
    ("apiVersion", .string (str "serving.kserve.io/v1alpha2")),
    ("kind", .string (str "LLMInferenceService")),
    ("metadata", .obj (mapOf [
      ("name", .string req.name),
      ("namespace", .string ns),
      ("labels", .obj (mapOf [
        ("knaic.io/managed", .string (str "true")),
        ("knaic.io/component", .string (str "inference"))]))])),
    ("spec", .obj (llmSpec req))]

def capabilitiesFields (caps : Capabilities) : Fields :=
  let m := setIf (caps.drop ≠ []) [] "drop" (.list (toAnySlice caps.drop))
  setIf (caps.add ≠ []) m "add" (.list (toAnySlice caps.add))

def setCapabilities (caps : Option Capabilities) (out : Fields) : Fields :=
  match caps with
  | none      => out
  | some caps =>
    setIf (capabilitiesFields caps ≠ []) out "capabilities" (.obj (capabilitiesFields caps))

def setSeccompProfile (profile : Option SeccompProfile) (out : Fields) : Fields :=
  match profile with
  | none         => out
  | some profile =>
    setIf (profile.type ≠ []) out "seccompProfile" (.obj (mapOf [("type", .string profile.type)]))

def runtimeSecurityContext (sc : SecurityContext) : Fields :=
  let out := mapOf [
    ("allowPrivilegeEscalation", .bool (sc.allowPrivilegeEscalation.getD false)),
    ("capabilities", .obj (mapOf [("drop", .list (toAnySlice [str "ALL"]))])),
    ("privileged", .bool (sc.privileged.getD false)),
    ("runAsNonRoot", .bool (sc.runAsNonRoot.getD true)),
    ("runAsUser", .int (sc.runAsUser.getD 1000)),
    ("seccompProfile", .obj (mapOf [("type", .string (str "RuntimeDefault"))]))]
  setSeccompProfile sc.seccompProfile (setCapabilities sc.capabilities out)

def runtimeFormats (req : CreateRuntimeRequest) : List Value :=
  let format (f : Str) := Value.obj (mapOf [("name", .string f), ("autoSelect", .bool true)])
  let formats := req.supportedModelFormats.map format
  if formats = [] then [format (str "huggingface")] else formats

def runtimeContainer (req : CreateRuntimeRequest) : Fields :=
  let cpuLimit := if req.cpuLimit = [] then req.cpuRequest else req.cpuLimit
  let memoryLimit := if req.memoryLimit = [] then req.memoryRequest else req.memoryLimit
  let requests := runtimeResources req.cpuRequest req.memoryRequest req.gpuValues req.gpuLimit
  let limits := runtimeResources cpuLimit memoryLimit req.gpuValues req.gpuLimit
  let container := mapOf [
    ("name", .string (str "kserve-container")),
    ("image", .string req.image),
    ("args", .list (toAnySlice req.args)),
    ("securityContext", .obj (runtimeSecurityContext req.securityContext))]
  let resources := setIf (requests ≠ []) [] "requests" (.obj requests)
  let resources := setIf (limits ≠ []) resources "limits" (.obj limits)
  setIf (resources ≠ []) container "resources" (.obj resources)

def runtimeSpec (req : CreateRuntimeRequest) : Fields :=
  mapOf [
    ("supportedModelFormats", .list (runtimeFormats req)),
    ("containers", .list [.obj (runtimeContainer req)])]

def runtimeLabels (runtime : Str) : List (String × Str) :=
  [("knaic.io/managed", str "true"), ("knaic.io/component", str "inference"),
    ("knaic.io/runtime", runtime)]

-- The object that `CreateRuntime` creates.
def runtimeObject (ns : Str) (req : CreateRuntimeRequest) : Fields :=
  mapOf [
    ("apiVersion", .string (str "serving.kserve.io/v1alpha1")),
    ("kind", .string (str "ServingRuntime")),
    ("metadata", .obj (mapOf [
      ("name", .string req.name),
      ("namespace", .string ns),
      ("labels", .obj (mapOf ((runtimeLabels req.runtime).map fun e => (e.1, .string e.2))))])),
    ("spec", .obj (runtimeSpec req))]

end Inference
