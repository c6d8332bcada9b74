import Mathlib.Algebra.Group.Nat.Defs
import Knaic.Inference.Build
import Knaic.Kube.Unstructured

open Go Kube

namespace K8sRes

def stopAnnotation : String :=
  "serving.kserve.io/stop"

def deploymentModeAnnotation : String :=
  "serving.kserve.io/deploymentMode"

def formatInt (i : Int) : Str :=
  decimal i.toNat

def nestedFirstContainer (o : Fields) (path : List Str) : Option Fields :=
  (o.nestedSlice path).bind fun l => l.head?.bind Value.obj?

def resourceString (o : Fields) (path : List Str) : Str :=
  match o.nestedField path with
  | some (.string s) => s
  | some (.int n)    => formatInt n
  | some (.float f)  => if f.integral then formatInt f.trunc else []
  | _                => []

-- The digits at the front as an `int64`.
def parseInt64Quantity (s : Str) : Int :=
  let digits := s.takeWhile fun c => 48 ≤ c && c ≤ 57
  (digits.foldl (fun (v : Int) c => v * 10 + (c.toNat - 48)) 0).bmod (2 ^ 64)

def isAccelerator (k : Str) : Bool :=
  k ≠ str "cpu" && k ≠ str "memory" && k ≠ []

def count? : Value → Option Int
  | .int n    => some n
  | .float f  => some f.trunc
  | .string s => if parseInt64Quantity s > 0 then some (parseInt64Quantity s) else none
  | _         => none

def collect (out : Dict Int) (e : Str × Value) : Dict Int :=
  if isAccelerator e.1 && (out.get e.1).isNone then
    match count? e.2 with
    | some n => out.set e.1 n
    | none   => out
  else
    out

def mergeAcceleratorResources (limits requests : Fields) : Dict Int :=
  requests.foldl collect (limits.foldl collect .empty)

-- Without NVIDIA's own key Go takes any accelerator for the count, here it is the first by name.
structure ContainerResources where
  cpu       : Str
  memory    : Str
  gpu       : Int
  gpuValues : Dict Int

def containerResources (o : Fields) : ContainerResources :=
  let amount (k : String) : Str :=
    let request := (o.nestedString [str "resources", str "requests", str k]).getD []
    if request = [] then (o.nestedString [str "resources", str "limits", str k]).getD []
    else request
  let limits := (o.nestedMap [str "resources", str "limits"]).getD []
  let requests := (o.nestedMap [str "resources", str "requests"]).getD []
  let gpuValues := mergeAcceleratorResources limits requests
  { cpu       := amount "cpu"
    memory    := amount "memory"
    gpu       :=
      match gpuValues.get (str "nvidia.com/gpu") with
      | some v => v
      | none   => (gpuValues.entries.head?.map Prod.snd).getD 0
    gpuValues := gpuValues }

def envProjection (o : Fields) (path : List Str) : List Inference.EnvVar :=
  ((o.nestedSlice path).getD []).filterMap fun item =>
    item.obj?.bind fun m =>
      let name := (m.nestedString [str "name"]).getD []
      let value := (m.nestedString [str "value"]).getD []
      if name ≠ [] then some ⟨name, value⟩ else none

def stringSliceFromMap (o : Fields) (path : List Str) : List Str :=
  let values := (o.nestedStringSlice path).getD []
  if values ≠ [] then values else ((o.nestedSlice path).getD []).filterMap Value.string?

-- What the edit form is filled with. An entry is left out where it is empty.
structure FormFields where
  cpuRequest    : Str
  cpuLimit      : Str
  memoryRequest : Str
  memoryLimit   : Str
  env           : List Inference.EnvVar
  command       : List Str
  args          : List Str
deriving DecidableEq

def FormFields.none : FormFields :=
  ⟨[], [], [], [], [], [], []⟩

def projectServiceFormFields (o : Fields) : FormFields where
  cpuRequest    := resourceString o [str "resources", str "requests", str "cpu"]
  cpuLimit      := resourceString o [str "resources", str "limits", str "cpu"]
  memoryRequest := resourceString o [str "resources", str "requests", str "memory"]
  memoryLimit   := resourceString o [str "resources", str "limits", str "memory"]
  env           := envProjection o [str "env"]
  command       := stringSliceFromMap o [str "command"]
  args          := stringSliceFromMap o [str "args"]

def isStopped (o : Fields) : Bool :=
  let both (path : List Str) : Bool :=
    o.nestedInt64 (path ++ [str "minReplicas"]) = some 0 &&
      o.nestedInt64 (path ++ [str "maxReplicas"]) = some 0
  match o.getAnnotations.get (str stopAnnotation) with
  | some v => v = str "true" || v = str "True"
  | none   =>
    both [str "spec", str "predictor"] || both [str "spec"] ||
      o.getKind = str "LLMInferenceService" &&
        o.nestedInt64 [str "spec", str "replicas"] = some 0

def deploymentMode (o : Fields) : Str :=
  let v := (o.getAnnotations.get (str deploymentModeAnnotation)).getD []
  if v ≠ [] then v
  else if o.getKind = str "LLMInferenceService" then str "RawDeployment"
  else str "Serverless"

theorem deploymentMode_annotated {o : Fields} {v : Str}
    (h : o.getAnnotations.get (str "serving.kserve.io/deploymentMode") = some v) (hv : v ≠ []) :
    deploymentMode o = v := by
  simp [deploymentMode, deploymentModeAnnotation, h, hv]

structure Projection where
  kind           : Str
  runtime        : Str
  modelURI       : Str
  minReplicas    : Int
  maxReplicas    : Int
  cpu            : Str
  memory         : Str
  gpu            : Int
  form           : FormFields
  gpuValues      : Dict Int
  containerImage : Str
  modelName      : Str
  baseConfigs    : List Str
  stopped        : Bool
  deploymentMode : Str

def projectInferenceService (o : Fields) : Projection :=
  let stopped := isStopped o
  let min := (o.nestedInt64 [str "spec", str "predictor", str "minReplicas"]).getD 0
  let min := if min = 0 && !stopped then 1 else min
  let max := (o.nestedInt64 [str "spec", str "predictor", str "maxReplicas"]).getD 0
  let max := if max = 0 then min else max
  let model := (o.nestedMap [str "spec", str "predictor", str "model"]).getD []
  -- The resources may be on the first container of the pod instead.
  let source :=
    if (containerResources model).cpu = [] then
      ((o.nestedMap [str "spec", str "predictor"]).bind fun pod =>
        nestedFirstContainer pod [str "containers"]).getD model
    else model
  let resources := containerResources source
  { kind           := str "InferenceService"
    runtime        := (model.nestedString [str "runtime"]).getD []
    modelURI       := (model.nestedString [str "storageUri"]).getD []
    minReplicas    := min
    maxReplicas    := max
    cpu            := resources.cpu
    memory         := resources.memory
    gpu            := resources.gpu
    form           := projectServiceFormFields source
    gpuValues      := resources.gpuValues
    containerImage := []
    modelName      := []
    baseConfigs    := []
    stopped        := stopped
    deploymentMode := deploymentMode o }

-- The name of an object in a list, if it has one.
def nameOf (raw : Value) : Option Str :=
  raw.obj?.bind fun m =>
    let name := (m.nestedString [str "name"]).getD []
    if name ≠ [] then some name else none

def baseRefNames (o : Fields) : List Str :=
  ((o.nestedSlice [str "spec", str "baseRefs"]).getD []).filterMap nameOf

-- The first of the texts that is not empty.
def coalesce : List Str → Str
  | []     => []
  | s :: l => if s ≠ [] then s else coalesce l

def projectLLMInferenceService (o : Fields) : Projection :=
  let string (path : List Str) := (o.nestedString path).getD []
  let stopped := isStopped o
  let model := o.nestedMap [str "spec", str "model"]
  let firstRef := (o.nestedSlice [str "spec", str "baseRefs"]).bind fun refs =>
    refs.head?.bind fun ref => ref.obj?.bind fun m => m.nestedString [str "name"]
  let replicas := (o.nestedInt64 [str "spec", str "replicas"]).getD 0
  let replicas := if replicas = 0 && !stopped then 1 else replicas
  let container := nestedFirstContainer o [str "spec", str "template", str "containers"]
  let cpu := (container.map fun c => (containerResources c).cpu).getD []
  -- Without an amount of cpu everything is looked for on the model.
  let source := if cpu = [] then model.or container else container
  let resources := source.map containerResources
  { kind           := str "LLMInferenceService"
    runtime        := coalesce [(o.getLabels.get (str "knaic.io/runtime")).getD [],
      string [str "spec", str "runtime"], string [str "spec", str "runtimeRef", str "name"],
      firstRef.getD []]
    modelURI       := coalesce [string [str "spec", str "model", str "uri"],
      string [str "spec", str "model", str "storageUri"]]
    minReplicas    := replicas
    maxReplicas    := replicas
    cpu            := (resources.map (·.cpu)).getD []
    memory         := (resources.map (·.memory)).getD []
    gpu            := (resources.map (·.gpu)).getD 0
    form           := (source.map projectServiceFormFields).getD .none
    gpuValues      := (resources.map (·.gpuValues)).getD .empty
    containerImage := (container.bind fun c => c.nestedString [str "image"]).getD []
    modelName      := string [str "spec", str "model", str "name"]
    baseConfigs    := baseRefNames o
    stopped        := stopped
    deploymentMode := deploymentMode o }

def lower (b : UInt8) : UInt8 :=
  if 65 ≤ b && b ≤ 90 then b + 32 else b

def containsCI (s sub : Str) : Bool :=
  (s.map lower).tails.any fun t => (sub.map lower).isPrefixOf t

structure RuntimeProjection where
  runtime               : Str
  image                 : Str
  supportedModelFormats : List Str
  defaultArgs           : List Str
  cpu                   : Str
  memory                : Str
  gpu                   : Int
  cpuRequest            : Str
  cpuLimit              : Str
  memoryRequest         : Str
  memoryLimit           : Str
  gpuValues             : Dict Int
  securityContext       : Option Fields

def projectServingRuntime (o : Fields) : RuntimeProjection :=
  let container := nestedFirstContainer o [str "spec", str "containers"]
  let c := container.getD []
  let image := (c.nestedString [str "image"]).getD []
  let resources := containerResources c
  let runtime := (o.getLabels.get (str "knaic.io/runtime")).getD []
  { runtime               :=
      if runtime ≠ [] then runtime
      else if containsCI image (str "vllm") then str "vllm"
      else if containsCI image (str "sglang") then str "sglang"
      else str "custom"
    image                 := image
    supportedModelFormats :=
      ((o.nestedSlice [str "spec", str "supportedModelFormats"]).getD []).filterMap nameOf
    defaultArgs           := (c.nestedStringSlice [str "args"]).getD []
    cpu                   := resources.cpu
    memory                := resources.memory
    gpu                   := if resources.gpu > 0 then resources.gpu else 0
    cpuRequest            := resourceString c [str "resources", str "requests", str "cpu"]
    cpuLimit              := resourceString c [str "resources", str "limits", str "cpu"]
    memoryRequest         := resourceString c [str "resources", str "requests", str "memory"]
    memoryLimit           := resourceString c [str "resources", str "limits", str "memory"]
    gpuValues             := resources.gpuValues
    securityContext       := c.nestedMap [str "securityContext"] }

end K8sRes
