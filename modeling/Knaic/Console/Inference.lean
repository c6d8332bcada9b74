import Knaic.Js.Text

open Js

namespace Console

-- A number by its bits, where nothing computes with it.
abbrev Number :=
  UInt64

structure GPUProfileField where
  key : Str

structure GPUProfile where
  id     : Str
  fields : List GPUProfileField

def GPUProfile.keys (p : GPUProfile) : Finset Str :=
  (p.fields.map GPUProfileField.key).toFinset

inductive InferenceKind
  | llmInferenceService
  | inferenceService
deriving DecidableEq

structure EnvVar where
  name  : Str
  value : Str
deriving DecidableEq

structure Resources where
  cpu    : Option Str
  memory : Option Str

structure InferenceService where
  name           : Str
  kind           : InferenceKind
  runtime        : Str
  modelUri       : Str
  minReplicas    : Int
  maxReplicas    : Int
  resources      : Resources
  cpuRequest     : Option Str
  cpuLimit       : Option Str
  memoryRequest  : Option Str
  memoryLimit    : Option Str
  gpuValues      : Option (Record Number)
  baseConfigs    : Option (List Str)
  modelName      : Option Str
  containerImage : Option Str
  env            : Option (List EnvVar)
  command        : Option (List Str)
  args           : Option (List Str)
  deploymentMode : Option Str

structure RuntimeSecurityContext where
  allowPrivilegeEscalation : Option Bool
  capabilitiesDrop         : Option (List Str)
  capabilitiesAdd          : Option (List Str)
  privileged               : Option Bool
  runAsNonRoot             : Option Bool
  runAsUser                : Option Int
  seccompProfileType       : Option Str

structure ServingRuntime where
  name                  : Str
  runtime               : Str
  image                 : Str
  supportedModelFormats : List Str
  defaultArgs           : Option (List Str)
  resources             : Resources
  cpuRequest            : Option Str
  cpuLimit              : Option Str
  memoryRequest         : Option Str
  memoryLimit           : Option Str
  gpuValues             : Option (Record Number)
  securityContext       : Option RuntimeSecurityContext

-- A value that a condition takes for `false` when it is absent or an empty text.
def truthy : Option Str → Option Str
  | none   => none
  | some s => if s = [] then none else some s

-- Both modals have the same `matchProfile`.
def matchProfile (profiles : List GPUProfile) (gpuValues : Option (Record Number)) : Option Str :=
  match gpuValues with
  | none           => none
  | some gpuValues =>
    if gpuValues.keys = ∅ then
      none
    else
      (profiles.find? fun p =>
        p.keys.card = gpuValues.keys.card ∧ p.keys ⊆ gpuValues.keys).map GPUProfile.id

-- The accelerators that a modal submits.
def submittedValues (profiles : List GPUProfile) (gpuProfileId : Option Str)
    (gpuValues : Option (Record Number)) : Option (Record Number) :=
  if (profiles.find? fun p => some p.id = gpuProfileId).isSome then gpuValues else none

namespace InferenceServiceModal

structure FormShape where
  name           : Str
  kind           : InferenceKind
  runtime        : Option Str
  deploymentMode : Option Str
  baseConfigs    : Option (List Str)
  modelName      : Option Str
  containerImage : Option Str
  modelUri       : Str
  replicas       : Int
  cpuRequest     : Str
  cpuLimit       : Str
  memoryRequest  : Str
  memoryLimit    : Str
  gpuProfileId   : Option Str
  gpuValues      : Option (Record Number)
  env            : Option (List EnvVar)
  command        : Option Str
  args           : Option Str

structure Payload where
  name           : Str
  kind           : InferenceKind
  runtime        : Option Str
  deploymentMode : Option Str
  baseConfigs    : Option (List Str)
  modelName      : Option Str
  containerImage : Option Str
  modelUri       : Str
  replicas       : Int
  cpuRequest     : Str
  cpuLimit       : Str
  memoryRequest  : Str
  memoryLimit    : Str
  gpuValues      : Option (Record Number)
  env            : Option (List EnvVar)
  command        : Option (List Str)
  args           : Option (List Str)

def defaultsFromService (svc : InferenceService) (profiles : List GPUProfile) : FormShape where
  name           := svc.name
  kind           := svc.kind
  runtime        := if svc.kind = .inferenceService then some svc.runtime else none
  deploymentMode := if svc.kind = .inferenceService then svc.deploymentMode else none
  baseConfigs    := svc.baseConfigs
  modelName      := svc.modelName
  containerImage := svc.containerImage
  modelUri       := svc.modelUri
  replicas       :=
    if svc.maxReplicas ≠ 0 then svc.maxReplicas
    else if svc.minReplicas ≠ 0 then svc.minReplicas
    else 1
  cpuRequest     := (svc.cpuRequest <|> svc.resources.cpu).getD []
  cpuLimit       := (svc.cpuLimit <|> svc.resources.cpu).getD []
  memoryRequest  := (svc.memoryRequest <|> svc.resources.memory).getD []
  memoryLimit    := (svc.memoryLimit <|> svc.resources.memory).getD []
  gpuProfileId   := matchProfile profiles svc.gpuValues
  gpuValues      := svc.gpuValues
  env            := svc.env
  command        := svc.command.map fun command => Str.join command blank
  args           := svc.args.map fun args => Str.join args newline

-- The characters of `/^[a-z0-9-]+$/`.
def isNameChar (c : UInt16) : Bool :=
  97 ≤ c && c ≤ 122 || 48 ≤ c && c ≤ 57 || c == 45

-- The rules of the form's items.
def Valid (v : FormShape) : Prop :=
  (v.name ≠ [] ∧ v.name.all isNameChar) ∧ v.modelUri ≠ [] ∧
  (v.kind = .inferenceService → (truthy v.runtime).isSome) ∧
  (v.cpuRequest ≠ [] ∧ v.cpuLimit ≠ [] ∧ v.memoryRequest ≠ [] ∧ v.memoryLimit ≠ []) ∧
  ∀ e ∈ v.env.getD [], e.name ≠ []

instance (v : FormShape) : Decidable (Valid v) :=
  inferInstanceAs (Decidable (_ ∧ _ ∧ (_ → _) ∧ _ ∧ _))

def payload (profiles : List GPUProfile) (v : FormShape) : Payload :=
  let llm := v.kind = .llmInferenceService
  {
    name           := v.name
    kind           := v.kind
    runtime        := if llm then none else v.runtime
    deploymentMode := if llm then none else v.deploymentMode
    baseConfigs    := if llm then v.baseConfigs else none
    modelName      := if llm then v.modelName else none
    containerImage := if llm then v.containerImage else none
    modelUri       := v.modelUri
    replicas       := v.replicas
    cpuRequest     := v.cpuRequest
    cpuLimit       := v.cpuLimit
    memoryRequest  := v.memoryRequest
    memoryLimit    := v.memoryLimit
    gpuValues      := submittedValues profiles v.gpuProfileId v.gpuValues
    env            := v.env
    command        := (truthy v.command).map Str.words
    args           := (truthy v.args).map Str.lines
  }

-- What `onOk` sends for the values `v` of the form, if they pass its rules.
def onOk (profiles : List GPUProfile) (v : FormShape) : Option Payload :=
  if Valid v then some (payload profiles v) else none

end InferenceServiceModal

namespace ServingRuntimeModal

structure RuntimeFormShape where
  name                  : Str
  runtime               : Str
  image                 : Str
  supportedModelFormats : Option (List Str)
  defaultArgs           : Option Str
  securityContext       : RuntimeSecurityContext
  cpuRequest            : Str
  cpuLimit              : Str
  memoryRequest         : Str
  memoryLimit           : Str
  gpuProfileId          : Option Str
  gpuValues             : Option (Record Number)

structure Payload where
  name                  : Str
  image                 : Str
  runtime               : Str
  supportedModelFormats : Option (List Str)
  args                  : List Str
  securityContext       : RuntimeSecurityContext
  cpuRequest            : Str
  cpuLimit              : Str
  memoryRequest         : Str
  memoryLimit           : Str
  gpuValues             : Option (Record Number)

def defaultServingRuntimeArgs : List (Str × List Str) := [
  (str "vllm", [
    str "--port", str "8080", str "--served-model-name", str "{{.Name}}",
    str "{{.Namespace}}/{{.Name}}", str "--model", str "/mnt/models"
  ]),
  (str "sglang", [
    str "--port", str "8080", str "--served-model-name", str "{{.Name}}", str "--model-path",
    str "/mnt/models"
  ])
]

def defaultArgsForRuntimeFamily (runtime : Str) : List Str :=
  (defaultServingRuntimeArgs.lookup runtime).getD []

def formatArgs (args : List Str) : Str :=
  Str.join args newline

def defaultArgsForRuntime (runtime : Str) : Str :=
  formatArgs (defaultArgsForRuntimeFamily runtime)

def defaultRuntimeSecurityContext : RuntimeSecurityContext where
  allowPrivilegeEscalation := some false
  capabilitiesDrop         := some [str "ALL"]
  capabilitiesAdd          := some []
  privileged               := some false
  runAsNonRoot             := some true
  runAsUser                := some 1000
  seccompProfileType       := some (str "RuntimeDefault")

def defaultsFromRuntime (sr : ServingRuntime) (profiles : List GPUProfile) : RuntimeFormShape where
  name                  := sr.name
  runtime               := sr.runtime
  image                 := sr.image
  supportedModelFormats := some sr.supportedModelFormats
  defaultArgs           :=
    let text := Str.join (sr.defaultArgs.getD []) newline
    some (if text ≠ [] then text else defaultArgsForRuntime sr.runtime)
  securityContext       := sr.securityContext.getD defaultRuntimeSecurityContext
  cpuRequest            := (sr.cpuRequest <|> sr.resources.cpu).getD []
  cpuLimit              := (sr.cpuLimit <|> sr.resources.cpu).getD []
  memoryRequest         := (sr.memoryRequest <|> sr.resources.memory).getD []
  memoryLimit           := (sr.memoryLimit <|> sr.resources.memory).getD []
  gpuProfileId          := matchProfile profiles sr.gpuValues
  gpuValues             := sr.gpuValues

def Valid (v : RuntimeFormShape) : Prop :=
  v.name ≠ [] ∧ v.runtime ≠ [] ∧ v.image ≠ [] ∧
  v.cpuRequest ≠ [] ∧ v.cpuLimit ≠ [] ∧ v.memoryRequest ≠ [] ∧ v.memoryLimit ≠ []

instance (v : RuntimeFormShape) : Decidable (Valid v) :=
  inferInstanceAs (Decidable (_ ∧ _))

def payload (profiles : List GPUProfile) (v : RuntimeFormShape) : Payload where
  name                  := v.name
  image                 := v.image
  runtime               := v.runtime
  supportedModelFormats := v.supportedModelFormats
  args                  := (v.defaultArgs.getD []).lines
  securityContext       := v.securityContext
  cpuRequest            := v.cpuRequest
  cpuLimit              := v.cpuLimit
  memoryRequest         := v.memoryRequest
  memoryLimit           := v.memoryLimit
  gpuValues             := submittedValues profiles v.gpuProfileId v.gpuValues

-- What `submit` sends in form mode, if the values pass the rules.
def submit (profiles : List GPUProfile) (v : RuntimeFormShape) : Option Payload :=
  if Valid v then some (payload profiles v) else none

end ServingRuntimeModal
end Console
