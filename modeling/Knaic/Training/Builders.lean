import Knaic.Inference.Build
import Knaic.Js.Text
import Knaic.Yaml.Block

open Go Kube Yaml
open Inference (quantities setIf)
open Js (utf8)

-- A training runtime, built by the server, by the browser as an object and by the browser as text.
namespace Training

-- What a number field gives. One that is no integer comes with how it is printed.
inductive Number
  | null
  | int (n : Int)
  | float (f : Float64) (text : Text)

structure EnvEntry where
  name  : Text
  value : Text

inductive PreJobType
  | datasetInitializer
  | modelInitializer
deriving DecidableEq

def PreJobType.text : PreJobType → Text
  | datasetInitializer => "dataset-initializer".toList
  | modelInitializer   => "model-initializer".toList

structure PreJobFields where
  image   : Text
  command : Text
  args    : Text
  env     : List EnvEntry

structure RuntimeFormShape where
  name          : Text
  framework     : Text
  numNodes      : Number
  image         : Text
  command       : Text
  args          : Text
  env           : List EnvEntry
  cpuRequest    : Text
  cpuLimit      : Text
  memoryRequest : Text
  memoryLimit   : Text
  gpuProfileId  : Text
  gpuValues     : List (Text × Number)
  preJobs       : PreJobType → PreJobFields
  cluster       : Bool

structure PreJob where
  name    : Text
  image   : Text
  command : List Text
  args    : List Text
  env     : List EnvEntry

structure RuntimePayload where
  name          : Text
  framework     : Text
  image         : Text
  numNodes      : Number
  command       : List Text
  args          : List Text
  env           : List EnvEntry
  cpuRequest    : Text
  cpuLimit      : Option Text
  memoryRequest : Text
  memoryLimit   : Option Text
  gpuValues     : List (Text × Number)
  preJobs       : List PreJob
  cluster       : Bool

-- White space of the browser, which has none outside the basic plane.
def isSpace (c : Char) : Bool :=
  c.toNat < 0x10000 && Js.isSpace (UInt16.ofNat c.toNat)

def linesToArray (s : Text) : List Text :=
  ((s.splitOn '\n').map fun x => (x.dropWhile isSpace).rdropWhile isSpace).filter (· ≠ [])

def named (env : List EnvEntry) : List EnvEntry :=
  env.filter fun e => e.name ≠ []

def collectPayload (enabled : PreJobType → Bool) (v : RuntimeFormShape) : RuntimePayload where
  name          := v.name
  framework     := v.framework
  image         := v.image
  numNodes      := v.numNodes
  command       := linesToArray v.command
  args          := linesToArray v.args
  env           := named v.env
  cpuRequest    := v.cpuRequest
  cpuLimit      := some v.cpuLimit
  memoryRequest := v.memoryRequest
  memoryLimit   := some v.memoryLimit
  gpuValues     := if v.gpuProfileId ≠ [] then v.gpuValues else []
  preJobs       := [PreJobType.datasetInitializer, .modelInitializer].filter enabled |>.map fun t => {
    name    := t.text
    image   := (v.preJobs t).image
    command := linesToArray (v.preJobs t).command
    args    := linesToArray (v.preJobs t).args
    env     := named (v.preJobs t).env }
  cluster       := v.cluster

def frameworks : List Text :=
  ["torch", "deepspeed", "mpi", "tensorflow", "jax"].map String.toList

-- What the rules of the form ask for before it is submitted.
structure Submittable (enabled : PreJobType → Bool) (v : RuntimeFormShape) : Prop where
  name          : v.name ≠ []
  framework     : v.framework ∈ frameworks
  image         : v.image ≠ []
  cpuRequest    : v.cpuRequest ≠ []
  cpuLimit      : v.cpuLimit ≠ []
  memoryRequest : v.memoryRequest ≠ []
  memoryLimit   : v.memoryLimit ≠ []
  gpuKeys       : (v.gpuValues.map Prod.fst).Nodup
  preJobs       : ∀ t, enabled t → (v.preJobs t).image ≠ []

-- `requests` and `limits` of the browser.
inductive Quantity
  | text (s : Text)
  | number (n : Number)

abbrev Quantities :=
  List (Text × Quantity)

-- `record[k] = v`
def assign (l : Quantities) (k : Text) (q : Quantity) : Quantities :=
  if k ∈ l.map Prod.fst then l.map fun e => if e.1 = k then (k, q) else e else l ++ [(k, q)]

def assignText (l : Quantities) (k : String) (s : Text) : Quantities :=
  if s ≠ [] then assign l k.toList (.text s) else l

def assignAll (l : Quantities) (gpuValues : List (Text × Number)) : Quantities :=
  gpuValues.foldl (fun l e => assign l e.1 (.number e.2)) l

namespace RuntimePayload

def requests (req : RuntimePayload) : Quantities :=
  assignAll (assignText (assignText [] "cpu" req.cpuRequest) "memory" req.memoryRequest) req.gpuValues

def limits (req : RuntimePayload) : Quantities :=
  assignAll
    (assignText (assignText [] "cpu" (req.cpuLimit.getD req.cpuRequest)) "memory"
      (req.memoryLimit.getD req.memoryRequest))
    req.gpuValues

-- `req.numNodes || 1`
def nodes (req : RuntimePayload) : Number :=
  match req.numNodes with
  | .null | .int 0 => .int 1
  | n              => n

end RuntimePayload

-- The object of the browser, as it arrives at the server.
section Object

def numberValue : Number → Value
  | .null      => .null
  | .int n     => .int n
  | .float f _ => .float f

def quantityValue : Quantity → Value
  | .text s   => text s
  | .number n => numberValue n

def quantitiesValue (l : Quantities) : Value :=
  .obj (l.foldl (fun o e => Entries.set o (utf8 e.1) (quantityValue e.2)) [])

def textList (l : List Text) : Value :=
  .list (l.map text)

def envList (env : List EnvEntry) : Value :=
  .list (env.map fun e => .obj (mapOf [("name", text e.name), ("value", text e.value)]))

def containerObject (name image : Text) (command args : List Text) (env : List EnvEntry) : Fields :=
  let c := mapOf [("name", text name), ("image", text image)]
  let c := setIf (command ≠ []) c "command" (textList command)
  let c := setIf (args ≠ []) c "args" (textList args)
  setIf (env ≠ []) c "env" (envList env)

def jobObject (name step : Value) (container : Fields) : Fields :=
  mapOf [
    ("name", name),
    ("template", .obj (mapOf [
      ("metadata", .obj (mapOf [
        ("labels", .obj (mapOf [("trainer.kubeflow.org/trainjob-ancestor-step", step)]))])),
      ("spec", .obj (mapOf [
        ("template", .obj (mapOf [
          ("spec", .obj (mapOf [("containers", .list [.obj container])]))]))]))]))]

def dependsOn (lastStep : Value) : Value :=
  .list [.obj (mapOf [("name", lastStep), ("status", .string (str "Complete"))])]

-- `lastStep` is empty where it is undefined.
def preJobObjects (lastStep : Text) : List PreJob → List Value × Text
  | []      => ([], lastStep)
  | p :: ps =>
    let job := jobObject (text p.name) (text p.name)
      (containerObject p.name p.image p.command p.args p.env)
    let job := setIf (lastStep ≠ []) job "dependsOn" (dependsOn (text lastStep))
    let q := preJobObjects p.name ps
    (.obj job :: q.1, q.2)

def trainingRuntimeObject (req : RuntimePayload) : Fields :=
  let container := Entries.set (containerObject "node".toList req.image req.command req.args req.env)
    (str "resources") (.obj (mapOf [
      ("requests", quantitiesValue req.requests),
      ("limits", quantitiesValue req.limits)]))
  let q := preJobObjects [] req.preJobs
  let trainerJob := jobObject (.string (str "node")) (.string (str "trainer")) container
  let trainerJob := setIf (q.2 ≠ []) trainerJob "dependsOn" (dependsOn (text q.2))
  let framework := if req.framework = [] then "torch".toList else req.framework
  mapOf [
    ("apiVersion", .string (str "trainer.kubeflow.org/v1alpha1")),
    ("kind", .string (str "ClusterTrainingRuntime")),
    ("metadata", .obj (mapOf [
      ("name", text req.name),
      ("labels", .obj (mapOf [
        ("knaic.io/managed", .string (str "true")),
        ("knaic.io/component", .string (str "training")),
        ("knaic.io/framework", text req.framework)]))])),
    ("spec", .obj (mapOf [
      ("mlPolicy", .obj (Entries.set (mapOf [("numNodes", numberValue req.nodes)]) (utf8 framework)
        (.obj []))),
      ("template", .obj (mapOf [
        ("spec", .obj (mapOf [
          ("replicatedJobs", .list (q.1 ++ [.obj trainerJob]))]))]))]))]

end Object

-- The server.
section Server

structure RuntimePreJob where
  name    : Str
  image   : Str
  command : List Str
  args    : List Str
  env     : List Inference.EnvVar

structure CreateRuntimeRequest where
  name          : Str
  framework     : Str
  image         : Str
  numNodes      : Int
  command       : List Str
  args          : List Str
  env           : List Inference.EnvVar
  cpuRequest    : Str
  cpuLimit      : Str
  memoryRequest : Str
  memoryLimit   : Str
  gpuValues     : Entries Int
  preJobs       : List RuntimePreJob

-- How the request is decoded. Numbers are integers of 64 bits, and null is zero.
def decodeNumber : Number → Option Int
  | .null      => some 0
  | .int n     => if -2 ^ 63 ≤ n ∧ n < 2 ^ 63 then some n else none
  | .float _ _ => none

def decodeGPUValues (o : Entries Int) : List (Text × Number) → Option (Entries Int)
  | []           => some o
  | (k, n) :: gs => (decodeNumber n).bind fun n => decodeGPUValues (o.set (utf8 k) n) gs

def decodeEnv (env : List EnvEntry) : List Inference.EnvVar :=
  env.map fun e => ⟨utf8 e.name, utf8 e.value⟩

def decodeRuntime (req : RuntimePayload) : Option CreateRuntimeRequest := do
  let numNodes ← decodeNumber req.numNodes
  let gpuValues ← decodeGPUValues [] req.gpuValues
  return {
    name          := utf8 req.name
    framework     := utf8 req.framework
    image         := utf8 req.image
    numNodes
    command       := req.command.map utf8
    args          := req.args.map utf8
    env           := decodeEnv req.env
    cpuRequest    := utf8 req.cpuRequest
    cpuLimit      := utf8 (req.cpuLimit.getD [])
    memoryRequest := utf8 req.memoryRequest
    memoryLimit   := utf8 (req.memoryLimit.getD [])
    gpuValues
    preJobs       := req.preJobs.map fun p =>
      ⟨utf8 p.name, utf8 p.image, p.command.map utf8, p.args.map utf8, decodeEnv p.env⟩ }

def CreateRuntimeRequest.filled (req : CreateRuntimeRequest) : CreateRuntimeRequest :=
  { req with
    numNodes    := if req.numNodes = 0 then 1 else req.numNodes
    framework   := if req.framework = [] then str "torch" else req.framework
    cpuLimit    := if req.cpuLimit = [] then req.cpuRequest else req.cpuLimit
    memoryLimit := if req.memoryLimit = [] then req.memoryRequest else req.memoryLimit }

def container (name image : Str) (command args : List Str) (env : List Inference.EnvVar) : Fields :=
  let c := mapOf [("name", .string name), ("image", .string image)]
  let c := setIf (command ≠ []) c "command" (.list (toAnySlice command))
  let c := setIf (args ≠ []) c "args" (.list (toAnySlice args))
  setIf (env ≠ []) c "env" (.list (Inference.envSlice env))

def isPreJobName (s : Str) : Bool :=
  s = str "dataset-initializer" || s = str "model-initializer"

def preJobs (lastStep : Str) : List RuntimePreJob → Except Error (List Value × Str)
  | []      => .ok ([], lastStep)
  | p :: ps =>
    if !isPreJobName p.name then
      .error (.errorf "pre-job name must be one of dataset-initializer or model-initializer; got %q"
        [p.name])
    else if p.image = [] then
      .error (.errorf "pre-job %s: image is required" [p.name])
    else
      let job := jobObject (.string p.name) (.string p.name)
        (container p.name p.image p.command p.args p.env)
      let job := setIf (lastStep ≠ []) job "dependsOn" (dependsOn (.string lastStep))
      (preJobs p.name ps).map fun q => (.obj job :: q.1, q.2)

def createdObject (ns : Str) (req : CreateRuntimeRequest) (jobs : List Value) (lastStep : Str) : Fields :=
  -- what `resourceMaps` gives
  let requests := quantities req.cpuRequest req.memoryRequest req.gpuValues
  let limits   := quantities req.cpuLimit req.memoryLimit req.gpuValues
  let c := setIf (requests ≠ [] ∨ limits ≠ [])
    (container (str "node") req.image req.command req.args req.env) "resources"
    (.obj (mapOf [("requests", .obj requests), ("limits", .obj limits)]))
  let trainerJob := jobObject (.string (str "node")) (.string (str "trainer")) c
  let trainerJob := setIf (lastStep ≠ []) trainerJob "dependsOn" (dependsOn (.string lastStep))
  mapOf [
    ("apiVersion", .string (str "trainer.kubeflow.org/v1alpha1")),
    ("kind", .string (str "TrainingRuntime")),
    ("metadata", .obj (mapOf [
      ("name", .string req.name),
      ("namespace", .string ns),
      ("labels", .obj (mapOf [
        ("knaic.io/managed", .string (str "true")),
        ("knaic.io/component", .string (str "training")),
        ("knaic.io/framework", .string req.framework)]))])),
    ("spec", .obj (mapOf [
      ("mlPolicy", .obj (Entries.set (mapOf [("numNodes", .int req.numNodes)]) req.framework (.obj []))),
      ("template", .obj (mapOf [
        ("spec", .obj (mapOf [
          ("replicatedJobs", .list (jobs ++ [.obj trainerJob]))]))]))]))]

def createRuntime (ns : Str) (req : CreateRuntimeRequest) : Except Error Fields :=
  if req.name = [] ∨ req.image = [] then
    .error (.new "name and image are required")
  else
    (preJobs [] req.filled.preJobs).map fun q => createdObject ns req.filled q.1 q.2

end Server

-- The text of the browser.
section Emitter

-- `/[\s:#&*!|>'"%@`,{}[\]?-]/`
def special (c : Char) : Bool :=
  isSpace c || c ∈ ":#&*!|>'\"%@`,{}[]?-".toList

def lower (s : Text) : Text :=
  s.map Char.toLower

def needsQuotes (s : Text) : Bool :=
  s = [] || s.any special || lower s ∈ ["true", "false", "null", "yes", "no"].map String.toList ||
    s.head?.any Char.isDigit

def yamlQuote (s : Text) : Text :=
  if needsQuotes s then quote s else s

def numberText : Number → Text
  | .null         => "null".toList
  | .int n        => (toString n).toList
  | .float _ text => text

def quantityText : Quantity → Text
  | .text s   => yamlQuote s
  | .number n => numberText n

def emitQuantities (p : Text) (l : Quantities) : List Text :=
  l.map fun e => p ++ "      ".toList ++ e.1 ++ ": ".toList ++ quantityText e.2

def emitList (p : Text) (key : String) (l : List Text) : List Text :=
  if l = [] then []
  else (p ++ key.toList) :: l.map fun c => p ++ "    - ".toList ++ yamlQuote c

def emitEnv (p : Text) (env : List EnvEntry) : List Text :=
  if env = [] then []
  else (p ++ "  env:".toList) :: env.flatMap fun e => [
    p ++ "    - name: ".toList ++ e.name,
    p ++ "      value: ".toList ++ yamlQuote e.value]

def emitContainer (name image : Text) (command args : List Text) (env : List EnvEntry) : List Text :=
  let p := indent 20
  [p ++ "- name: ".toList ++ name,
    p ++ "  image: ".toList ++ if image = [] then "<image>".toList else image] ++
  emitList p "  command:" command ++ emitList p "  args:" args ++ emitEnv p env

def emitResources (requests limits : Quantities) : List Text :=
  let p := indent 20
  [p ++ "  resources:".toList, p ++ "    requests:".toList] ++ emitQuantities p requests ++
  [p ++ "    limits:".toList] ++ emitQuantities p limits

-- A job up to its container.
def emitJob (lastStep name step : Text) : List Text :=
  ["        - name: ".toList ++ name] ++
  (if lastStep = [] then []
    else ["          dependsOn:".toList,
      "            - name: ".toList ++ lastStep,
      "              status: Complete".toList]) ++
  ["          template:".toList,
    "            metadata:".toList,
    "              labels:".toList,
    "                trainer.kubeflow.org/trainjob-ancestor-step: ".toList ++ step,
    "            spec:".toList,
    "              template:".toList,
    "                spec:".toList,
    "                  containers:".toList]

def emitPreJobs (lastStep : Text) : List PreJob → List Text × Text
  | []      => ([], lastStep)
  | p :: ps =>
    let q := emitPreJobs p.name ps
    (emitJob lastStep p.name p.name ++ emitContainer p.name p.image p.command p.args p.env ++ q.1, q.2)

def runtimeLines (req : RuntimePayload) (ns : Text) : List Text :=
  let framework := if req.framework = [] then "torch".toList else req.framework
  let q := emitPreJobs [] req.preJobs
  ["apiVersion: trainer.kubeflow.org/v1alpha1".toList,
    "kind: ".toList ++ (if req.cluster then "ClusterTrainingRuntime" else "TrainingRuntime").toList,
    "metadata:".toList,
    "  name: ".toList ++ if req.name = [] then "<name>".toList else req.name] ++
  (if req.cluster then [] else ["  namespace: ".toList ++ ns]) ++
  ["  labels:".toList,
    "    knaic.io/managed: \"true\"".toList,
    "    knaic.io/component: training".toList,
    "    knaic.io/framework: ".toList ++ framework,
    "spec:".toList,
    "  mlPolicy:".toList,
    "    numNodes: ".toList ++ numberText req.nodes,
    "    ".toList ++ framework ++ ": {}".toList,
    "  template:".toList,
    "    spec:".toList,
    "      replicatedJobs:".toList] ++
  q.1 ++ emitJob q.2 "node".toList "trainer".toList ++
  emitContainer "node".toList req.image req.command req.args req.env ++
  emitResources req.requests req.limits

def buildTrainingRuntimeYaml (req : RuntimePayload) (ns : Text) : Text :=
  ['\n'].intercalate (runtimeLines req ns) ++ ['\n']

end Emitter

end Training
