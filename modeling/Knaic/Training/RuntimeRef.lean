import Knaic.Effects.Events
import Knaic.Inference.Build

open Go Effects Kube
open Inference (envSlice quantities setIf)

namespace Training

structure CreateJobRequest where
  name              : Str
  runtime           : Str
  numNodes          : Int
  command           : List Str
  args              : List Str
  env               : List Inference.EnvVar
  cpuRequest        : Str
  cpuLimit          : Str
  memoryRequest     : Str
  memoryLimit       : Str
  gpuValues         : Entries Int
  modelURI          : Str
  datasetURI        : Str
  mlflowTrackingURI : Str
  mlflowExperiment  : Str

namespace CreateJobRequest

def filled (req : CreateJobRequest) : CreateJobRequest :=
  { req with
    numNodes    := if req.numNodes = 0 then 1 else req.numNodes
    cpuLimit    := if req.cpuLimit = [] then req.cpuRequest else req.cpuLimit
    memoryLimit := if req.memoryLimit = [] then req.memoryRequest else req.memoryLimit }

end CreateJobRequest

def storageInput (uri : Str) : Value :=
  .obj (mapOf [("input", .obj (mapOf [("storageUri", .string uri)]))])

def trainer (req : CreateJobRequest) : Fields :=
  let t := mapOf [
    ("numNodes", .int req.numNodes),
    ("resourcesPerNode", .obj (mapOf [
      ("requests", .obj (quantities req.cpuRequest req.memoryRequest req.gpuValues)),
      ("limits", .obj (quantities req.cpuLimit req.memoryLimit req.gpuValues))]))]
  let t := setIf (req.command ≠ []) t "command" (.list (toAnySlice req.command))
  let t := setIf (req.args ≠ []) t "args" (.list (toAnySlice req.args))
  let t := setIf (req.env ≠ []) t "env" (.list (envSlice req.env))
  let t := setIf (req.modelURI ≠ []) t "modelConfig" (storageInput req.modelURI)
  setIf (req.datasetURI ≠ []) t "datasetConfig" (storageInput req.datasetURI)

-- `runID` is what `"r-" + shortRandHex(2)` gives.
def annotations (runID : Str) (req : CreateJobRequest) : Fields :=
  let tracking   := req.mlflowTrackingURI
  let experiment := req.mlflowExperiment
  let a := setIf (tracking ≠ []) [] "mlflow.knaic.io/tracking-uri" (.string tracking)
  let a := setIf (experiment ≠ []) a "mlflow.knaic.io/experiment" (.string experiment)
  setIf (experiment ≠ [] ∨ tracking ≠ []) a "mlflow.knaic.io/run-id" (.string runID)

def metadata (runID ns : Str) (req : CreateJobRequest) : Fields :=
  let m := mapOf [
    ("name", .string req.name),
    ("namespace", .string ns),
    ("labels", .obj (mapOf [
      ("knaic.io/managed", .string (str "true")),
      ("knaic.io/component", .string (str "training"))]))]
  setIf (annotations runID req ≠ []) m "annotations" (.obj (annotations runID req))

-- The object that is sent to be created.
def createJob (runID ns : Str) (req : CreateJobRequest) : Except Error Fields :=
  if req.name = [] ∨ req.runtime = [] then
    .error (.new "name and runtime are required")
  else
    .ok (mapOf [
      ("apiVersion", .string (str "trainer.kubeflow.org/v1alpha1")),
      ("kind", .string (str "TrainJob")),
      ("metadata", .obj (metadata runID ns req.filled)),
      ("spec", .obj (mapOf [
        ("runtimeRef", .obj (mapOf [
          ("name", .string req.filled.runtime),
          ("kind", .string (str "TrainingRuntime"))])),
        ("trainer", .obj (trainer req.filled))]))])

-- What the job refers to.
structure RuntimeRef where
  kind : Str
  name : Str

def runtimeRef (job : Fields) : RuntimeRef where
  kind := (job.nestedString [str "spec", str "runtimeRef", str "kind"]).getD []
  name := (job.nestedString [str "spec", str "runtimeRef", str "name"]).getD []

-- The runtimes of a cluster. Names are distinct among those of one kind in one place.
structure Runtimes where
  namespaced       : List Fields
  cluster          : List Fields
  namespacedUnique : ∀ o ∈ namespaced, ∀ o' ∈ namespaced,
    o.getNamespace = o'.getNamespace → o.getName = o'.getName → o = o'
  clusterUnique    : ∀ o ∈ cluster, ∀ o' ∈ cluster, o.getName = o'.getName → o = o'
  kinds            : (∀ o ∈ namespaced, o.getKind = str "TrainingRuntime") ∧
    ∀ o ∈ cluster, o.getKind = str "ClusterTrainingRuntime"

def Denotes (rs : Runtimes) (ns : Str) (ref : RuntimeRef) (o : Fields) : Prop :=
  ref.kind = str "TrainingRuntime" ∧ o ∈ rs.namespaced ∧ o.getNamespace = ns ∧ o.getName = ref.name ∨
  ref.kind = str "ClusterTrainingRuntime" ∧ o ∈ rs.cluster ∧ o.getName = ref.name

def frameworkOf (o : Fields) : Str :=
  let known := ["torch", "deepspeed", "mpi", "tensorflow", "jax"]
  let pol := (o.nestedMap [str "spec", str "mlPolicy"]).getD []
  match known.find? fun k => (pol.get (str k)).isSome with
  | some k => str k
  | none   =>
    let v := (o.nestedString [str "metadata", str "labels", str "knaic.io/framework"]).getD []
    if v ≠ [] then v else str "torch"

-- One text stands for a name in the server and in the browser.
structure TrainingRuntime where
  id        : Str
  name      : Str
  ns        : Str
  framework : Str
  builtin   : Bool
deriving DecidableEq

def projectTrainingRuntime (o : Fields) : TrainingRuntime where
  id        := (o.nestedString [str "metadata", str "uid"]).getD []
  name      := o.getName
  ns        := o.getNamespace
  framework := frameworkOf o
  builtin   := false

def fillRuntimeDefaults (r : TrainingRuntime) : TrainingRuntime :=
  { r with id := if r.id = [] then str "tr-" ++ r.ns ++ str "-" ++ r.name else r.id }

abbrev Store :=
  List TrainingRuntime

-- The two listings, each with whether it succeeds.
def listTrainingRuntimes (rs : Runtimes) (ns : Str) (ok : Bool) : List TrainingRuntime :=
  if ok then (rs.namespaced.filter (·.getNamespace = ns)).map projectTrainingRuntime else []

def listCluster (rs : Runtimes) (ok : Bool) : List TrainingRuntime :=
  if ok then rs.cluster.map projectTrainingRuntime else []

def asBuiltin (r : TrainingRuntime) : TrainingRuntime :=
  fillRuntimeDefaults { r with ns := str "knaic-system", builtin := true }

-- `ensureTrainingRuntimesLoaded` for a namespace.
structure Loaded where
  ns         : Str
  namespaced : Bool
  cluster    : Bool

def load (rs : Runtimes) (prev : Store) (e : Loaded) : Store :=
  let namespaced := listTrainingRuntimes rs e.ns e.namespaced
  let cluster    := listCluster rs e.cluster
  let builtin    := if cluster ≠ [] then cluster.map asBuiltin else prev.filter (·.builtin)
  prev.filter (fun r => r.ns ≠ e.ns && !r.builtin) ++ builtin ++ namespaced.map fillRuntimeDefaults

-- The runtimes that the form offers, and the options that it makes of them.
def offered (store : Store) (ns : Str) : List TrainingRuntime :=
  store.filter fun r => r.builtin || r.ns = ns

structure RuntimeOption where
  label : Str
  value : Str

def optionOf (r : TrainingRuntime) : RuntimeOption where
  label := r.name ++ str " · " ++ r.framework
  value := r.name

def runtimeOpts (store : Store) (ns : Str) : List RuntimeOption :=
  (offered store ns).map optionOf

-- What the form sends when an option is picked.
def onOk (v : CreateJobRequest) (picked : RuntimeOption) : CreateJobRequest :=
  { v with runtime := picked.value }

-- The object that a row of the store stands for.
def StandsFor (rs : Runtimes) (r : TrainingRuntime) (o : Fields) : Prop :=
  if r.builtin then o ∈ rs.cluster ∧ r = asBuiltin (projectTrainingRuntime o)
  else o ∈ rs.namespaced ∧ r = fillRuntimeDefaults (projectTrainingRuntime o)

section Rows

variable {rs : Runtimes} {store : Store} {r : TrainingRuntime} {o : Fields}

theorem StandsFor.name (h : StandsFor rs r o) : r.name = o.getName := by
  unfold StandsFor at h
  split at h
  all_goals
    rw [h.right]
    rfl

-- Every row is one of an object that exists.
def Faithful (rs : Runtimes) (store : Store) : Prop :=
  ∀ r ∈ store, ∃ o, StandsFor rs r o

theorem standsFor_namespaced {ns : Str} {ok : Bool}
    (h : r ∈ (listTrainingRuntimes rs ns ok).map fillRuntimeDefaults) : ∃ o, StandsFor rs r o := by
  obtain ⟨r', hr, rfl⟩ := List.mem_map.mp h
  unfold listTrainingRuntimes at hr
  split at hr
  case isFalse => cases hr
  case isTrue  =>
    obtain ⟨o, ho, rfl⟩ := List.mem_map.mp hr
    exact ⟨o, List.mem_of_mem_filter ho, rfl⟩

theorem standsFor_cluster {ok : Bool} (h : r ∈ (listCluster rs ok).map asBuiltin) :
    ∃ o, StandsFor rs r o := by
  obtain ⟨r', hr, rfl⟩ := List.mem_map.mp h
  unfold listCluster at hr
  split at hr
  case isFalse => cases hr
  case isTrue  =>
    obtain ⟨o, ho, rfl⟩ := List.mem_map.mp hr
    exact ⟨o, ho, rfl⟩

theorem Faithful.load (h : Faithful rs store) (e : Loaded) : Faithful rs (load rs store e) := by
  intro r hr
  obtain hr | hr := List.mem_append.mp hr
  case inr => exact standsFor_namespaced hr
  case inl =>
    obtain hr | hr := List.mem_append.mp hr
    case inl => exact h r (List.mem_of_mem_filter hr)
    case inr =>
      split at hr
      case isTrue  => exact standsFor_cluster hr
      case isFalse => exact h r (List.mem_of_mem_filter hr)

theorem faithful_run (rs : Runtimes) (es : List Loaded) :
    Faithful rs (Events.run (Training.load rs) [] es) :=
  Events.run_keeps (fun r hr => by cases hr) (fun _ e h => h.load e) es

end Rows

section Choice

variable {rs : Runtimes} {r : TrainingRuntime} {o : Fields} {runID ns : Str} {req : CreateJobRequest}
  {job : Fields}

theorem createJob_runtimeRef (h : createJob runID ns req = .ok job) :
    runtimeRef job = ⟨str "TrainingRuntime", req.runtime⟩ := by
  unfold createJob at h
  split at h
  case isTrue  => cases h
  case isFalse =>
    cases h
    simp [runtimeRef, Fields.nestedString, mapOf, Entries.get_set, CreateJobRequest.filled]

-- An offered row is one of the namespace or a builtin one.
theorem standsFor_iff (h : StandsFor rs r o) (hb : r.builtin = false) (hns : r.ns = ns) (o' : Fields) :
    StandsFor rs r o' ↔ o' ∈ rs.namespaced ∧ o'.getNamespace = ns ∧ o'.getName = r.name := by
  simp only [StandsFor, hb, Bool.false_eq_true, if_false] at h ⊢
  have hname : r.name = o.getName := by rw [h.right]; rfl
  have hplace : o.getNamespace = ns := by rw [← hns, h.right]; rfl
  constructor
  case mp =>
    intro h'
    refine ⟨h'.left, ?_, ?_⟩
    case refine_1 => rw [← hns, h'.right]; rfl
    case refine_2 => rw [h'.right]; rfl
  case mpr =>
    intro h'
    have he : o' = o := rs.namespacedUnique o' h'.left o h.left
      (h'.right.left.trans hplace.symm) (h'.right.right.trans hname)
    rw [he]
    exact h

end Choice

-- The job refers to what was picked, and to nothing else, exactly if that is no cluster runtime.
theorem createJob_denotes_iff (rs : Runtimes) (es : List Loaded) (runID ns : Str) (v : CreateJobRequest)
    {r : TrainingRuntime} (hr : r ∈ offered (Events.run (load rs) [] es) ns) {job : Fields}
    (h : createJob runID ns (onOk v (optionOf r)) = .ok job) :
    (∀ o, StandsFor rs r o ↔ Denotes rs ns (runtimeRef job) o) ↔ r.builtin = false := by
  obtain ⟨hm, ho⟩ := List.mem_filter.mp hr
  obtain ⟨o, hs⟩ := faithful_run rs es r hm
  rw [createJob_runtimeRef h]
  constructor
  case mp =>
    intro hd
    by_contra hb
    have hb : r.builtin = true := by simpa using hb
    obtain ⟨-, hn, -⟩ | ⟨hk, -⟩ := (hd o).mp hs
    case inl =>
      rw [StandsFor, if_pos hb] at hs
      have hk := (rs.kinds.left o hn).symm.trans (rs.kinds.right o hs.left)
      exact absurd hk (by simp)
    case inr => exact absurd hk (by simp)
  case mpr =>
    intro hb o'
    have hns : r.ns = ns := by simpa [hb] using ho
    rw [standsFor_iff hs hb hns]
    simp [Denotes, onOk, optionOf]

-- A runtime of a namespace and one of the cluster, of the same name.
def runtimeObject (kind ns : Str) : Fields :=
  mapOf [
    ("kind", .string kind),
    ("metadata", .obj (mapOf [("name", .string (str "torch")), ("namespace", .string ns)]))]

def namesakes : Runtimes where
  namespaced       := [runtimeObject (str "TrainingRuntime") (str "team")]
  cluster          := [runtimeObject (str "ClusterTrainingRuntime") []]
  namespacedUnique := by
    intro o ho o' ho' _ _
    rw [List.mem_singleton.mp ho, List.mem_singleton.mp ho']
  clusterUnique    := by
    intro o ho o' ho' _
    rw [List.mem_singleton.mp ho, List.mem_singleton.mp ho']
  kinds            := by
    refine ⟨fun o ho => ?_, fun o ho => ?_⟩
    all_goals
      rw [List.mem_singleton.mp ho]
      rfl

def blankJob : CreateJobRequest where
  name              := str "sft"
  runtime           := []
  numNodes          := 1
  command           := []
  args              := []
  env               := []
  cpuRequest        := []
  cpuLimit          := []
  memoryRequest     := []
  memoryLimit       := []
  gpuValues         := []
  modelURI          := []
  datasetURI        := []
  mlflowTrackingURI := []
  mlflowExperiment  := []

def namesakeRow (builtin : Bool) : TrainingRuntime :=
  if builtin then ⟨str "tr-knaic-system-torch", str "torch", str "knaic-system", str "torch", true⟩
  else ⟨str "tr-team-torch", str "torch", str "team", str "torch", false⟩

theorem createJob_denotes_namespaced :
    ∃ job, createJob [] (str "team") (onOk blankJob (optionOf (namesakeRow false))) = .ok job ∧
      ((∀ o, StandsFor namesakes (namesakeRow false) o ↔
        Denotes namesakes (str "team") (runtimeRef job) o) ↔ (namesakeRow false).builtin = false) :=
  ⟨_, rfl, createJob_denotes_iff namesakes [⟨str "team", true, true⟩] [] (str "team") blankJob
    (by decide) rfl⟩

-- The runtime of the cluster is picked, and the job refers to that of the namespace.
theorem createJob_denotes_namesake : ¬ ∀ (rs : Runtimes) (es : List Loaded) (ns : Str)
    (v : CreateJobRequest) (r : TrainingRuntime), r ∈ offered (Events.run (load rs) [] es) ns →
    ∀ job, createJob [] ns (onOk v (optionOf r)) = .ok job →
      ∀ o, StandsFor rs r o ↔ Denotes rs ns (runtimeRef job) o := by
  intro h
  have hd := h namesakes [⟨str "team", true, true⟩] (str "team") blankJob (namesakeRow true)
    (by decide) _ rfl (runtimeObject (str "ClusterTrainingRuntime") [])
  obtain ⟨-, hn, -⟩ | ⟨hk, -⟩ := hd.mp ⟨.head _, rfl⟩
  case inl =>
    have hk := congrArg Fields.getKind (List.mem_singleton.mp hn)
    exact absurd hk (by decide)
  case inr => exact absurd hk (by decide)

end Training
