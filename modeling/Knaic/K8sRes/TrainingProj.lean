import Knaic.Go.Loops
import Knaic.K8sRes.InferenceProj
import Knaic.Kube.Unstructured
import Knaic.Training.RuntimeRef

open Go Kube

namespace K8sRes

-- Every entry is kept here, also where it has no name.
def envSlice (o : Fields) (path : List Str) : List Inference.EnvVar :=
  ((o.nestedSlice path).getD []).filterMap fun item =>
    item.obj?.map fun m => ⟨(m.nestedString [str "name"]).getD [], (m.nestedString [str "value"]).getD []⟩

def trainJobCount? : Value → Option Int
  | .int n    => some n
  | .string s => if parseInt64Quantity s > 0 then some (parseInt64Quantity s) else none
  | _         => none

def collectTrainJob (out : Dict Int) (e : Str × Value) : Dict Int :=
  if e.1 ≠ str "cpu" && e.1 ≠ str "memory" then
    match trainJobCount? e.2 with
    | some n => out.set e.1 n
    | none   => out
  else
    out

structure TrainJobProjection where
  runtime     : Str
  numNodes    : Int
  command     : List Str
  args        : List Str
  env         : List Inference.EnvVar
  cpu         : Str
  cpuLimit    : Str
  memory      : Str
  memoryLimit : Str
  gpuValues   : Dict Int
  modelURI    : Str
  datasetURI  : Str

def projectTrainJob (o : Fields) : TrainJobProjection :=
  let trainer (path : List String) : List Str := str "spec" :: str "trainer" :: path.map str
  let amount (kind key : String) : Str :=
    (o.nestedString (trainer ["resourcesPerNode", kind, key])).getD []
  let runtime := (o.nestedString [str "spec", str "runtimeRef", str "name"]).getD []
  let numNodes := (o.nestedInt64 (trainer ["numNodes"])).getD 0
  let limits := (o.nestedMap (trainer ["resourcesPerNode", "limits"])).getD []
  { runtime     :=
      if runtime = [] then (o.nestedString [str "spec", str "trainingRuntimeRef", str "name"]).getD []
      else runtime
    numNodes    := if numNodes = 0 then 1 else numNodes
    command     := (o.nestedStringSlice (trainer ["command"])).getD []
    args        := (o.nestedStringSlice (trainer ["args"])).getD []
    env         := envSlice o (trainer ["env"])
    cpu         := amount "requests" "cpu"
    cpuLimit    := amount "limits" "cpu"
    memory      := amount "requests" "memory"
    memoryLimit := amount "limits" "memory"
    gpuValues   := limits.foldl collectTrainJob .empty
    modelURI    := (o.nestedString (trainer ["modelConfig", "input", "storageUri"])).getD []
    datasetURI  := (o.nestedString (trainer ["datasetConfig", "input", "storageUri"])).getD [] }

-- What the job is tracked under. Its samples are looked up later.
structure Mlflow where
  trackingURI : Str
  experiment  : Str
  runID       : Str
deriving DecidableEq

def mlflowFromAnnotations (o : Fields) : Option Mlflow :=
  let ann := o.getAnnotations
  let tracking   := (ann.get (str "mlflow.knaic.io/tracking-uri")).getD []
  let experiment := (ann.get (str "mlflow.knaic.io/experiment")).getD []
  let runID      := (ann.get (str "mlflow.knaic.io/run-id")).getD []
  if tracking = [] ∧ experiment = [] ∧ runID = [] then none else some ⟨tracking, experiment, runID⟩

def Reserved (k : Str) : Prop :=
  k = str "cpu" ∨ k = str "memory"

instance : DecidablePred Reserved :=
  fun k => inferInstanceAs (Decidable (k = str "cpu" ∨ k = str "memory"))

theorem Reserved.not_accelerator {k : Str} (hk : isAccelerator k) : ¬Reserved k := by
  simp only [isAccelerator, Bool.and_eq_true, decide_eq_true_eq] at hk
  simp [Reserved, hk]

theorem get_collectTrainJob (out : Dict Int) (e : Str × Value) (k : Str) :
    (collectTrainJob out e).get k =
      if e.1 = k ∧ ¬Reserved k then (trainJobCount? e.2).or (out.get k) else out.get k := by
  have hr : (e.1 ≠ str "cpu" && e.1 ≠ str "memory") = true ↔ ¬Reserved e.1 := by simp [Reserved]
  simp only [collectTrainJob, hr]
  by_cases he : e.1 = k
  case pos =>
    subst he
    by_cases hk : Reserved e.1
    case pos => simp [hk]
    case neg => cases hc : trainJobCount? e.2 <;> simp [hk, Dict.get_set]
  case neg =>
    have hs : ∀ n, (out.set e.1 n).get k = out.get k := fun n => by simp [Dict.get_set, Ne.symm he]
    simp only [he, false_and, if_false]
    split
    · split <;> simp [hs]
    · rfl

-- A key has one value at most, so that what is collected for it is what that value counts for.
theorem get_collectAllTrainJob {src : Fields} (h : Entries.Sorted src) (out : Dict Int) (k : Str) :
    (src.foldl collectTrainJob out).get k =
      (if Reserved k then none else (src.get k).bind trainJobCount?).or (out.get k) := by
  induction src generalizing out
  case nil           => simp
  case cons e src hi =>
    rw [List.foldl_cons, hi h.tail, get_collectTrainJob out e k, Entries.get_cons]
    by_cases he : e.1 = k
    case neg => simp [he]
    case pos =>
      have hn := h.get_tail
      rw [he] at hn
      by_cases hk : Reserved k <;> simp [he, hn, hk]

def nodesFor (o : Fields) : Int :=
  let atLeastOne (path : List Str) := (o.nestedInt64 path).filter (0 < ·)
  ((atLeastOne [str "spec", str "numNodes"]).or (atLeastOne [str "spec", str "mlPolicy", str "numNodes"])).getD 1

def ancestorStep (job : Fields) : Str :=
  (job.nestedString [str "template", str "metadata", str "labels",
    str "trainer.kubeflow.org/trainjob-ancestor-step"]).getD []

-- The job of the trainer by its label, else the first one with its name, else the last one.
def pickJob (named last : Option Fields) : List Value → Option Fields
  | []          => named.or last
  | raw :: jobs =>
    match raw.obj? with
    | none   => pickJob named last jobs
    | some m =>
      if ancestorStep m = str "trainer" then some m
      else
        let name := (m.nestedString [str "name"]).getD []
        pickJob (if name = str "node" ∨ name = str "trainer" then named.or (some m) else named) (some m) jobs

structure TrainerContainer where
  image  : Str
  cpu    : Str
  memory : Str
  gpu    : Int

def replicatedJobs (o : Fields) : List Value :=
  (o.nestedSlice [str "spec", str "template", str "spec", str "replicatedJobs"]).getD []

def firstReplicatedJobContainer (o : Fields) : TrainerContainer :=
  let c := (pickJob none none (replicatedJobs o)).bind fun m =>
    nestedFirstContainer m [str "template", str "spec", str "template", str "spec", str "containers"]
  match c with
  | none   => ⟨[], [], [], 0⟩
  | some c =>
    let limit (key : String) : List Str := [str "resources", str "limits", str key]
    { image  := (c.nestedString [str "image"]).getD []
      cpu    := (c.nestedString (limit "cpu")).getD []
      memory := (c.nestedString (limit "memory")).getD []
      gpu    :=
        match c.nestedInt64 (limit "nvidia.com/gpu") with
        | some v => v
        | none   => ((c.nestedString (limit "nvidia.com/gpu")).map parseInt64Quantity).getD 0 }

structure TrainingRuntimeProjection extends TrainerContainer where
  framework : Str
  numNodes  : Int

def projectTrainingRuntime (o : Fields) : TrainingRuntimeProjection where
  toTrainerContainer := firstReplicatedJobContainer o
  framework          := Training.frameworkOf o
  numNodes           := nodesFor o

-- A job that is labelled as the trainer is picked when none before it is.
theorem pickJob_append {jobs : List Value} {job : Fields} (h : ∀ raw ∈ jobs, ∀ m, raw.obj? = some m →
    ancestorStep m ≠ str "trainer") (ht : ancestorStep job = str "trainer") (named last : Option Fields) :
    pickJob named last (jobs ++ [.obj job]) = some job := by
  induction jobs generalizing named last
  case nil              => simp [pickJob, ht]
  case cons raw jobs hi =>
    have hr := fun r hm => h r (.tail _ hm)
    rw [List.cons_append, pickJob]
    cases hm : raw.obj?
    case none   => exact hi hr named last
    case some m =>
      dsimp only
      rw [if_neg (h raw (.head _) m hm)]
      exact hi hr _ _

-- The state after one more condition.
def applyCondition (state : Str) (raw : Value) : Str :=
  match raw.obj? with
  | none   => state
  | some m =>
    let t := (m.nestedString [str "type"]).getD []
    let s := (m.nestedString [str "status"]).getD []
    if s ≠ str "True" then state
    else if t = str "Created" ∨ t = str "Running" then str "Running"
    else if t = str "Complete" ∨ t = str "Succeeded" then str "Succeeded"
    else if t = str "Failed" then str "Failed"
    else state

def jobConditions (o : Fields) : List Value :=
  (o.nestedSlice [str "status", str "conditions"]).getD []

def progressOf (o : Fields) : Int :=
  (o.nestedInt64 [str "status", str "progress"]).getD 0

def trainJobStatus (o : Fields) : Str × Int :=
  let state := (jobConditions o).foldl applyCondition (str "Pending")
  let progress := progressOf o
  (state, if progress = 0 && state = str "Succeeded" then 100 else progress)

-- What a condition says of the state, which one that is not true does not.
def stateOf (raw : Value) : Option Str :=
  raw.obj?.bind fun m =>
    let t := (m.nestedString [str "type"]).getD []
    if (m.nestedString [str "status"]).getD [] ≠ str "True" then none
    else if t = str "Created" ∨ t = str "Running" then some (str "Running")
    else if t = str "Complete" ∨ t = str "Succeeded" then some (str "Succeeded")
    else if t = str "Failed" then some (str "Failed")
    else none

def terminal : List Str :=
  [str "Succeeded", str "Failed"]

def Terminal (o : Fields) : Prop :=
  ∃ raw ∈ jobConditions o, ∃ state ∈ terminal, stateOf raw = some state

-- The same object but for the order of its conditions.
structure Reordered (o o' : Fields) : Prop where
  conditions : (jobConditions o').Perm (jobConditions o)
  progress   : progressOf o' = progressOf o

section Order

variable {o o' : Fields}

theorem applyCondition_eq (state : Str) (raw : Value) : applyCondition state raw = (stateOf raw).getD state := by
  unfold applyCondition stateOf
  cases raw.obj?
  case none   => rfl
  case some m =>
    simp only [Option.bind_some]
    repeat' split
    all_goals rfl

theorem trainJobStatus_fst (o : Fields) : (trainJobStatus o).1 = scan stateOf (str "Pending") (jobConditions o) := by
  have hf : applyCondition = fun state raw => (stateOf raw).getD state := by
    funext state raw
    exact applyCondition_eq state raw
  rw [trainJobStatus, hf]
  rfl

theorem trainJobStatus_congr (hs : (trainJobStatus o').1 = (trainJobStatus o).1) (hp : progressOf o' = progressOf o) :
    trainJobStatus o' = trainJobStatus o := by
  simp only [trainJobStatus] at hs ⊢
  rw [hs, hp]

def reporting (conds : List Value) (progress : Int) : Fields :=
  mapOf [("status", .obj (mapOf [("conditions", .list conds), ("progress", .int progress)]))]

theorem conditions_reporting (conds : List Value) (progress : Int) : jobConditions (reporting conds progress) = conds := by
  simp [jobConditions, reporting, Fields.nestedSlice, mapOf, Entries.get_set]

theorem progressOf_reporting (conds : List Value) (progress : Int) :
    progressOf (reporting conds progress) = progress := by
  simp [progressOf, reporting, Fields.nestedInt64, mapOf]

theorem reordered_reporting {conds : List Value} (h : conds.Perm (jobConditions o)) :
    Reordered o (reporting conds (progressOf o)) where
  conditions := by rwa [conditions_reporting]
  progress   := progressOf_reporting ..

-- The status does not depend on the order of the conditions, and what is over is not shown as running, if and only if
-- all the conditions that are true say the same.
theorem trainJobStatus_settled_iff (o : Fields) :
    ((∀ o', Reordered o o' → trainJobStatus o' = trainJobStatus o) ∧
      ∀ o', Reordered o o' → Terminal o → (trainJobStatus o').1 ∈ terminal) ↔
      Scan.Unanimous stateOf (jobConditions o) := by
  constructor
  case mp =>
    intro h
    apply (Scan.perm_iff (b := str "Pending")).mp
    intro conds hp
    have hs := congrArg Prod.fst (h.left _ (reordered_reporting hp))
    rwa [trainJobStatus_fst, trainJobStatus_fst, conditions_reporting] at hs
  case mpr =>
    intro hu
    constructor
    case left =>
      intro o' hr
      apply trainJobStatus_congr _ hr.progress
      rw [trainJobStatus_fst, trainJobStatus_fst]
      exact Scan.perm_iff.mpr hu _ hr.conditions
    case right =>
      rintro o' hr ⟨raw, hm, state, ht, hs⟩
      rw [trainJobStatus_fst, (hu.perm hr.conditions).eq (hr.conditions.mem_iff.mpr hm) hs]
      exact ht

section Example

def condition (type : String) : Value :=
  .obj (mapOf [("type", .string (str type)), ("status", .string (str "True"))])

-- A job that is complete, and that was running before.
theorem complete_shown_running :
    ¬∀ o : Fields, (∀ o', Reordered o o' → trainJobStatus o' = trainJobStatus o) ∧
      ∀ o', Reordered o o' → Terminal o → (trainJobStatus o').1 ∈ terminal := by
  intro h
  have hr : Reordered (reporting [condition "Complete", condition "Running"] 0)
      (reporting [condition "Complete", condition "Running"] 0) := ⟨.refl _, rfl⟩
  have ht : Terminal (reporting [condition "Complete", condition "Running"] 0) :=
    ⟨condition "Complete", .head _, str "Succeeded", .head _, by decide⟩
  have hs := (h _).right _ hr ht
  revert hs
  decide

end Example
end Order
end K8sRes
