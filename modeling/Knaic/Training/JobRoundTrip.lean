import Knaic.K8sRes.Amounts
import Knaic.Training.RuntimeRef

open Go Kube K8sRes
open Inference (quantities setIf get_setIf)

namespace Training

-- What the form of a job shows of the object that was made of it.
structure JobRecovered (runID : Str) (job : Fields) (req : CreateJobRequest) : Prop where
  runtime     : (projectTrainJob job).runtime = req.runtime
  numNodes    : (projectTrainJob job).numNodes = req.numNodes
  command     : (projectTrainJob job).command = req.command
  args        : (projectTrainJob job).args = req.args
  env         : (projectTrainJob job).env = req.env
  cpu         : (projectTrainJob job).cpu = req.cpuRequest
  cpuLimit    : (projectTrainJob job).cpuLimit = req.cpuLimit
  memory      : (projectTrainJob job).memory = req.memoryRequest
  memoryLimit : (projectTrainJob job).memoryLimit = req.memoryLimit
  gpuValues   : (projectTrainJob job).gpuValues.entries = req.gpuValues
  modelURI    : (projectTrainJob job).modelURI = req.modelURI
  datasetURI  : (projectTrainJob job).datasetURI = req.datasetURI
  mlflow      : mlflowFromAnnotations job =
                if req.mlflowTrackingURI = [] ∧ req.mlflowExperiment = [] then none
                else some ⟨req.mlflowTrackingURI, req.mlflowExperiment, runID⟩

section Job

variable {runID ns : Str} {req : CreateJobRequest} {job : Fields}

theorem createJob_eq (h : createJob runID ns req = .ok job) :
    req.runtime ≠ [] ∧ job.get (str "metadata") = some (.obj (metadata runID ns req.filled)) ∧
      job.get (str "spec") = some (.obj (mapOf [
        ("runtimeRef", .obj (mapOf [
          ("name", .string req.filled.runtime),
          ("kind", .string (str "TrainingRuntime"))])),
        ("trainer", .obj (trainer req.filled))])) := by
  unfold createJob at h
  split at h
  case isTrue     => cases h
  case isFalse hn =>
    cases h
    exact ⟨(not_or.mp hn).right, by simp [mapOf, Entries.get_set], by simp [mapOf]⟩

-- What is found below the trainer of a job.
theorem nestedField_trainer (h : createJob runID ns req = .ok job) (path : List Str) (hp : path ≠ []) :
    job.nestedField (str "spec" :: str "trainer" :: path) = (trainer req.filled).nestedField path := by
  rw [Fields.nestedField_cons_cons, (createJob_eq h).right.right]
  simp [Fields.nestedField_cons _ _ hp, mapOf]

section Below

variable (h : createJob runID ns req = .ok job) (path : List Str) (hp : path ≠ [])

include h hp

theorem nestedString_trainer :
    job.nestedString (str "spec" :: str "trainer" :: path) = (trainer req.filled).nestedString path := by
  rw [Fields.nestedString, nestedField_trainer h path hp, Fields.nestedString]

theorem nestedInt64_trainer :
    job.nestedInt64 (str "spec" :: str "trainer" :: path) = (trainer req.filled).nestedInt64 path := by
  rw [Fields.nestedInt64, nestedField_trainer h path hp, Fields.nestedInt64]

theorem nestedSlice_trainer :
    job.nestedSlice (str "spec" :: str "trainer" :: path) = (trainer req.filled).nestedSlice path := by
  rw [Fields.nestedSlice, nestedField_trainer h path hp, Fields.nestedSlice]

theorem nestedMap_trainer :
    job.nestedMap (str "spec" :: str "trainer" :: path) = (trainer req.filled).nestedMap path := by
  rw [Fields.nestedMap, nestedField_trainer h path hp, Fields.nestedMap]

end Below

-- The quantities below a path.
theorem amounts_trainer (req : CreateJobRequest) :
    (trainer req).nestedMap [str "resourcesPerNode", str "requests"] =
      some (quantities req.cpuRequest req.memoryRequest req.gpuValues) ∧
    (trainer req).nestedMap [str "resourcesPerNode", str "limits"] =
      some (quantities req.cpuLimit req.memoryLimit req.gpuValues) := by
  constructor <;> simp [trainer, Fields.nestedMap, mapOf, Entries.get_set, get_setIf]

theorem lists_trainer (req : CreateJobRequest) :
    ((trainer req).nestedSlice [str "command"]).getD [] = toAnySlice req.command ∧
    ((trainer req).nestedSlice [str "args"]).getD [] = toAnySlice req.args ∧
    ((trainer req).nestedSlice [str "env"]).getD [] = Inference.envSlice req.env := by
  refine ⟨?_, ?_, ?_⟩
  all_goals simp [trainer, Fields.nestedSlice, mapOf, Entries.get_set, get_setIf]
  case refine_1 => exact Inference.list_unless fun h => by simp [h, toAnySlice]
  case refine_2 => exact Inference.list_unless fun h => by simp [h, toAnySlice]
  case refine_3 => exact Inference.list_unless fun h => by simp [h, Inference.envSlice]

theorem envSlice_eq {o : Fields} {path : List Str} {env : List Inference.EnvVar}
    (h : (o.nestedSlice path).getD [] = Inference.envSlice env) : envSlice o path = env := by
  simp only [envSlice, h, Inference.envSlice]
  clear h
  induction env
  case nil           => rfl
  case cons e env hi =>
    rw [List.map_cons, List.filterMap_cons, hi]
    simp [Fields.nestedString, mapOf, Entries.get_set]

-- The annotations as texts.
def annotationTexts (runID : Str) (req : CreateJobRequest) : Entries Str :=
  let tracking   := req.mlflowTrackingURI
  let experiment := req.mlflowExperiment
  let a : Entries Str := if tracking ≠ [] then Entries.set [] (str "mlflow.knaic.io/tracking-uri") tracking else []
  let a := if experiment ≠ [] then a.set (str "mlflow.knaic.io/experiment") experiment else a
  if experiment ≠ [] ∨ tracking ≠ [] then a.set (str "mlflow.knaic.io/run-id") runID else a

theorem setIf_strings (c : Prop) [Decidable c] (m : Entries Str) (k : String) (s : Str) :
    setIf c (strings m) k (.string s) = strings (if c then m.set (str k) s else m) := by
  by_cases hc : c <;> simp [setIf, hc, set_strings]

theorem annotations_eq (runID : Str) (req : CreateJobRequest) :
    annotations runID req = strings (annotationTexts runID req) := by
  have hn : ([] : Fields) = strings [] := rfl
  simp only [annotations, annotationTexts]
  rw [hn, setIf_strings, setIf_strings, setIf_strings]

theorem getAnnotations_job (h : createJob runID ns req = .ok job) :
    job.getAnnotations = annotationTexts runID req.filled := by
  have hm : job.nestedMap [str "metadata", str "annotations"] =
      if annotations runID req.filled = [] then none else some (annotations runID req.filled) := by
    simp only [Fields.nestedMap, Fields.nestedField_cons_cons, Fields.nestedField_one, (createJob_eq h).right.left]
    by_cases ha : annotations runID req.filled = []
    all_goals simp [metadata, get_setIf, ha, mapOf, Entries.get_set]
  by_cases ha : annotations runID req.filled = []
  case pos =>
    have ht : annotationTexts runID req.filled = [] := by
      rw [annotations_eq] at ha
      exact List.map_eq_nil_iff.mp ha
    simp [Fields.getAnnotations, Fields.nestedStringMap, hm, ha, ht]
  case neg =>
    rw [if_neg ha, annotations_eq] at hm
    simp [Fields.getAnnotations, Fields.nestedStringMap_strings hm]

theorem mlflow_job (h : createJob runID ns req = .ok job) :
    mlflowFromAnnotations job =
      if req.mlflowTrackingURI = [] ∧ req.mlflowExperiment = [] then none
      else some ⟨req.mlflowTrackingURI, req.mlflowExperiment, runID⟩ := by
  simp only [mlflowFromAnnotations, getAnnotations_job h, annotationTexts, CreateJobRequest.filled]
  by_cases ht : req.mlflowTrackingURI = [] <;> by_cases he : req.mlflowExperiment = [] <;>
    simp [ht, he, Entries.get_set]

theorem gpuValues_job_iff (hm : req.gpuValues.Sorted) (h : createJob runID ns req = .ok job) :
    (projectTrainJob job).gpuValues.entries = req.gpuValues ↔ Unreserved req.gpuValues := by
  simp only [projectTrainJob, List.map_cons, List.map_nil]
  rw [nestedMap_trainer h _ (by simp), (amounts_trainer _).right]
  exact collected_iff (g := ⟨req.gpuValues, hm⟩)

theorem filled_numNodes (req : CreateJobRequest) : req.filled.numNodes ≠ 0 := by
  simp only [CreateJobRequest.filled]
  split <;> simp_all

-- The form recovers what was asked for if and only if no accelerator has the name of another resource.
theorem trainJob_round_trip_iff (hm : req.gpuValues.Sorted) (h : createJob runID ns req = .ok job) :
    JobRecovered runID job req.filled ↔ Unreserved req.gpuValues := by
  constructor
  case mp  => exact fun hr => (gpuValues_job_iff hm h).mp hr.gpuValues
  case mpr =>
    intro hu
    have hn := filled_numNodes req
    obtain ⟨hq, hl⟩ := amounts_trainer req.filled
    obtain ⟨hc, ha, he⟩ := lists_trainer req.filled
    have hmap : ∀ kind m, (trainer req.filled).nestedMap [str "resourcesPerNode", str kind] = some m →
        (job.nestedMap [str "spec", str "trainer", str "resourcesPerNode", str kind]).getD [] = m := by
      intro kind m hm
      rw [nestedMap_trainer h _ (by simp), hm, Option.getD_some]
    obtain ⟨hcpu, hmem⟩ := amounts_of_map (g := ⟨req.gpuValues, hm⟩) (hmap "requests" _ hq) hu
    obtain ⟨hcpuLimit, hmemLimit⟩ := amounts_of_map (g := ⟨req.gpuValues, hm⟩) (hmap "limits" _ hl) hu
    have hs : ∀ path, path ≠ [] → job.nestedSlice (str "spec" :: str "trainer" :: path) =
        (trainer req.filled).nestedSlice path := nestedSlice_trainer h
    constructor
    case runtime =>
      have hr : job.nestedString [str "spec", str "runtimeRef", str "name"] = some req.runtime := by
        simp [Fields.nestedString, (createJob_eq h).right.right, mapOf, Entries.get_set, CreateJobRequest.filled]
      simp [projectTrainJob, hr, (createJob_eq h).left, CreateJobRequest.filled]
    case numNodes =>
      have hi : job.nestedInt64 [str "spec", str "trainer", str "numNodes"] = some req.filled.numNodes := by
        rw [nestedInt64_trainer h _ (by simp)]
        simp [trainer, Fields.nestedInt64, mapOf, Entries.get_set, get_setIf]
      simp [projectTrainJob, hi, hn]
    case command   => exact Fields.nestedStringSlice_of_slice ((congrArg (·.getD []) (hs _ (by simp))).trans hc)
    case args      => exact Fields.nestedStringSlice_of_slice ((congrArg (·.getD []) (hs _ (by simp))).trans ha)
    case env       => exact envSlice_eq ((congrArg (·.getD []) (hs _ (by simp))).trans he)
    case cpu         => exact hcpu
    case cpuLimit    => exact hcpuLimit
    case memory      => exact hmem
    case memoryLimit => exact hmemLimit
    case gpuValues   => exact (gpuValues_job_iff hm h).mpr hu
    case modelURI    =>
      simp only [projectTrainJob, List.map_cons, List.map_nil]
      rw [nestedString_trainer h _ (by simp)]
      by_cases hu : req.filled.modelURI = [] <;>
        simp [trainer, storageInput, Fields.nestedString, mapOf, Entries.get_set, get_setIf, hu]
    case datasetURI  =>
      simp only [projectTrainJob, List.map_cons, List.map_nil]
      rw [nestedString_trainer h _ (by simp)]
      by_cases hu : req.filled.datasetURI = [] <;>
        simp [trainer, storageInput, Fields.nestedString, mapOf, Entries.get_set, get_setIf, hu]
    case mlflow      =>
      have hf := mlflow_job h
      exact hf

section Example

def fineTune (gpuKey : String) : CreateJobRequest where
  name              := str "fine-tune"
  runtime           := str "torch"
  numNodes          := 2
  command           := [str "python"]
  args              := [str "train.py"]
  env               := [⟨str "EPOCHS", str "3"⟩]
  cpuRequest        := str "8"
  cpuLimit          := []
  memoryRequest     := str "32Gi"
  memoryLimit       := []
  gpuValues         := [(str gpuKey, 4)]
  modelURI          := str "hf://qwen"
  datasetURI        := []
  mlflowTrackingURI := []
  mlflowExperiment  := str "sft"

theorem trainJob_round_trip_cards :
    ∃ job, createJob (str "r-0a1b") (str "team") (fineTune "nvidia.com/gpu") = .ok job ∧
      JobRecovered (str "r-0a1b") job (fineTune "nvidia.com/gpu").filled := by
  have hm : (fineTune "nvidia.com/gpu").gpuValues.Sorted := List.pairwise_singleton ..
  refine ⟨_, rfl, (trainJob_round_trip_iff hm rfl).mpr ?_⟩
  rintro k (rfl | rfl) <;> decide

-- Four accelerators by the name of cpu.
theorem trainJob_cpu_lost : ¬∀ (runID ns : Str) (req : CreateJobRequest) (job : Fields), req.gpuValues.Sorted →
    createJob runID ns req = .ok job → JobRecovered runID job req.filled := by
  intro h
  have hr := h [] (str "team") (fineTune "cpu") _ (List.pairwise_singleton ..) rfl
  have hc := hr.cpu
  revert hc
  decide +kernel

end Example
end Job
end Training
