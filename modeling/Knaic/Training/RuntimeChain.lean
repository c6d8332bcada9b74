import Knaic.Inference.RoundTrip
import Knaic.K8sRes.TrainingProj
import Knaic.Training.Builders

open Go Kube K8sRes
open Inference (get_quantities quantities setIf get_setIf)

namespace Training

def stepName (job : Value) : Str :=
  (job.obj?.bind fun m => m.nestedString [str "name"]).getD []

-- The names of the jobs that a job waits for.
def dependencies (job : Value) : List Str :=
  ((job.obj?.bind fun m => m.nestedSlice [str "dependsOn"]).getD []).map stepName

-- Every job waits for the one before it, which is another one.
def Linked : Option Str → List Value → Prop
  | _, []              => True
  | before, job :: jobs =>
    dependencies job = before.toList ∧ before ≠ some (stepName job) ∧ Linked (some (stepName job)) jobs

-- The jobs of a runtime, of which the last one is that of the trainer and is taken for it.
structure Chain (jobs : List Value) : Prop where
  distinct : (jobs.map stepName).Nodup
  linked   : Linked none jobs
  trainer  : ∃ job, jobs.getLast? = some (.obj job) ∧ stepName (.obj job) = str "node" ∧
             ancestorStep job = str "trainer" ∧ pickJob none none jobs = some job

structure RuntimeRecovered (o : Fields) (req : CreateRuntimeRequest) : Prop where
  framework : (K8sRes.projectTrainingRuntime o).framework = req.framework
  numNodes  : (K8sRes.projectTrainingRuntime o).numNodes = req.numNodes
  image     : (K8sRes.projectTrainingRuntime o).image = req.image
  cpu       : (K8sRes.projectTrainingRuntime o).cpu = req.cpuLimit
  memory    : (K8sRes.projectTrainingRuntime o).memory = req.memoryLimit

-- The jobs before that of the trainer.
section PreJobs

variable {ps : List RuntimePreJob} {jobs : List Value} {before last : Str} {name step : Str} {c : Fields}

-- A job as it is put into the list.
def linkedJob (before name step : Str) (c : Fields) : Fields :=
  setIf (before ≠ []) (jobObject (.string name) (.string step) c) "dependsOn" (dependsOn (.string before))

theorem stepName_job (before name step : Str) (c : Fields) : stepName (.obj (linkedJob before name step c)) = name := by
  simp [stepName, linkedJob, jobObject, Fields.nestedString, mapOf, Entries.get_set, get_setIf]

theorem ancestorStep_job (before name step : Str) (c : Fields) : ancestorStep (linkedJob before name step c) = step := by
  simp [ancestorStep, linkedJob, jobObject, Fields.nestedString, mapOf, Entries.get_set, get_setIf]

-- Nothing stands before the first job.
def given (before : Str) : Option Str :=
  if before = [] then none else some before

theorem dependencies_job (before name step : Str) (c : Fields) :
    dependencies (.obj (linkedJob before name step c)) = (given before).toList := by
  by_cases hb : before = []
  case pos =>
    simp [dependencies, linkedJob, jobObject, Fields.nestedSlice, mapOf, Entries.get_set, get_setIf, given, hb]
  case neg =>
    simp [dependencies, linkedJob, jobObject, Fields.nestedSlice, mapOf, Entries.get_set, get_setIf, given, hb,
      dependsOn, stepName, Fields.nestedString]

theorem given_of_ne (h : name ≠ []) : given name = some name :=
  if_neg h

theorem isPreJobName_ne (h : isPreJobName name) : name ≠ [] ∧ name ≠ str "node" ∧ name ≠ str "trainer" := by
  simp only [isPreJobName, Bool.or_eq_true, decide_eq_true_eq] at h
  obtain rfl | rfl := h <;> decide

-- What becomes of a list of jobs that is accepted.
structure Built (ps : List RuntimePreJob) (before : Str) (jobs : List Value) (last : Str) : Prop where
  names  : jobs.map stepName = ps.map (·.name)
  known  : ∀ p ∈ ps, isPreJobName p.name
  steps  : ∀ raw ∈ jobs, ∀ m, raw.obj? = some m → ancestorStep m ≠ str "trainer"
  ends   : ps = [] ∧ last = before ∨ ∃ p ∈ ps, last = p.name
  linked : ((given before).toList ++ ps.map (·.name)).Nodup →
           ∀ tail, Linked (given last) tail → Linked (given before) (jobs ++ tail)

theorem Built.cons {p : RuntimePreJob} (h : Built ps p.name jobs last) (hp : isPreJobName p.name) (c : Fields) :
    Built (p :: ps) before (.obj (linkedJob before p.name p.name c) :: jobs) last := by
  obtain ⟨hne, -, htr⟩ := isPreJobName_ne hp
  constructor
  case names => rw [List.map_cons, stepName_job, h.names, List.map_cons]
  case known =>
    intro p' hm
    cases hm
    case head    => exact hp
    case tail hm => exact h.known p' hm
  case steps =>
    intro raw hm m ho
    cases hm
    case tail hm => exact h.steps raw hm m ho
    case head    =>
      cases ho
      rwa [ancestorStep_job]
  case ends =>
    right
    cases h.ends
    case inl he => exact ⟨p, .head _, he.right⟩
    case inr he =>
      obtain ⟨p', hm, hl⟩ := he
      exact ⟨p', .tail _ hm, hl⟩
  case linked =>
    intro hd tail ht
    have hg : given p.name = some p.name := given_of_ne hne
    have hl := h.linked
    rw [hg] at hl
    rw [List.cons_append, Linked, stepName_job]
    refine ⟨dependencies_job .., ?_, hl ?_ tail ht⟩
    case refine_1 =>
      intro he
      rw [he] at hd
      simp at hd
    case refine_2 => exact (List.nodup_append.mp hd).right.left

theorem preJobs_built (h : preJobs before ps = .ok (jobs, last)) : Built ps before jobs last := by
  induction ps generalizing before jobs last
  case nil          =>
    cases h
    exact ⟨rfl, by simp, by simp, .inl ⟨rfl, rfl⟩, fun _ _ ht => ht⟩
  case cons p ps hi =>
    rw [preJobs] at h
    split at h
    case isTrue      => cases h
    case isFalse hp =>
      split at h
      case isTrue  => cases h
      case isFalse =>
        cases hr : preJobs p.name ps
        case error e => rw [hr] at h; cases h
        case ok q    =>
          rw [hr] at h
          cases h
          exact (hi hr).cons (by simpa using hp) _

end PreJobs

-- The runtime as a whole.
section Runtime

variable {ns : Str} {req : CreateRuntimeRequest} {o : Fields} {jobs : List Value} {last : Str}

theorem createRuntime_ok (h : createRuntime ns req = .ok o) :
    ∃ jobs last, preJobs [] req.preJobs = .ok (jobs, last) ∧ o = createdObject ns req.filled jobs last := by
  unfold createRuntime at h
  split at h
  case isTrue  => cases h
  case isFalse =>
    have hf : req.filled.preJobs = req.preJobs := rfl
    rw [hf] at h
    cases hp : preJobs [] req.preJobs
    case error e => rw [hp] at h; cases h
    case ok q    =>
      rw [hp] at h
      cases h
      exact ⟨q.1, q.2, rfl, rfl⟩

-- The container of the trainer.
def trainerContainer (req : CreateRuntimeRequest) : Fields :=
  let requests := quantities req.cpuRequest req.memoryRequest req.gpuValues
  let limits   := quantities req.cpuLimit req.memoryLimit req.gpuValues
  setIf (requests ≠ [] ∨ limits ≠ []) (container (str "node") req.image req.command req.args req.env) "resources"
    (.obj (mapOf [("requests", .obj requests), ("limits", .obj limits)]))

theorem replicatedJobs_created (ns : Str) (req : CreateRuntimeRequest) (jobs : List Value) (last : Str) :
    replicatedJobs (createdObject ns req jobs last) =
      jobs ++ [.obj (linkedJob last (str "node") (str "trainer") (trainerContainer req))] := by
  simp [replicatedJobs, createdObject, linkedJob, trainerContainer, Fields.nestedSlice, mapOf]

theorem chain_iff (h : createRuntime ns req = .ok o) :
    Chain (replicatedJobs o) ↔ (req.preJobs.map (·.name)).Nodup := by
  obtain ⟨jobs, last, hp, rfl⟩ := createRuntime_ok h
  have hb := preJobs_built hp
  rw [replicatedJobs_created]
  constructor
  case mp =>
    intro hc
    have hd := hc.distinct
    rw [List.map_append, hb.names] at hd
    exact (List.nodup_append.mp hd).left
  case mpr =>
    intro hd
    have hnode : str "node" ∉ req.preJobs.map (·.name) := by
      intro hm
      obtain ⟨p, hm, hn⟩ := List.mem_map.mp hm
      exact (isPreJobName_ne (hb.known p hm)).right.left hn
    constructor
    case distinct =>
      rw [List.map_append, hb.names, List.map_singleton, stepName_job]
      exact List.nodup_append.mpr ⟨hd, List.nodup_singleton _, by
        rintro a ha b hm rfl
        exact hnode (List.mem_singleton.mp hm ▸ ha)⟩
    case linked =>
      apply hb.linked hd
      refine ⟨dependencies_job .., ?_, trivial⟩
      rw [stepName_job]
      intro he
      cases hb.ends
      case inl hn =>
        rw [hn.right] at he
        cases he
      case inr hn =>
        obtain ⟨p, hm, rfl⟩ := hn
        obtain ⟨hne, hno, -⟩ := isPreJobName_ne (hb.known p hm)
        rw [given_of_ne hne] at he
        exact hno (Option.some.inj he)
    case trainer =>
      refine ⟨_, List.getLast?_concat, stepName_job .., ancestorStep_job .., ?_⟩
      exact pickJob_append hb.steps (ancestorStep_job ..) none none

-- The container that is shown is that of the trainer.
theorem firstReplicatedJobContainer_created (h : createRuntime ns req = .ok o) :
    (firstReplicatedJobContainer o).image = req.image ∧
      (firstReplicatedJobContainer o).cpu =
        ((trainerContainer req.filled).nestedString [str "resources", str "limits", str "cpu"]).getD [] ∧
      (firstReplicatedJobContainer o).memory =
        ((trainerContainer req.filled).nestedString [str "resources", str "limits", str "memory"]).getD [] := by
  obtain ⟨jobs, last, hp, rfl⟩ := createRuntime_ok h
  have hb := preJobs_built hp
  have hc : (linkedJob last (str "node") (str "trainer") (trainerContainer req.filled)).nestedSlice
      [str "template", str "spec", str "template", str "spec", str "containers"] =
        some [.obj (trainerContainer req.filled)] := by
    simp [linkedJob, jobObject, Fields.nestedSlice, mapOf, get_setIf]
  have hi : (trainerContainer req.filled).nestedString [str "image"] = some req.image := by
    simp [trainerContainer, container, Fields.nestedString, mapOf, get_setIf, CreateRuntimeRequest.filled]
  simp only [firstReplicatedJobContainer]
  rw [replicatedJobs_created, pickJob_append hb.steps (ancestorStep_job ..)]
  simp [nestedFirstContainer, hc, hi]

theorem nestedField_limits (req : CreateRuntimeRequest) (k : Str) :
    (trainerContainer req).nestedField [str "resources", str "limits", k] =
      (quantities req.cpuLimit req.memoryLimit req.gpuValues).get k := by
  by_cases hl : quantities req.cpuLimit req.memoryLimit req.gpuValues = []
  case pos =>
    by_cases hr : quantities req.cpuRequest req.memoryRequest req.gpuValues = []
    all_goals simp [trainerContainer, container, mapOf, Entries.get_set, get_setIf, hl, hr]
  case neg => simp [trainerContainer, mapOf, get_setIf, hl]

-- An amount is shown unless an accelerator has its name.
theorem limit_iff {k s : Str} {found : Option Int}
    (hf : (trainerContainer req).nestedField [str "resources", str "limits", k] =
      (found.map Value.int).or (if s ≠ [] then some (.string s) else none)) :
    ((trainerContainer req).nestedString [str "resources", str "limits", k]).getD [] = s ↔ found = none ∨ s = [] := by
  rw [Fields.nestedString, hf]
  by_cases hs : s = [] <;> cases found <;> simp [hs, Value.string?, eq_comm]

theorem limits_iff (req : CreateRuntimeRequest) (hm : req.gpuValues.Sorted) :
    (((trainerContainer req).nestedString [str "resources", str "limits", str "cpu"]).getD [] = req.cpuLimit ↔
      req.gpuValues.get (str "cpu") = none ∨ req.cpuLimit = []) ∧
    (((trainerContainer req).nestedString [str "resources", str "limits", str "memory"]).getD [] = req.memoryLimit ↔
      req.gpuValues.get (str "memory") = none ∨ req.memoryLimit = []) := by
  have hq : ∀ k, (quantities req.cpuLimit req.memoryLimit req.gpuValues).get k = _ :=
    get_quantities req.cpuLimit req.memoryLimit ⟨req.gpuValues, hm⟩
  constructor
  case left  => exact limit_iff ((nestedField_limits ..).trans ((hq _).trans (by simp [Dict.get])))
  case right => exact limit_iff ((nestedField_limits ..).trans ((hq _).trans (by simp [Dict.get])))

theorem spec_created (ns : Str) (req : CreateRuntimeRequest) (jobs : List Value) (last : Str) :
    (createdObject ns req jobs last).nestedMap [str "spec", str "mlPolicy"] =
      some (Entries.set (mapOf [("numNodes", .int req.numNodes)]) req.framework (.obj [])) ∧
    (createdObject ns req jobs last).nestedString [str "metadata", str "labels", str "knaic.io/framework"] =
      some req.framework ∧
    (createdObject ns req jobs last).nestedField [str "spec", str "numNodes"] = none := by
  refine ⟨?_, ?_, ?_⟩ <;> simp [createdObject, Fields.nestedMap, Fields.nestedString, mapOf, Entries.get_set]

theorem filled_framework (req : CreateRuntimeRequest) : req.filled.framework ≠ [] := by
  simp only [CreateRuntimeRequest.filled]
  split
  case isTrue  => decide
  case isFalse => assumption

theorem frameworkOf_created (ns : Str) {req : CreateRuntimeRequest} (hf : req.framework ≠ []) (jobs : List Value)
    (last : Str) : frameworkOf (createdObject ns req jobs last) = req.framework := by
  obtain ⟨hp, hl, -⟩ := spec_created ns req jobs last
  have hk : ∀ k ∈ ["torch", "deepspeed", "mpi", "tensorflow", "jax"],
      ((Entries.set (mapOf [("numNodes", .int req.numNodes)]) req.framework (.obj [])).get (str k)).isSome →
        str k = req.framework := by
    have hne : ∀ k ∈ ["torch", "deepspeed", "mpi", "tensorflow", "jax"], str k ≠ str "numNodes" := by decide
    intro k hm hs
    rw [Entries.get_set] at hs
    split at hs
    case isTrue he => exact he
    case isFalse   => simp [mapOf, Entries.get_set, hne k hm] at hs
  simp only [frameworkOf, hp, hl, Option.getD_some]
  split
  case h_1 k hk' =>
    have hm := List.mem_of_find?_eq_some hk'
    have hs := List.find?_some hk'
    exact hk k hm hs
  case h_2 => simp [hf]

theorem nodesFor_created_iff (ns : Str) (req : CreateRuntimeRequest) (jobs : List Value) (last : Str) :
    nodesFor (createdObject ns req jobs last) = req.numNodes ↔
      req.numNodes = 1 ∨ 0 < req.numNodes ∧ req.framework ≠ str "numNodes" := by
  obtain ⟨hp, -, hn⟩ := spec_created ns req jobs last
  have hi : (createdObject ns req jobs last).nestedInt64 [str "spec", str "mlPolicy", str "numNodes"] =
      if req.framework = str "numNodes" then none else some req.numNodes := by
    have ha := (createdObject ns req jobs last).nestedField_append [str "spec", str "mlPolicy"] (str "numNodes")
    rw [hp, Option.getD_some, Entries.get_set] at ha
    rw [Fields.nestedInt64]
    refine (congrArg (·.bind Value.int?) ha).trans ?_
    by_cases he : req.framework = str "numNodes"
    case pos => simp [he, Value.int?]
    case neg => simp [he, Ne.symm he, mapOf]
  simp only [nodesFor, Fields.nestedInt64, hn] at hi ⊢
  simp only [hi, Option.bind_none, Option.filter_none, Option.none_or]
  by_cases he : req.framework = str "numNodes"
  case pos => simp [he, eq_comm]
  case neg =>
    by_cases hz : 0 < req.numNodes
    case pos => simp [he, hz, Option.filter]
    case neg => simp [he, hz, Option.filter, eq_comm]

-- The jobs of a runtime are a chain, and the runtime shows what was asked for, if and only if no step comes twice, the
-- number of nodes is not negative (and not written over by the framework), and no accelerator has the name of an amount.
theorem runtime_chain_iff (hm : req.gpuValues.Sorted) (h : createRuntime ns req = .ok o) :
    Chain (replicatedJobs o) ∧ RuntimeRecovered o req.filled ↔
      (req.preJobs.map (·.name)).Nodup ∧
      (req.filled.numNodes = 1 ∨ 0 < req.filled.numNodes ∧ req.filled.framework ≠ str "numNodes") ∧
      (req.gpuValues.get (str "cpu") = none ∨ req.filled.cpuLimit = []) ∧
      (req.gpuValues.get (str "memory") = none ∨ req.filled.memoryLimit = []) := by
  obtain ⟨hi, hc, hme⟩ := firstReplicatedJobContainer_created h
  obtain ⟨jobs, last, hp, ho⟩ := createRuntime_ok h
  obtain ⟨hcl, hml⟩ := limits_iff req.filled hm
  have hn := nodesFor_created_iff ns req.filled jobs last
  rw [← ho] at hn
  apply and_congr (chain_iff h)
  rw [← hn]
  constructor
  case mp =>
    intro hr
    exact ⟨hr.numNodes, hcl.mp (hc.symm.trans hr.cpu), hml.mp (hme.symm.trans hr.memory)⟩
  case mpr =>
    rintro ⟨hn, hcpu, hmemory⟩
    exact {
      framework := (congrArg frameworkOf ho).trans (frameworkOf_created ns (filled_framework req) jobs last)
      numNodes  := hn
      image     := hi
      cpu       := hc.trans (hcl.mpr hcpu)
      memory    := hme.trans (hml.mpr hmemory)
    }

section Example

def initializer (name : String) : RuntimePreJob :=
  ⟨str name, str "initializer:1", [], [], []⟩

def torchRuntime (preJobs : List RuntimePreJob) : CreateRuntimeRequest where
  name          := str "torch-distributed"
  framework     := []
  image         := str "torch:2.6"
  numNodes      := 2
  command       := []
  args          := []
  env           := []
  cpuRequest    := str "8"
  cpuLimit      := []
  memoryRequest := str "32Gi"
  memoryLimit   := []
  gpuValues     := [(str "nvidia.com/gpu", 4)]
  preJobs

theorem runtime_chain_two_steps :
    let req := torchRuntime [initializer "dataset-initializer", initializer "model-initializer"]
    ∃ o, createRuntime (str "team") req = .ok o ∧ Chain (replicatedJobs o) ∧ RuntimeRecovered o req.filled := by
  intro req
  have hm : req.gpuValues.Sorted := List.pairwise_singleton ..
  refine ⟨_, rfl, (runtime_chain_iff hm rfl).mpr ?_⟩
  decide

-- The second of two steps of one name waits for itself.
theorem same_step_twice : ¬∀ (ns : Str) (req : CreateRuntimeRequest) (o : Fields), req.gpuValues.Sorted →
    createRuntime ns req = .ok o → Chain (replicatedJobs o) ∧ RuntimeRecovered o req.filled := by
  intro h
  have hc := (h (str "team") (torchRuntime [initializer "model-initializer", initializer "model-initializer"]) _
    (List.pairwise_singleton ..) rfl).left
  have hd := hc.distinct
  revert hd
  decide +kernel

end Example
end Runtime
end Training
