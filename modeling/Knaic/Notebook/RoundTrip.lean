import Mathlib.Algebra.Ring.Int.Defs
import Knaic.Gpu.Status
import Knaic.K8sRes.Amounts
import Knaic.K8sRes.NotebookProj
import Knaic.Notebook.Service

open Go Effects Kube K8sRes
open Inference (quantities get_setIf)

namespace Notebook

def amountOf (gpuValues : Entries Int) : Int :=
  (gpuValues.map Prod.snd).sum

-- The workspace that is shown of a request.
def workspace (req : CreateRequest) : Option MountedClaim :=
  if workspacePVC req = [] then none else some ⟨workspacePVC req, req.volume.mountPath⟩

-- What the form of a notebook shows of the object that was made of it. The cards are the
-- accelerators whose keys count cards, which is up to their vendor.
structure Recovered (cards : Str → Bool) (obj : Fields) (req : CreateRequest) : Prop where
  image        : (projectNotebook obj).image = req.image
  cpu          : (projectNotebook obj).cpu = req.cpuRequest
  cpuLimit     : (projectNotebook obj).cpuLimit = req.cpuLimit
  memory       : (projectNotebook obj).memory = req.memoryRequest
  memoryLimit  : (projectNotebook obj).memoryLimit = req.memoryLimit
  gpuValues    : (projectNotebook obj).gpuValues.entries = req.gpuValues
  sharedMemory : (projectNotebook obj).sharedMemory = req.sharedMemory
  volume       : (projectNotebook obj).volume = workspace req
  gpu          : (projectNotebook obj).gpu = amountOf (req.gpuValues.filter fun e => cards e.1)

-- What does not count cards adds up to nothing, and the cards are an `int64`.
structure CountsOnlyCards (cards : Str → Bool) (gpuValues : Entries Int) : Prop where
  others : amountOf (gpuValues.filter fun e => !cards e.1) % 2 ^ 64 = 0
  lower  : -2 ^ 63 ≤ amountOf (gpuValues.filter fun e => cards e.1)
  upper  : amountOf (gpuValues.filter fun e => cards e.1) < 2 ^ 63

theorem bmod_eq_iff {a b : Int} : (a + b).bmod (2 ^ 64) = a ↔ b % 2 ^ 64 = 0 ∧ -2 ^ 63 ≤ a ∧ a < 2 ^ 63 := by
  rw [Int.bmod_def]
  omega

theorem amountOf_split (cards : Str → Bool) (g : Entries Int) :
    amountOf g = amountOf (g.filter fun e => cards e.1) + amountOf (g.filter fun e => !cards e.1) := by
  induction g
  case nil         => rfl
  case cons e g hi =>
    simp only [amountOf, List.map_cons, List.sum_cons, List.filter_cons] at hi ⊢
    cases cards e.1
    all_goals
      simp only [Bool.not_false, Bool.not_true, Bool.false_eq_true, if_true, if_false, List.map_cons, List.sum_cons]
      omega

section Object

variable {ns pvcName : Str} {req : CreateRequest}

theorem container_eq : nestedFirstContainer (notebookObject ns req pvcName)
    [str "spec", str "template", str "spec", str "containers"] = some (buildContainer req pvcName) := by
  simp [nestedFirstContainer, Fields.nestedSlice, notebookObject, mapOf, Entries.get_set]

theorem volumes_eq : (notebookObject ns req pvcName).nestedSlice
    [str "spec", str "template", str "spec", str "volumes"] = some (buildVolumes req pvcName) := by
  simp [Fields.nestedSlice, notebookObject, mapOf]

theorem resources_eq (req : CreateRequest) (pvcName : Str) :
    (buildContainer req pvcName).nestedMap [str "resources", str "requests"] =
      some (quantities req.cpuRequest req.memoryRequest req.gpuValues) ∧
    (buildContainer req pvcName).nestedMap [str "resources", str "limits"] =
      some (quantities req.cpuLimit req.memoryLimit req.gpuValues) := by
  constructor <;> simp [buildContainer, Fields.nestedMap, mapOf, Entries.get_set, get_setIf]

theorem image_eq : (buildContainer req pvcName).nestedString [str "image"] = some req.image := by
  simp [buildContainer, Fields.nestedString, mapOf, Entries.get_set, get_setIf]

theorem mounts_eq : (buildContainer req pvcName).nestedSlice [str "volumeMounts"] = some (volumeMounts req pvcName) := by
  simp [buildContainer, Fields.nestedSlice, mapOf, get_setIf]

theorem mountByName_workspace (req : CreateRequest) (hp : pvcName ≠ []) :
    (mountByName (volumeMounts req pvcName)).get (str "workspace") = some req.volume.mountPath := by
  simp [mountByName, volumeMounts, hp, Fields.nestedString, mapOf, Entries.get_set]

-- Of the two volumes the one for shared memory is told by its name.
theorem volumes_read : (buildVolumes req pvcName).foldl (.read (mountByName (volumeMounts req pvcName))) ⟨none, []⟩ =
    (⟨if pvcName = [] then none else some ⟨pvcName, req.volume.mountPath⟩,
      if req.sharedMemory = [] then defaultShm else req.sharedMemory⟩ : NotebookVolumes) := by
  by_cases hp : pvcName = []
  case pos =>
    simp [buildVolumes, hp, NotebookVolumes.read, Fields.nestedString, mapOf, Entries.get_set]
  case neg =>
    have hm := mountByName_workspace req hp
    simp [buildVolumes, hp, hm, NotebookVolumes.read, Fields.nestedString, mapOf, Entries.get_set]

end Object

section Form

variable {cards : Str → Bool} {ns pvcName : Str} {req : CreateRequest}

theorem gpuValues_iff (hm : req.gpuValues.Sorted) :
    (projectNotebook (notebookObject ns req pvcName)).gpuValues.entries = req.gpuValues ↔ Unreserved req.gpuValues := by
  simp only [projectNotebook, container_eq, Option.getD_some, (resources_eq ..).right, foldl_gpuValues]
  exact collected_iff (g := ⟨req.gpuValues, hm⟩)

theorem gpu_eq (hm : req.gpuValues.Sorted) (hu : Unreserved req.gpuValues) :
    (projectNotebook (notebookObject ns req pvcName)).gpu = (amountOf req.gpuValues).bmod (2 ^ 64) := by
  have hs := Inference.quantities_sorted req.cpuLimit req.memoryLimit (⟨req.gpuValues, hm⟩ : Dict Int)
  have hf := foldl_gpu (quantities req.cpuLimit req.memoryLimit req.gpuValues) 0 .empty
  rw [filterMap_counted hs, (collected_iff (g := ⟨req.gpuValues, hm⟩)).mpr hu, Int.zero_add] at hf
  simp only [projectNotebook, container_eq, Option.getD_some, (resources_eq ..).right]
  exact hf

theorem gpu_iff (hm : req.gpuValues.Sorted) (hu : Unreserved req.gpuValues) :
    (projectNotebook (notebookObject ns req pvcName)).gpu = amountOf (req.gpuValues.filter fun e => cards e.1) ↔
      CountsOnlyCards cards req.gpuValues := by
  rw [gpu_eq hm hu, amountOf_split cards, bmod_eq_iff]
  constructor
  case mp  => exact fun h => ⟨h.left, h.right.left, h.right.right⟩
  case mpr => exact fun h => ⟨h.others, h.lower, h.upper⟩

theorem recovered_iff (hm : req.gpuValues.Sorted) (hsh : req.sharedMemory ≠ []) :
    Recovered cards (notebookObject ns req (workspacePVC req)) req ↔
      Unreserved req.gpuValues ∧ CountsOnlyCards cards req.gpuValues := by
  constructor
  case mp  =>
    intro hr
    have hu := (gpuValues_iff hm).mp hr.gpuValues
    exact ⟨hu, (gpu_iff hm hu).mp hr.gpu⟩
  case mpr =>
    intro h
    obtain ⟨hu, hc⟩ := h
    have hq := fun name => amounts_of_map (g := ⟨req.gpuValues, hm⟩)
      (congrArg (·.getD []) (resources_eq req name).left) hu
    have hl := fun name => amounts_of_map (g := ⟨req.gpuValues, hm⟩)
      (congrArg (·.getD []) (resources_eq req name).right) hu
    constructor
    case image        => simp only [projectNotebook, container_eq, Option.getD_some, image_eq]
    case cpu          =>
      simp only [projectNotebook, container_eq, Option.getD_some]
      exact (hq _).left
    case cpuLimit     =>
      simp only [projectNotebook, container_eq, Option.getD_some]
      exact (hl _).left
    case memory       =>
      simp only [projectNotebook, container_eq, Option.getD_some]
      exact (hq _).right
    case memoryLimit  =>
      simp only [projectNotebook, container_eq, Option.getD_some]
      exact (hl _).right
    case gpuValues    => exact (gpuValues_iff hm).mpr hu
    case sharedMemory =>
      simp only [projectNotebook, container_eq, volumes_eq, Option.getD_some, mounts_eq, volumes_read, hsh, if_false]
    case volume       =>
      simp only [projectNotebook, container_eq, volumes_eq, Option.getD_some, mounts_eq, volumes_read, workspace]
    case gpu          => exact (gpu_iff hm hu).mpr hc

end Form

section Played

variable {D σ : Type} {answer : (op : ops.Op) → D → σ → ops.Res op × σ} {s : σ} {d : Nat → D} {ns : Str}
  {req : CreateRequest} {parseQuantity : Str → Except Error Quantity} {obj : Fields}

-- The form recovers what was asked for if and only if no accelerator has the name of another
-- resource, and what does not count cards adds up to nothing.
theorem notebook_round_trip_iff {cards : Str → Bool} (hm : req.gpuValues.Sorted)
    (h : (Prog.play answer (create parseQuantity ns req) d s).1 = .ok obj) :
    Recovered cards obj req.filled ↔ Unreserved req.gpuValues ∧ CountsOnlyCards cards req.gpuValues := by
  rw [create_always.play d obj h]
  change Recovered cards _ req.filled ↔ Unreserved req.filled.gpuValues ∧ CountsOnlyCards cards req.filled.gpuValues
  refine recovered_iff hm ?_
  simp only [CreateRequest.filled]
  split
  case isTrue  => decide
  case isFalse => assumption

end Played

section Example

def jupyter (gpuValues : Entries Int) : CreateRequest where
  name          := str "lab"
  image         := str "jupyter:4"
  cpuRequest    := str "2"
  cpuLimit      := []
  memoryRequest := str "8Gi"
  memoryLimit   := []
  gpuValues     := gpuValues
  sharedMemory  := []
  volume        := ⟨str "new", [], [], [], []⟩
  env           := []
  owner         := str "ada"

-- The request for a notebook with a new claim, in a cluster that is empty.
def launched (req : CreateRequest) : Except Error Fields :=
  (Prog.play Kube.answer (create (fun text => .ok ⟨text⟩) (str "team") req) (fun _ => ⟨Time.zero, [], none⟩)
    fun _ => ∅).1

theorem notebook_round_trip_cards :
    ∃ obj, launched (jupyter [(str "nvidia.com/gpu", 2)]) = .ok obj ∧
      Recovered (fun k => (Gpu.vendorOf k [str "nvidia.com/gpu"]).2) obj
        (jupyter [(str "nvidia.com/gpu", 2)]).filled := by
  have hm : (jupyter [(str "nvidia.com/gpu", 2)]).gpuValues.Sorted := List.pairwise_singleton ..
  obtain ⟨obj, h⟩ : ∃ obj, launched (jupyter [(str "nvidia.com/gpu", 2)]) = .ok obj := ⟨_, rfl⟩
  refine ⟨obj, h, (notebook_round_trip_iff hm h).mpr ⟨?_, ?_⟩⟩
  · rintro k (rfl | rfl) <;> decide
  · constructor <;> decide +kernel

-- A share of one card.
def share : Entries Int :=
  [(str "nvidia.com/gpualloc", 1), (str "nvidia.com/gpucores", 25), (str "nvidia.com/gpumem", 8192)]

-- One card is shown as 8218.
theorem shares_summed : ¬∀ (req : CreateRequest) (obj : Fields), req.gpuValues.Sorted → launched req = .ok obj →
    Recovered (fun k => (Gpu.vendorOf k (req.gpuValues.map fun e => Str.toLower e.1)).2) obj req.filled := by
  intro h
  have hm : (jupyter share).gpuValues.Sorted := by
    simp only [jupyter, share, Entries.Sorted]
    decide
  have hg := (h (jupyter share) _ hm rfl).gpu
  revert hg
  decide +kernel

end Example

-- The calls that stop and start a notebook, between reports of the controller.
section Lifecycle

def stoppedAnnotation : String :=
  "kubeflow-resource-stopped"

-- The merge patch of a call, which writes the annotation or, with null, removes it.
def stoppedPatch (v : Value) : Fields :=
  patchAt (str "metadata") [str "annotations", str stoppedAnnotation] v

-- What happens to a notebook: the calls, of which one that stops it is given the time, and the reports of the
-- controller, which owns the status.
inductive Event
  | stop (now : Str)
  | start
  | report (status : Value)

def Event.apply (o : Fields) : Event → Fields
  | stop now      => mergeFields (stoppedPatch (.string now)) o
  | start         => mergeFields (stoppedPatch .null) o
  | report status => o.set (str "status") status

def run (o : Fields) (events : List Event) : Fields :=
  events.foldl Event.apply o

-- A call shows in the status, whatever the controller reports after it.
structure Visible (o : Fields) (now : Str) (reports : List Value) : Prop where
  stopped : (projectNotebook (run o (.stop now :: reports.map .report))).status = str "Stopped"
  started : (projectNotebook (run o (.start :: reports.map .report))).status ≠ str "Stopped"

-- A notebook that was only stopped and started is what it was.
structure Restored (o o' : Fields) : Prop where
  spec        : o'.get (str "spec") = o.get (str "spec")
  annotations : ∀ k, k ≠ str stoppedAnnotation →
                  o'.nestedField [str "metadata", str "annotations", k] =
                  o.nestedField [str "metadata", str "annotations", k]

structure Reflected (o : Fields) (now : Str) (reports : List Value) : Prop extends Visible o now reports where
  restored : Restored o (run o (.stop now :: reports.map .report ++ [.start]))

section Events

variable {o o' o'' : Fields} {events : List Event}

theorem Restored.refl (o : Fields) : Restored o o :=
  ⟨rfl, fun _ _ => rfl⟩

theorem Restored.trans (h : Restored o o') (h' : Restored o' o'') : Restored o o'' :=
  ⟨h'.spec.trans h.spec, fun k hk => (h'.annotations k hk).trans (h.annotations k hk)⟩

theorem stoppedPatch_restored (o : Fields) (v : Value) : Restored o (mergeFields (stoppedPatch v) o) := by
  constructor
  case spec        => exact get_patchAt_ne (by simp)
  case annotations =>
    intro k hk
    apply nestedField_patchAt
    all_goals simp [List.cons_prefix_cons, hk, hk.symm]

theorem apply_restored (o : Fields) (e : Event) : Restored o (e.apply o) := by
  cases e
  case stop now      => exact stoppedPatch_restored o _
  case start         => exact stoppedPatch_restored o _
  case report status =>
    constructor
    case spec        => exact Entries.get_set_ne _ _ (by simp)
    case annotations =>
      intro k _
      simp [Event.apply, Entries.get_set]

-- No event touches the specification or another annotation.
theorem run_restored (o : Fields) (events : List Event) : Restored o (run o events) := by
  induction events generalizing o
  case nil            => exact .refl o
  case cons e rest hi => exact (apply_restored o e).trans (hi (e.apply o))

-- The annotation is not read.
theorem projectNotebook_not_stopped (o : Fields) : (projectNotebook o).status ≠ str "Stopped" := by
  have hs : notebookStatus o = str "Running" ∨ notebookStatus o = str "Progressing" := by
    simp only [notebookStatus]
    split
    case isTrue  => exact .inl rfl
    case isFalse =>
      split
      case isTrue  => exact .inr rfl
      case isFalse =>
        split
        case isTrue  => exact .inl rfl
        case isFalse => exact .inr rfl
  change notebookStatus o ≠ str "Stopped"
  rcases hs with hs | hs <;> rw [hs] <;> decide

end Events

-- No notebook is ever shown as stopped, whatever is reported of it. What is left of it is what was there.
theorem stop_never_reflected (o : Fields) (now : Str) (reports : List Value) :
    ¬Reflected o now reports ∧
    (projectNotebook (run o (.start :: reports.map .report))).status ≠ str "Stopped" ∧
    Restored o (run o (.stop now :: reports.map .report ++ [.start])) := by
  refine ⟨?_, projectNotebook_not_stopped _, run_restored ..⟩
  intro h
  exact projectNotebook_not_stopped _ h.stopped

-- A notebook whose controller has taken its pod away.
theorem stopped_progressing : ∃ o now reports,
    (projectNotebook (run o (.stop now :: reports.map .report))).status = str "Progressing" ∧
      ¬Reflected o now reports := by
  refine ⟨notebookObject (str "team") ⟨str "alice", str "jupyter", str "1", str "1", str "1Gi", str "1Gi", [], str "2Gi",
    ⟨str "none", [], [], [], []⟩, [], []⟩ [], str "2024-05-01T00:00:00Z",
    [.obj (mapOf [("conditions", .list []), ("containerState", .obj [])])], by decide, ?_⟩
  intro h
  have hs := h.stopped
  revert hs
  decide

end Lifecycle
end Notebook
