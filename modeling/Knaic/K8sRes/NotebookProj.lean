import Mathlib.Algebra.Ring.Int.Defs
import Knaic.K8sRes.TrainingProj

open Go Kube

namespace K8sRes

-- The sum is the same in whatever order the limits are visited.
structure Accelerators where
  gpu       : Int
  gpuValues : Dict Int

def Accelerators.add (s : Accelerators) (e : Str × Value) : Accelerators :=
  if e.1 ≠ str "cpu" && e.1 ≠ str "memory" then
    match trainJobCount? e.2 with
    | some n => ⟨(s.gpu + n).bmod (2 ^ 64), s.gpuValues.set e.1 n⟩
    | none   => s
  else
    s

structure MountedClaim where
  pvcName   : Str
  mountPath : Str
deriving DecidableEq

-- The volumes that are told apart. Without a claim the volume is of the kind none.
structure NotebookVolumes where
  volume       : Option MountedClaim
  sharedMemory : Str

def mountByName (mounts : List Value) : Entries Str :=
  mounts.foldl (fun paths raw =>
    match raw.obj? with
    | none   => paths
    | some m =>
      let name := (m.nestedString [str "name"]).getD []
      if name ≠ [] then paths.set name ((m.nestedString [str "mountPath"]).getD []) else paths) []

def NotebookVolumes.read (paths : Entries Str) (s : NotebookVolumes) (raw : Value) : NotebookVolumes :=
  match raw.obj? with
  | none   => s
  | some m =>
    let name := (m.nestedString [str "name"]).getD []
    if name = str "dshm" then
      match m.nestedString [str "emptyDir", str "sizeLimit"] with
      | some size => { s with sharedMemory := size }
      | none      => s
    else
      let pvc := (m.nestedString [str "persistentVolumeClaim", str "claimName"]).getD []
      if pvc ≠ [] then { s with volume := some ⟨pvc, (paths.get name).getD []⟩ } else s

def notebookReady (raw : Value) : Bool :=
  match raw.obj? with
  | none   => false
  | some m =>
    (m.nestedString [str "type"]).getD [] = str "Ready" && (m.nestedString [str "status"]).getD [] = str "True"

def notebookStatus (o : Fields) : Str :=
  let running := (o.nestedString [str "status", str "containerState", str "running"]).getD []
  let waiting := (o.nestedString [str "status", str "containerState", str "waiting", str "reason"]).getD []
  let conditions := (o.nestedSlice [str "status", str "conditions"]).getD []
  if running ≠ [] then str "Running"
  else if waiting ≠ [] then str "Progressing"
  else if conditions.any notebookReady then str "Running"
  else str "Progressing"

structure NotebookProjection extends Accelerators, NotebookVolumes where
  image       : Str
  cpu         : Str
  cpuLimit    : Str
  memory      : Str
  memoryLimit : Str
  status      : Str
  url         : Str
  owner       : Str

def projectNotebook (o : Fields) : NotebookProjection :=
  let podSpec (key : String) : List Str := [str "spec", str "template", str "spec", str key]
  let c := (nestedFirstContainer o (podSpec "containers")).getD []
  let amount (kind key : String) : Str := (c.nestedString [str "resources", str kind, str key]).getD []
  let limits := (c.nestedMap [str "resources", str "limits"]).getD []
  let paths := mountByName ((c.nestedSlice [str "volumeMounts"]).getD [])
  let owner := (o.nestedString [str "metadata", str "labels", str "knaic.io/owner"]).getD []
  { toAccelerators    := limits.foldl .add ⟨0, .empty⟩
    toNotebookVolumes := ((o.nestedSlice (podSpec "volumes")).getD []).foldl (.read paths) ⟨none, []⟩
    image             := (c.nestedString [str "image"]).getD []
    cpu               := amount "requests" "cpu"
    cpuLimit          := amount "limits" "cpu"
    memory            := amount "requests" "memory"
    memoryLimit       := amount "limits" "memory"
    status            := notebookStatus o
    url               := str "/notebook/" ++ o.getNamespace ++ str "/" ++ o.getName ++ str "/"
    owner             :=
      if owner = [] then (o.nestedString [str "metadata", str "labels", str "notebook.kubeflow.org/owner"]).getD []
      else owner }

-- What an entry counts for under its key.
def counted (e : Str × Value) : Option (Str × Int) :=
  if Reserved e.1 then none else (trainJobCount? e.2).map (e.1, ·)

theorem add_eq (s : Accelerators) (e : Str × Value) :
    s.add e = match counted e with
      | some (k, n) => ⟨(s.gpu + n).bmod (2 ^ 64), s.gpuValues.set k n⟩
      | none        => s := by
  have hr : (e.1 ≠ str "cpu" && e.1 ≠ str "memory") = true ↔ ¬Reserved e.1 := by simp [Reserved]
  simp only [Accelerators.add, counted, hr]
  by_cases hk : Reserved e.1
  case pos => simp [hk]
  case neg => cases trainJobCount? e.2 <;> simp [hk]

theorem add_gpuValues (s : Accelerators) (e : Str × Value) :
    (s.add e).gpuValues = collectTrainJob s.gpuValues e := by
  simp only [Accelerators.add, collectTrainJob]
  split
  case isFalse => rfl
  case isTrue  => split <;> simp_all

section Limits

variable {l : Fields}

theorem foldl_gpuValues (l : Fields) (s : Accelerators) :
    (l.foldl .add s).gpuValues = l.foldl collectTrainJob s.gpuValues := by
  induction l generalizing s
  case nil         => rfl
  case cons e l hi => rw [List.foldl_cons, List.foldl_cons, hi, add_gpuValues]

-- The sum wraps around once at the end as well as at every step.
theorem foldl_gpu (l : Fields) (a : Int) (g : Dict Int) :
    (l.foldl .add (⟨a.bmod (2 ^ 64), g⟩ : Accelerators)).gpu =
      (a + ((l.filterMap counted).map Prod.snd).sum).bmod (2 ^ 64) := by
  induction l generalizing a g
  case nil         => simp
  case cons e l hi =>
    rw [List.foldl_cons, add_eq, List.filterMap_cons]
    cases counted e
    case none   => exact hi a g
    case some p => simp only [Int.bmod_add_bmod, hi, List.map_cons, List.sum_cons, ← Int.add_assoc]

theorem counted_fst {e : Str × Value} {p : Str × Int} (h : counted e = some p) : p.1 = e.1 := by
  unfold counted at h
  split at h
  case isTrue  => cases h
  case isFalse =>
    obtain ⟨n, -, rfl⟩ := Option.map_eq_some_iff.mp h
    rfl

theorem counted_sorted (h : Entries.Sorted l) : Entries.Sorted (l.filterMap counted) := by
  refine List.Pairwise.filterMap _ (fun e e' hlt p hp p' hp' => ?_) h
  rwa [counted_fst hp, counted_fst hp']

theorem get_filterMap_counted (h : Entries.Sorted l) (k : Str) :
    Entries.get (l.filterMap counted) k = if Reserved k then none else (l.get k).bind trainJobCount? := by
  ext n
  rw [(counted_sorted h).get_eq_some_iff, List.mem_filterMap]
  constructor
  case mp =>
    rintro ⟨e, he, hc⟩
    have hk : k = e.1 := counted_fst hc
    subst hk
    unfold counted at hc
    split at hc
    case isTrue     => cases hc
    case isFalse hr =>
      obtain ⟨n', hn, hp⟩ := Option.map_eq_some_iff.mp hc
      cases hp
      rw [if_neg hr, (h.get_eq_some_iff (k := e.1)).mpr he, Option.bind_some, hn]
  case mpr =>
    intro hg
    split at hg
    case isTrue     => cases hg
    case isFalse hr =>
      obtain ⟨v, hv, hn⟩ := Option.bind_eq_some_iff.mp hg
      exact ⟨(k, v), Entries.mem_of_get hv, by simp [counted, hr, hn]⟩

-- What is counted is what is collected.
theorem filterMap_counted (h : Entries.Sorted l) : l.filterMap counted = (l.foldl collectTrainJob .empty).entries := by
  refine (counted_sorted h).ext (l.foldl collectTrainJob .empty).sorted fun k => ?_
  rw [get_filterMap_counted h, ← Dict.get, get_collectAllTrainJob h, Dict.get_empty, Option.or_none]

end Limits
end K8sRes
