import Knaic.Effects.Reads
import Knaic.Inference.Build
import Knaic.Kube.Api

open Go Effects Kube
open Inference (envSlice quantities setIf)

namespace Notebook

structure Volume where
  kind         : Str
  pvcName      : Str
  storageClass : Str
  capacity     : Str
  mountPath    : Str

structure CreateRequest where
  name          : Str
  image         : Str
  cpuRequest    : Str
  cpuLimit      : Str
  memoryRequest : Str
  memoryLimit   : Str
  gpuValues     : Entries Int
  sharedMemory  : Str
  volume        : Volume
  env           : List Inference.EnvVar
  owner         : Str

def defaultMountPath : Str :=
  str "/home/jovyan"

def defaultShm : Str :=
  str "2Gi"

def CreateRequest.filled (req : CreateRequest) : CreateRequest :=
  { req with
    cpuLimit     := if req.cpuLimit = [] then req.cpuRequest else req.cpuLimit
    memoryLimit  := if req.memoryLimit = [] then req.memoryRequest else req.memoryLimit
    sharedMemory := if req.sharedMemory = [] then defaultShm else req.sharedMemory
    volume       := { req.volume with
      mountPath := if req.volume.mountPath = [] then defaultMountPath else req.volume.mountPath } }

def newPVCName (req : CreateRequest) : Str :=
  if req.volume.pvcName = [] then str "notebook-" ++ req.name ++ str "-home" else req.volume.pvcName

-- The errors that are wrapped name the claim, or its capacity.
def ensurePVC (parseQuantity : Str → Except Error Quantity) (ns : Str) (req : CreateRequest) : Call Str := do
  let v := req.volume
  if v.kind = str "none" ∨ v.kind = [] then
    return []
  else if v.kind = str "existing" then
    if v.pvcName = [] then
      throw (.new "volume.pvcName is required when volume.kind is existing")
    else
      match ← attempt (Kube.get .pvc (ns, v.pvcName)) with
      | .ok _    => return v.pvcName
      | .error e => throw (.wrap "existing PVC" e)
  else if v.kind = str "new" then
    let name := newPVCName req
    match ← attempt (Kube.get .pvc (ns, name)) with
    | .ok _    => return name
    | .error e =>
      if !errNotFound.is e then
        throw e
      else
        match parseQuantity (if v.capacity = [] then str "20Gi" else v.capacity) with
        | .error e => throw (.wrap "invalid capacity" e)
        | .ok qty  =>
          let created ← attempt <| Kube.create .pvc {
            metadata := {
              name              := name
              ns                := ns
              labels            := .ofList [
                (str "knaic.io/managed", str "true"),
                (str "knaic.io/component", str "notebook")]
              annotations       := ∅
              creationTimestamp := Time.zero
              resourceVersion   := 0
            }
            body     := {
              accessModes      := [str "ReadWriteOnce"]
              requests         := .ofList [(str "storage", qty)]
              storageClassName := if v.storageClass = [] then none else some v.storageClass
            }
          }
          match created with
          | .ok _    => return name
          | .error e => throw (.wrap "create PVC" e)
  else
    throw (.errorf "unknown volume.kind %q" [v.kind])

def volumeMounts (req : CreateRequest) (pvcName : Str) : List Value :=
  let dshm := Value.obj (mapOf [("name", .string (str "dshm")), ("mountPath", .string (str "/dev/shm"))])
  if pvcName = [] then [dshm]
  else [dshm, .obj (mapOf [("name", .string (str "workspace")), ("mountPath", .string req.volume.mountPath)])]

def buildContainer (req : CreateRequest) (pvcName : Str) : Fields :=
  setIf (req.env ≠ []) (mapOf [
    ("name", .string (str "notebook")),
    ("image", .string req.image),
    ("resources", .obj (mapOf [
      ("requests", .obj (quantities req.cpuRequest req.memoryRequest req.gpuValues)),
      ("limits", .obj (quantities req.cpuLimit req.memoryLimit req.gpuValues))])),
    ("volumeMounts", .list (volumeMounts req pvcName))]) "env" (.list (envSlice req.env))

def buildVolumes (req : CreateRequest) (pvcName : Str) : List Value :=
  let shm := if req.sharedMemory = [] then defaultShm else req.sharedMemory
  let dshm := Value.obj (mapOf [
    ("name", .string (str "dshm")),
    ("emptyDir", .obj (mapOf [("medium", .string (str "Memory")), ("sizeLimit", .string shm)]))])
  if pvcName = [] then [dshm]
  else [dshm, .obj (mapOf [
    ("name", .string (str "workspace")),
    ("persistentVolumeClaim", .obj (mapOf [("claimName", .string pvcName)]))])]

def notebookObject (ns : Str) (req : CreateRequest) (pvcName : Str) : Fields :=
  let labels := setIf (req.owner ≠ []) (mapOf [
    ("knaic.io/managed", .string (str "true")),
    ("knaic.io/component", .string (str "notebook"))]) "knaic.io/owner" (.string req.owner)
  mapOf [
    ("apiVersion", .string (str "kubeflow.org/v1")),
    ("kind", .string (str "Notebook")),
    ("metadata", .obj (mapOf [
      ("name", .string req.name),
      ("namespace", .string ns),
      ("labels", .obj labels)])),
    ("spec", .obj (mapOf [("template", .obj (mapOf [("spec", .obj (mapOf [
      ("containers", .list [.obj (buildContainer req pvcName)]),
      ("volumes", .list (buildVolumes req pvcName))]))]))]))]

-- The object that is sent to be created.
def create (parseQuantity : Str → Except Error Quantity) (ns : Str) (req : CreateRequest) : Call Fields := do
  if req.name = [] ∨ req.image = [] then
    throw (.new "name and image are required")
  else
    let pvcName ← ensurePVC parseQuantity ns req.filled
    return notebookObject ns req.filled pvcName

-- The claim that a request is about, if there is any.
def workspacePVC (req : CreateRequest) : Str :=
  if req.volume.kind = str "none" ∨ req.volume.kind = [] then []
  else if req.volume.kind = str "existing" then req.volume.pvcName
  else newPVCName req

section Created

variable {D σ : Type} {answer : (op : ops.Op) → D → σ → ops.Res op × σ} {s : σ} {ns : Str} {req : CreateRequest}
  {parseQuantity : Str → Except Error Quantity}

theorem always_attempt {α β : Type} {p : Kube.Call β} {f : Except Error β → Kube.Call α} {Q : Except Error α → σ → Prop}
    (h : ∀ r s, Prog.Always answer Q (f r) s) : Prog.Always answer Q (attempt p >>= f : Kube.Call α) s := by
  rw [Call.always_seq, attempt, ExceptT.lift]
  exact Prog.always_bind.mpr (Prog.always_of_forall p h)

-- However the requests are answered, the claim is the one that the request is about.
theorem ensurePVC_always : Prog.Always answer (fun res _ => ∀ name, res = .ok name → name = workspacePVC req)
    (ensurePVC parseQuantity ns req) s := by
  have hret : ∀ (name : Str) (s : σ), name = workspacePVC req →
      Prog.Always answer (fun res _ => ∀ name, res = .ok name → name = workspacePVC req) (pure name : Kube.Call Str) s :=
    fun name s h name' he => (Except.ok.inj he).symm.trans h
  have hthrow : ∀ (e : Error) (s : σ),
      Prog.Always answer (fun res _ => ∀ name, res = .ok name → name = workspacePVC req) (throw e : Kube.Call Str) s :=
    fun e s name h => by cases h
  unfold ensurePVC
  simp only []
  split
  case isTrue hn   => exact hret _ _ (by simp [workspacePVC, hn])
  case isFalse hn =>
    split
    case isTrue he =>
      split
      case isTrue  => exact hthrow _ _
      case isFalse =>
        refine always_attempt fun res s => ?_
        cases res
        case ok    => exact hret _ _ (by rw [workspacePVC, if_neg hn, if_pos he])
        case error => exact hthrow _ _
    case isFalse he =>
      split
      case isFalse       => exact hthrow _ _
      case isTrue        =>
        have hw : newPVCName req = workspacePVC req := by rw [workspacePVC, if_neg hn, if_neg he]
        refine always_attempt fun res s => ?_
        cases res
        case ok      => exact hret _ _ hw
        case error e =>
          dsimp only
          split
          case isTrue  => exact hthrow _ _
          case isFalse =>
            cases parseQuantity (if req.volume.capacity = [] then str "20Gi" else req.volume.capacity)
            case error => exact hthrow _ _
            case ok    =>
              refine always_attempt fun res s => ?_
              cases res
              case ok    => exact hret _ _ hw
              case error => exact hthrow _ _

theorem create_always : Prog.Always answer
    (fun res _ => ∀ obj, res = .ok obj → obj = notebookObject ns req.filled (workspacePVC req.filled))
    (create parseQuantity ns req) s := by
  unfold create
  split
  case isTrue  => exact fun obj h => by cases h
  case isFalse =>
    refine Call.always_seq.mpr (ensurePVC_always.mono fun res s h => ?_)
    cases res
    case error   => exact fun obj h => by cases h
    case ok name =>
      rw [h name rfl]
      exact fun obj h => (Except.ok.inj h).symm

end Created
end Notebook
