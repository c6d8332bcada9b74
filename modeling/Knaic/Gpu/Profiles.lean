import Knaic.Effects.Pool
import Knaic.Go.Sort
import Knaic.Kube.Api

open Go Effects

namespace Gpu

-- A value of any type, by what it is in JSON.
inductive Any
  | null
  | bool (b : Bool)
  | number (f : Float64)
  | string (s : Str)
  | array (l : List Any)
  | object (fields : List (Str × Any))

structure ProfileField where
  key          : Str
  label        : Str
  unit         : Str
  defaultValue : Any
  step         : Option Int64
  min          : Option Int64
  max          : Option Int64

structure Profile where
  id          : Str
  name        : Str
  kind        : Str
  description : Str
  fields      : List ProfileField
  builtin     : Bool

-- A text that is kept for a profile, by what decoding it gives.
inductive Raw
  | json (p : Profile)
  | malformed (text : Str)

structure ConfigMap where
  labels          : List (Str × Str)
  data            : Option (Go.Map Raw)
  resourceVersion : Nat

def profileLabels : List (Str × Str) :=
  [(str "knaic.io/managed", str "true"), (str "knaic.io/component", str "gpu-profile")]

def builtinProfiles : List Profile := [
  {
    id          := str "builtin-hami"
    name        := str "HAMi (shared GPU)"
    kind        := str "hami"
    description := str "Partial GPU share via the HAMi scheduler."
    builtin     := true
    fields      := [
      -- The defaults are 1, 25 and 8192.
      ⟨str "nvidia.com/gpualloc", str "GPUs", [], .number 0x3ff0000000000000, some 1, some 0, none⟩,
      ⟨str "nvidia.com/gpucores", str "GPU cores (%)", [], .number 0x4039000000000000, some 5,
        some 1, some 100⟩,
      ⟨str "nvidia.com/gpumem", str "GPU memory", str "MiB", .number 0x40c0000000000000, some 512,
        some 512, none⟩
    ]
  },
  {
    id          := str "builtin-nvidia"
    name        := str "NVIDIA GPU (whole)"
    kind        := str "nvidia"
    description := str "Request one or more full NVIDIA GPUs."
    builtin     := true
    fields      := [
      ⟨str "nvidia.com/gpu", str "GPUs", [], .number 0x3ff0000000000000, some 1, some 0, none⟩
    ]
  },
  {
    id          := str "builtin-ascend910b"
    name        := str "Huawei Ascend 910B (NPU)"
    kind        := str "npu"
    description := str "Ascend NPU allocation via huawei.com/Ascend910B."
    builtin     := true
    fields      := [
      ⟨str "huawei.com/Ascend910B", str "NPUs", [], .number 0x3ff0000000000000, some 1, some 0,
        none⟩
    ]
  }
]

def isBuiltinID (id : Str) : Bool :=
  builtinProfiles.any (·.id == id)

def validateFields (i : Nat) : List ProfileField → Except Error Unit
  | []      => .ok ()
  | f :: fs =>
    if f.key = [] then .error (.errorf "field[%d].key is required" [decimal i])
    else if f.label = [] then .error (.errorf "field[%d].label is required" [decimal i])
    else validateFields (i + 1) fs

def validateProfile (p : Profile) : Except Error Profile := do
  if p.name = [] then
    throw (.new "name is required")
  if p.fields = [] then
    throw (.new "at least one field is required")
  validateFields 0 p.fields
  return { p with kind := if p.kind = [] then str "custom" else p.kind }

-- The requests for the ConfigMap of the profiles, and the random bytes of an identifier.
inductive Op
  | get
  | create (cm : ConfigMap)
  | update (cm : ConfigMap)
  | random

abbrev ops : Signature where
  Op := Op
  Res
    | .get | .create _ | .update _ => Except Error ConfigMap
    | .random                      => Vector UInt8 4

abbrev Call :=
  Effects.Call ops Error

def perform (op : Op) : Prog ops (ops.Res op) :=
  @Prog.perform ops op

def get : Call ConfigMap :=
  perform .get

def createMap (cm : ConfigMap) : Call ConfigMap :=
  perform (.create cm)

def updateMap (cm : ConfigMap) : Call ConfigMap :=
  perform (.update cm)

def randHex : Call Str := do
  let b ← ExceptT.lift (perform .random)
  return hex b.toList

-- A call whose failure the caller looks at.
def attempt (p : Call α) : Call (Except Error α) :=
  ExceptT.lift (p : Prog ops (Except Error α))

-- The entries come in the order of their keys, where Go takes them in any order.
def ConfigMap.custom (cm : ConfigMap) : List Profile :=
  let data := cm.data.getD ∅
  data.keyList.filterMap fun id =>
    match data.lookup id with
    | some (.json p) => some { p with id := id, builtin := false }
    | _              => none

-- `typed` says whether the store was given a client.
def readCustom (typed : Bool) : Call (List Profile) := do
  if !typed then
    return []
  else
    match ← attempt get with
    | .ok cm   => return cm.custom
    | .error e => if Kube.errNotFound.is e then return [] else throw e

def less (a b : Profile) : Bool :=
  if a.builtin ≠ b.builtin then a.builtin else a.name < b.name

def sorted (ps : List Profile) : List Profile :=
  ps.mergeSort fun a b => !less b a

def list (typed : Bool) : Call (List Profile) := do
  match ← attempt (readCustom typed) with
  | .error _   => return builtinProfiles
  | .ok custom => return sorted (builtinProfiles ++ custom)

def getOrCreate : Call ConfigMap := do
  match ← attempt get with
  | .ok cm   => return cm
  | .error e =>
    if !Kube.errNotFound.is e then
      throw e
    else
      match ← attempt (createMap ⟨profileLabels, some ∅, 0⟩) with
      | .ok created => return created
      | .error e    => if Kube.errAlreadyExists.is e then get else throw e

-- The ConfigMap with the entry of the profile, which JSON can always express.
def ConfigMap.set (cm : ConfigMap) (p : Profile) : ConfigMap :=
  { cm with data := some ((cm.data.getD ∅).insert p.id (.json p)) }

def upsert (typed : Bool) (p : Profile) : Call Unit := do
  if !typed then
    throw (.new "kubernetes client not initialised")
  else
    let cm ← getOrCreate
    let _ ← updateMap (cm.set p)
    return ()

def create (typed : Bool) (p : Profile) : Call Profile := do
  match validateProfile p with
  | .error e => throw e
  | .ok p    =>
    if isBuiltinID p.id then
      throw (.new "cannot use a built-in profile id")
    else
      let id ← if p.id = [] then (str "p-" ++ ·) <$> randHex else pure p.id
      let p := { p with id := id, builtin := false }
      upsert typed p
      return p

def update (typed : Bool) (p : Profile) : Call Profile := do
  match validateProfile p with
  | .error e => throw e
  | .ok p    =>
    if isBuiltinID p.id then
      throw (.new "cannot edit a built-in profile")
    else
      let p := { p with builtin := false }
      upsert typed p
      return p

def delete (typed : Bool) (id : Str) : Call Unit := do
  if isBuiltinID id then
    throw (.new "cannot delete a built-in profile")
  else if !typed then
    throw (.new "kubernetes client not initialised")
  else
    let cm ← getOrCreate
    match cm.data with
    | none      => return ()
    | some data =>
      if data.lookup id |>.isNone then
        return ()
      else
        let _ ← updateMap { cm with data := some (data.erase id) }
        return ()

-- What the API server holds has a resource version.
structure Stored extends ConfigMap where
  versioned : resourceVersion ≠ 0

abbrev Cluster :=
  Option Stored

-- What a request finds that the cluster does not determine: whether it fails, in which case it has
-- no effect, how far the next resource version is off, and four random bytes.
structure Draw where
  failure : Option Error
  gap     : Nat
  random  : Vector UInt8 4

def unlessFailed (d : Draw) (c : Cluster) (a : Except Error ConfigMap × Cluster) :
    Except Error ConfigMap × Cluster :=
  match d.failure with
  | none   => a
  | some e => (.error e, c)

def Cluster.get (c : Cluster) : Except Error ConfigMap × Cluster :=
  match c with
  | none   => (.error Kube.errNotFound, c)
  | some s => (.ok s.toConfigMap, c)

def Cluster.create (c : Cluster) (cm : ConfigMap) (gap : Nat) : Except Error ConfigMap × Cluster :=
  match c with
  | some _ => (.error Kube.errAlreadyExists, c)
  | none   =>
    let new := { cm with resourceVersion := gap + 1 }
    (.ok new, some ⟨new, Nat.succ_ne_zero _⟩)

-- A stale resource version is rejected.
def Cluster.update (c : Cluster) (cm : ConfigMap) (gap : Nat) : Except Error ConfigMap × Cluster :=
  match c with
  | none     => (.error Kube.errNotFound, c)
  | some old =>
    if cm.resourceVersion ≠ 0 ∧ cm.resourceVersion ≠ old.resourceVersion then
      (.error Kube.errConflict, c)
    else
      let new := { cm with resourceVersion := old.resourceVersion + gap + 1 }
      (.ok new, some ⟨new, Nat.succ_ne_zero _⟩)

def answer (op : ops.Op) (d : Draw) (c : Cluster) : ops.Res op × Cluster :=
  match op with
  | .get       => unlessFailed d c c.get
  | .create cm => unlessFailed d c (c.create cm d.gap)
  | .update cm => unlessFailed d c (c.update cm d.gap)
  | .random    => (d.random, c)

-- What a call has done that has succeeded.
inductive Change
  | put (p : Profile)
  | drop (id : Str)

def Change.id : Change → Str
  | .put p   => p.id
  | .drop id => id

inductive Kind
  | create (p : Profile)
  | update (p : Profile)
  | delete (id : Str)

-- The pool of all calls that write profiles.
def pool (typed : Bool) : Pool ops Draw Cluster Kind (Except Error Change) where
  answer _ op d c := answer op d c
  env _ c         := c
  code
    | .create p  => (.put <$> create typed p : Call Change)
    | .update p  => (.put <$> update typed p : Call Change)
    | .delete id => ((fun _ => .drop id) <$> delete typed id : Call Change)

-- The profiles that `List` returns.
def listed (c : Cluster) : List Profile :=
  sorted (builtinProfiles ++ c.elim [] (·.custom))

theorem list_run {d : Draw} (h : d.failure = none) (c : Cluster) :
    Prog.run (fun op => answer op d) (list true) c = (.ok (listed c), c) := by
  have ⟨_, gap, random⟩ := d
  cases h
  cases c <;> rfl

end Gpu
