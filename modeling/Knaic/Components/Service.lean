import Knaic.Effects.Prog
import Knaic.Components.Detect

open Go Effects

namespace Components

def errNotFound : Error :=
  .sentinel "components" "component not found"

-- How the service is put together: the namespace of its store, and whether its detector has a Helm
-- client and a dynamic client.
structure Setup where
  systemNamespace : Str
  helm            : Bool
  dyn             : Bool

-- The operations of the Helm client that change a release.
inductive Action
  | install | upgrade | uninstall
deriving DecidableEq

-- An entry of the store. Only the properties look at the rest: how often an `Install` has marked the
-- entry or recorded its success, and whether the status is the mark of an `Install`.
structure Entry where
  item     : Component
  installs : Nat
  marked   : Bool
deriving DecidableEq

-- A snapshot, and how many installs had been recorded when its scan began.
structure Scan where
  snap  : ClusterSnapshot
  taken : Nat
deriving DecidableEq

-- What is handed to `Store.Update`.
inductive Mutation
  | installing
  | failed (err : Str)
  | installed (ns : Str)
  | uninstalled
  | reconciled
  | detected (c : Entry) (scan : Scan)
deriving DecidableEq

def Mutation.apply (systemNamespace : Str) (item : Component) : Mutation → Component
  | installing      => { item with status := .installing }
  | failed err      => { item with status := .failed, lastError := err }
  | installed ns    => { item with
      status := .installed, ns := ns, managedBy := .knaic, lastError := [] }
  | uninstalled     => { item with status := .notInstalled, managedBy := .unset, lastError := [] }
  | reconciled      => { item with status := .installed, lastError := [] }
  | detected c scan => (Components.find c.item scan.snap).write systemNamespace item

inductive Op
  | storeGet (name : Str)
  | storeUpdate (name : Str) (m : Mutation)
  | helmStart (a : Action) (c : Component)
  | helmEnd (a : Action) (c : Component)
  | snapshotLock
  | helmListAll
  | listCSVs
  | snapshotUnlock (snap : ClusterSnapshot)
  | invalidateSnapshot
deriving DecidableEq

def ops : Signature where
  Op  := Op
  Res
    | .storeGet _ | .storeUpdate _ _ => Except Error Entry
    | .helmStart _ _                 => Unit
    | .helmEnd _ _                   => Except Str Release
    | .snapshotLock                  => Option Scan
    | .helmListAll                   => Except Error (List Release)
    | .listCSVs                      => Except Error (List CsvHit)
    | .snapshotUnlock _              => Scan
    | .invalidateSnapshot            => Unit

abbrev Task :=
  Prog ops (Except Error Entry)

def storeGet (name : Str) : Task :=
  .perform (S := ops) (.storeGet name)

def storeUpdate (name : Str) (m : Mutation) : Task :=
  .perform (S := ops) (.storeUpdate name m)

-- A call of the Helm client takes its time.
def helm (a : Action) (c : Component) : Prog ops (Except Str Release) := do
  let _ ← Prog.perform (S := ops) (.helmStart a c)
  Prog.perform (S := ops) (.helmEnd a c)

-- A listing that fails leaves its part of the snapshot empty.
def scan (d : Setup) : Prog ops Scan := do
  let releases : Except Error (List Release) ←
    if d.helm then Prog.perform (S := ops) .helmListAll else pure (.ok [])
  let csvs : Except Error (List CsvHit) ←
    if d.dyn then Prog.perform (S := ops) .listCSVs else pure (.ok [])
  Prog.perform (S := ops)
    (.snapshotUnlock (.scan (releases.toOption.getD []) (csvs.toOption.getD [])))

def snapshot (d : Setup) : Prog ops Scan := do
  match ← Prog.perform (S := ops) .snapshotLock with
  | some cached => return cached
  | none        => scan d

-- `Service.Status`
def detect (d : Setup) (name : Str) : Task := do
  match ← storeGet name with
  | .error e => return .error e
  | .ok c    =>
    let snap ← snapshot d
    if c.item.status = .installing then return .ok c else storeUpdate name (.detected c snap)

def install (name : Str) : Task := do
  match ← storeGet name with
  | .error e => return .error e
  | .ok c    =>
    if c.item.status = .installed then
      return .error (.new "already installed")
    else if !c.item.embedded then
      return .error (.errorf
        "component %q has no embedded chart; provide a chart archive on import" [name])
    else
      let _ ← storeUpdate name .installing
      match ← helm .install c.item with
      | .error err =>
        let _ ← storeUpdate name (.failed err)
        storeGet name
      | .ok rel    =>
        let _ ← Prog.perform (S := ops) .invalidateSnapshot
        storeUpdate name (.installed rel.ns)

def uninstall (name : Str) : Task := do
  match ← storeGet name with
  | .error e => return .error e
  | .ok c    =>
    if c.item.status ≠ .installed then
      return .error (.new "component is not installed")
    else if c.item.managedBy ≠ .knaic then
      return .error (.new "only knaic-managed components can be uninstalled here")
    else
      let _ ← storeUpdate name .installing
      match ← helm .uninstall c.item with
      | .error err =>
        let _ ← storeUpdate name (.failed err)
        storeGet name
      | .ok _      =>
        let _ ← Prog.perform (S := ops) .invalidateSnapshot
        storeUpdate name .uninstalled

def reconcile (name : Str) : Task := do
  match ← storeGet name with
  | .error e => return .error e
  | .ok c    =>
    if c.item.status ≠ .installed then
      return .error (.new "only installed components can be reconciled")
    else if !c.item.embedded then
      return .error (.errorf "component %q has no embedded chart" [name])
    else
      match ← helm .upgrade c.item with
      | .error err =>
        let _ ← storeUpdate name (.failed err)
        storeGet name
      | .ok _      => storeUpdate name .reconciled

end Components
