import Knaic.Effects.Parties
import Knaic.Components.Service

open Go Effects

namespace Components

inductive Request
  | install (name : Str)
  | uninstall (name : Str)
  | reconcile (name : Str)
  | status (name : Str)
deriving DecidableEq

-- Calls of the service are told apart by a number.
structure Caller where
  request : Request
  number  : Nat
deriving DecidableEq

-- What the state does not determine: the time, the outcome of Helm, and what the cluster lists.
structure Draw where
  now      : Time
  helm     : Except Str Release
  releases : Except Error (List Release)
  csvs     : Except Error (List CsvHit)

-- The store, the cache of the detector with the call that holds its lock, and the Helm operations in
-- flight. The rest is what has happened so far: who has marked an entry and not yet written its
-- outcome, who has invalidated the cache after an install and not yet recorded it, and what
-- has been recorded, the latest first.
structure World where
  items       : Map Entry
  snap        : Option Scan
  snapExpires : Time
  scanning    : Option (Caller × Nat)
  running     : List (Caller × Action × Str)
  holders     : List (Caller × Str)
  pending     : List Caller
  recorded    : List Str

-- The entries of a store that has just been filled.
structure Catalog where
  items : Map Entry
  keyed : ∀ n e, items.lookup n = some e → e.item.name = n
  fresh : ∀ n e, items.lookup n = some e → e.marked = false

namespace World

def start (catalog : Catalog) : World where
  items       := catalog.items
  snap        := none
  snapExpires := .zero
  scanning    := none
  running     := []
  holders     := []
  pending     := []
  recorded    := []

def entry (w : World) (name : Str) : Option Entry :=
  w.items.lookup name

end World

def snapTTL : Duration :=
  5 * Go.second

def Caller.installs (i : Caller) : Bool :=
  match i.request with
  | .install _ => true
  | _          => false

def Entry.write (systemNamespace : Str) (i : Caller) (m : Mutation) (now : Time) (e : Entry) :
    Entry where
  item     := { m.apply systemNamespace e.item with lastTransition := now }
  installs :=
    match m with
    | .installing  => if i.installs then e.installs + 1 else e.installs
    | .installed _ => e.installs + 1
    | _            => e.installs
  marked   := m = .installing && i.installs

-- `Store.Update` on an entry that there is.
def World.update (i : Caller) (name : Str) (m : Mutation) (e : Entry) (w : World) : World :=
  { w with
    items    := w.items.insert name e
    holders  :=
      match m with
      | .installing   => (i, name) :: w.holders
      | .detected _ _ => w.holders
      | _             => w.holders.erase (i, name)
    pending  :=
      match m with
      | .installed _ => w.pending.erase i
      | _            => w.pending
    recorded :=
      match m with
      | .installed _ => name :: w.recorded
      | _            => w.recorded }

def answer (systemNamespace : Str) (i : Caller) :
    (op : Op) → Draw → World → ops.Res op × World
  | .storeGet name, _, w         =>
    match w.entry name with
    | some e => (.ok e, w)
    | none   => (.error errNotFound, w)
  | .storeUpdate name m, d, w    =>
    match w.entry name with
    | some e =>
      let e := e.write systemNamespace i m d.now
      (.ok e, w.update i name m e)
    | none   => (.error errNotFound, w)
  | .helmStart a c, _, w         => ((), { w with running := (i, a, c.name) :: w.running })
  | .helmEnd a c, d, w           =>
    (d.helm, { w with running := w.running.erase (i, a, c.name) })
  | .snapshotLock, d, w          =>
    match w.snap with
    | some s =>
      if d.now.before w.snapExpires then (some s, w)
      else (none, { w with scanning := some (i, w.recorded.length) })
    | none   => (none, { w with scanning := some (i, w.recorded.length) })
  | .helmListAll, d, w           => (d.releases, w)
  | .listCSVs, d, w              => (d.csvs, w)
  | .snapshotUnlock snap, d, w   =>
    let s : Scan := ⟨snap, (w.scanning.map Prod.snd).getD 0⟩
    (s, { w with snap := some s, snapExpires := d.now.add snapTTL, scanning := none })
  | .invalidateSnapshot, _, w    =>
    ((), { w with
      snap    := none
      pending := if i.installs then i :: w.pending else w.pending })

-- All calls on the components.
def pool (d : Setup) : Pool ops Draw World Caller (Except Error Entry) where
  answer i  := answer d.systemNamespace i
  env _ w   := w
  code i    :=
    match i.request with
    | .install name   => install name
    | .uninstall name => uninstall name
    | .reconcile name => reconcile name
    | .status name    => detect d name

-- A call waits for the lock of the detector as long as another one holds it.
def Unlocked : Pool.Condition ops Draw World Caller
  | _, .snapshotLock, _, w       => w.scanning = none
  | _, .invalidateSnapshot, _, w => w.scanning = none
  | _, _, _, _                   => True

instance (i : Caller) (op : ops.Op) (d : Draw) (w : World) : Decidable (Unlocked i op d w) := by
  cases op <;> simp only [Unlocked] <;> infer_instance

theorem write_name (systemNamespace : Str) (f : Finding) (item : Component) :
    (f.write systemNamespace item).name = item.name := by
  cases f <;> rfl

theorem apply_name (systemNamespace : Str) (m : Mutation) (item : Component) :
    (m.apply systemNamespace item).name = item.name := by
  cases m <;> simp [Mutation.apply, write_name]

section Codes

variable {d : Setup} {i : Caller} {name : Str}

theorem code_install (h : i.request = .install name) : (pool d).code i = install name := by
  simp [pool, h]

theorem code_uninstall (h : i.request = .uninstall name) : (pool d).code i = uninstall name := by
  simp [pool, h]

theorem code_reconcile (h : i.request = .reconcile name) : (pool d).code i = reconcile name := by
  simp [pool, h]

theorem code_status (h : i.request = .status name) : (pool d).code i = detect d name := by
  simp [pool, h]

end Codes

section Answers

variable {d : Setup} {i : Caller} {w : World} {x : Draw} {name : Str}

theorem storeGet_some (h : w.entry name = some e) :
    (pool d).answer i (.storeGet name) x w = (.ok e, w) := by
  simp [pool, answer, h]

theorem storeGet_none (h : w.entry name = none) :
    (pool d).answer i (.storeGet name) x w = (.error errNotFound, w) := by
  simp [pool, answer, h]

theorem storeUpdate_some (h : w.entry name = some e) :
    (pool d).answer i (.storeUpdate name m) x w =
      (.ok (e.write d.systemNamespace i m x.now),
        w.update i name m (e.write d.systemNamespace i m x.now)) := by
  simp [pool, answer, h]

theorem storeUpdate_none (h : w.entry name = none) :
    (pool d).answer i (.storeUpdate name m) x w = (.error errNotFound, w) := by
  simp [pool, answer, h]

-- Whoever takes the lock of the detector finds a snapshot that can still be used or begins a scan.
theorem snapshotLock_cases (d : Setup) (i : Caller) (x : Draw) (w : World) :
    (∃ s, w.snap = some s ∧ (pool d).answer i .snapshotLock x w = (some s, w)) ∨
    (pool d).answer i .snapshotLock x w =
      (none, { w with scanning := some (i, w.recorded.length) }) := by
  cases hs : w.snap
  case none   =>
    right
    simp only [pool, answer, hs]
    rfl
  case some s =>
    cases hb : x.now.before w.snapExpires
    case true  =>
      refine .inl ⟨s, rfl, ?_⟩
      simp only [pool, answer, hs, hb, if_true]
      rfl
    case false =>
      right
      simp only [pool, answer, hs, hb, Bool.false_eq_true, if_false]
      rfl

theorem snapshotUnlock_eq (h : w.scanning = some (j, t)) (snap : ClusterSnapshot) :
    (pool d).answer i (.snapshotUnlock snap) x w = ((⟨snap, t⟩ : Scan), { w with
      snap        := some ⟨snap, t⟩
      snapExpires := x.now.add snapTTL
      scanning    := none }) := by
  simp only [pool, answer, h]
  rfl

theorem entry_update (i : Caller) (name : Str) (m : Mutation) (e : Entry) (w : World) (n : Str) :
    (w.update i name m e).entry n = if n = name then some e else w.entry n := by
  by_cases h : n = name
  case pos => subst h; simp [World.update, World.entry]
  case neg => simp [h, World.update, World.entry, Finmap.lookup_insert_of_ne]

end Answers

end Components
