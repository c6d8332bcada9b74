import Knaic.Auth.User
import Knaic.Collections.PostgresStore
import Knaic.Effects.Machine

open Go Effects

namespace Collections

open Auth

-- What the collection service does to the world: the reads and writes of its store, and what it asks
-- of the rest of the system.
inductive Op
  | get (id : Str)
  | create (c : Collection)
  | update (id : Str) (mutate : Collection → Except Error Collection)
  | delete (id : Str)
  | canWritePrivateModel (u : User) (ns : Str)
  | newID (pre : Str)

abbrev ops : Signature where
  Op := Op
  Res
    | .get _ | .create _ | .update _ _ => Except Error Collection
    | .delete _                        => Except Error Unit
    | .canWritePrivateModel _ _        => Except Error Bool
    | .newID _                         => Str

abbrev Call :=
  Effects.Call ops Error

def perform (op : Op) : Prog ops (ops.Res op) :=
  @Prog.perform ops op

def storeGet (id : Str) : Call Collection :=
  perform (.get id)

def storeCreate (c : Collection) : Call Collection :=
  perform (.create c)

def storeUpdate (id : Str) (mutate : Collection → Except Error Collection) : Call Collection :=
  perform (.update id mutate)

def storeDelete (id : Str) : Call Unit :=
  perform (.delete id)

def canWritePrivateModel (u : User) (ns : Str) : Call Bool :=
  perform (.canWritePrivateModel u ns)

def newID (pre : Str) : Call Str :=
  ExceptT.lift (perform (.newID pre))

def errForbidden : Error :=
  .sentinel "collections" "forbidden"

structure CreateRequest where
  id          : Str
  name        : Str
  scope       : Scope
  ns          : Str
  description : Str
  iconColor   : Str

structure PatchRequest where
  name        : Option Str
  description : Option Str
  iconColor   : Option Str

def namespaceFor (scope : Scope) (ns : Str) : Str :=
  if scope = .scopePrivate then ns else []

-- `authorizer` says whether the service was given one.
def gateWrite (authorizer : Bool) (u : Option User) (scope : Scope) (ns : Str) : Call Unit :=
  match u with
  | none   => throw errForbidden
  | some u =>
    if u.isPlatformAdmin then
      pure ()
    else
      match scope with
      | .scopePublic  => throw errForbidden
      | .scopePrivate =>
        if ns = [] then
          throw (.new "namespace required for private scope")
        else if !authorizer then
          throw errForbidden
        else do
          let ok ← canWritePrivateModel u ns
          if !ok then throw errForbidden else pure ()
      | .unknown s _  => throw (.errorf "unknown scope %q" [s])

-- The collection that `Create` makes of a request.
def collection (u : Option User) (req : CreateRequest) (id : Str) : Collection where
  id          := id
  name        := req.name
  owner       := (u.map (·.name)).getD []
  scope       := req.scope
  ns          := namespaceFor req.scope req.ns
  description := req.description
  iconColor   := req.iconColor
  createdAt   := Time.zero
  updatedAt   := Time.zero

def create (authorizer : Bool) (u : Option User) (req : CreateRequest) : Call Collection :=
  if req.name = [] then
    throw (.new "name is required")
  else do
    gateWrite authorizer u req.scope req.ns
    if req.id = [] then
      let id ← newID (str "col")
      storeCreate (collection u req id)
    else
      storeCreate (collection u req req.id)

def PatchRequest.on (req : PatchRequest) (c : Collection) : Collection :=
  { c with
    name        := req.name.getD c.name
    description := req.description.getD c.description
    iconColor   := req.iconColor.getD c.iconColor }

def patch (authorizer : Bool) (u : Option User) (id : Str) (req : PatchRequest) :
    Call Collection := do
  let current ← storeGet id
  gateWrite authorizer u current.scope current.ns
  storeUpdate id fun c => .ok (req.on c)

def delete (authorizer : Bool) (u : Option User) (id : Str) : Call Unit := do
  let current ← storeGet id
  gateWrite authorizer u current.scope current.ns
  storeDelete id

-- The interface of the stores, with the time as they find it.
structure Store (σ : Type) where
  get    : σ → Str → Except Error Collection
  create : σ → Collection → Time → Except Error (Collection × σ)
  update : σ → Str → (Collection → Except Error Collection) → Time → Except Error (Collection × σ)
  delete : σ → Str → Except Error (Unit × σ)

def memory : Store MemoryStore where
  get    := MemoryStore.get
  create := MemoryStore.create
  update := MemoryStore.update
  delete := MemoryStore.delete

def postgres (db : Sql.Database) : Store PostgresStore where
  get    := PostgresStore.get db
  create := PostgresStore.create db
  update := PostgresStore.update db
  delete := PostgresStore.delete db

-- What a call finds that is not in the store: the clock, four random bytes, and the answer of the
-- authorizer.
structure Draw where
  now      : Time
  random   : Vector UInt8 4
  writable : Except Error Bool

def Store.answer (st : Store σ) (d : Draw) (op : ops.Op) (s : σ) : ops.Res op × σ :=
  match op with
  | .get id                   => (st.get s id, s)
  | .create c                 => commit s (st.create s c d.now)
  | .update id mutate         => commit s (st.update s id mutate d.now)
  | .delete id                => commit s (st.delete s id)
  | .canWritePrivateModel _ _ => (d.writable, s)
  | .newID pre                => (pre ++ str "-" ++ hex d.random.toList, s)

inductive Kind
  | create (u : Option User) (req : CreateRequest)
  | patch (u : Option User) (id : Str) (req : PatchRequest)
  | delete (u : Option User) (id : Str)

abbrev calls : Signature where
  Op := Kind
  Res
    | .create _ _ | .patch _ _ _ => Except Error Collection
    | .delete _ _                => Except Error Unit

def code (authorizer : Bool) : (k : calls.Op) → Prog ops (calls.Res k)
  | .create u req   => create authorizer u req
  | .patch u id req => patch authorizer u id req
  | .delete u id    => delete authorizer u id

-- The service over a store, one call after the other.
def service (authorizer : Bool) (st : Store σ) : Machine calls Draw σ where
  answer k d s := (code authorizer k).run (st.answer d) s

section Runs

variable {authorizer : Bool} {st : Store σ} {u : Option User} {d : Draw} {s : σ}

-- What the gate says, given the answer of the authorizer.
def gate (authorizer : Bool) (u : Option User) (scope : Scope) (ns : Str)
    (writable : Except Error Bool) : Except Error Unit :=
  match u with
  | none   => .error errForbidden
  | some u =>
    if u.isPlatformAdmin then
      .ok ()
    else
      match scope with
      | .scopePublic  => .error errForbidden
      | .scopePrivate =>
        if ns = [] then .error (.new "namespace required for private scope")
        else if !authorizer then .error errForbidden
        else
          match writable with
          | .error e => .error e
          | .ok ok   => if !ok then .error errForbidden else .ok ()
      | .unknown s _  => .error (.errorf "unknown scope %q" [s])

theorem run_gateWrite (scope : Scope) (ns : Str) :
    Prog.run (st.answer d) (gateWrite authorizer u scope ns : Prog ops _) s =
      (gate authorizer u scope ns d.writable, s) := by
  unfold gateWrite gate
  cases u
  case none   => rfl
  case some u =>
    dsimp only
    cases u.isPlatformAdmin
    case true  => rfl
    case false =>
      simp only [Bool.false_eq_true, if_false]
      cases scope
      case scopePublic  => rfl
      case unknown      => rfl
      case scopePrivate =>
        dsimp only
        split
        case isTrue  => rfl
        case isFalse =>
          cases authorizer
          case false => rfl
          case true  =>
            have hr : Prog.run (st.answer d) (canWritePrivateModel u ns : Prog ops _) s =
                (d.writable, s) := rfl
            cases hw : d.writable
            case error e => exact Call.run_seq_error (hw ▸ hr) _
            case ok ok   =>
              refine (Call.run_seq_ok (hw ▸ hr) _).trans ?_
              cases ok <;> rfl

-- The identifier that `Create` gives to a collection.
def CreateRequest.identifier (req : CreateRequest) (d : Draw) : Str :=
  if req.id = [] then str "col" ++ str "-" ++ hex d.random.toList else req.id

theorem run_create (req : CreateRequest) :
    (service authorizer st).answer (.create u req) d s =
      if req.name = [] then
        (.error (.new "name is required"), s)
      else
        match gate authorizer u req.scope req.ns d.writable with
        | .error e => (.error e, s)
        | .ok _    => commit s (st.create s (collection u req (req.identifier d)) d.now) := by
  simp only [service, code, create]
  split
  case isTrue  => rfl
  case isFalse =>
    have hg := @run_gateWrite σ authorizer st u d s req.scope req.ns
    cases hr : gate authorizer u req.scope req.ns d.writable
    case error e => exact Call.run_seq_error (hr ▸ hg) _
    case ok      =>
      refine (Call.run_seq_ok (hr ▸ hg) _).trans ?_
      unfold CreateRequest.identifier
      split <;> rfl

-- What changes a collection first reads it and passes the gate of its scope.
theorem run_gated {α : Type} (id : Str) (f : Call α) :
    Prog.run (st.answer d) (do
      let current ← storeGet id
      gateWrite authorizer u current.scope current.ns
      f : Call α) s =
      match st.get s id with
      | .error e => (.error e, s)
      | .ok c    =>
        match gate authorizer u c.scope c.ns d.writable with
        | .error e => (.error e, s)
        | .ok _    => Prog.run (st.answer d) (f : Prog ops _) s := by
  have hs : Prog.run (st.answer d) (storeGet id : Prog ops _) s = (st.get s id, s) := rfl
  cases hc : st.get s id
  case error e => exact Call.run_seq_error (hc ▸ hs) _
  case ok c    =>
    refine (Call.run_seq_ok (hc ▸ hs) _).trans ?_
    have hg := @run_gateWrite σ authorizer st u d s c.scope c.ns
    dsimp only
    cases hr : gate authorizer u c.scope c.ns d.writable
    case error e => exact Call.run_seq_error (hr ▸ hg) _
    case ok      => exact Call.run_seq_ok (hr ▸ hg) _

theorem run_patch (id : Str) (req : PatchRequest) :
    (service authorizer st).answer (.patch u id req) d s =
      match st.get s id with
      | .error e => (.error e, s)
      | .ok c    =>
        match gate authorizer u c.scope c.ns d.writable with
        | .error e => (.error e, s)
        | .ok _    => commit s (st.update s id (fun c => .ok (req.on c)) d.now) :=
  run_gated id (storeUpdate id fun c => .ok (req.on c))

theorem run_delete (id : Str) :
    (service authorizer st).answer (.delete u id) d s =
      match st.get s id with
      | .error e => (.error e, s)
      | .ok c    =>
        match gate authorizer u c.scope c.ns d.writable with
        | .error e => (.error e, s)
        | .ok _    => commit s (st.delete s id) :=
  run_gated id (storeDelete id)

end Runs
end Collections
