import Knaic.Go.Sort
import Knaic.Go.Time

open Go

namespace Models

inductive Scope
  | scopePublic
  | scopePrivate
  | unknown (s : Str) (h : s ∉ [str "public", str "private"])
deriving DecidableEq

inductive Scheme
  | hf
  | modelScope
  | s3
  | oci
  | gitLab
  | pvc
  | git
  | unknown (s : Str)
    (h : s ∉ [str "hf", str "modelscope", str "s3", str "oci", str "gitlab", str "pvc", str "git"])
deriving DecidableEq

theorem unknown_nil :
    ([] : Str) ∉ [str "hf", str "modelscope", str "s3", str "oci", str "gitlab", str "pvc", str "git"] := by
  decide

def Scope.text : Scope → Str
  | scopePublic  => str "public"
  | scopePrivate => str "private"
  | unknown s _  => s

theorem Scope.text_inj {a b : Scope} (h : a.text = b.text) : a = b := by
  cases a <;> cases b <;> simp only [text] at h
  case unknown.unknown => subst h; rfl
  case scopePublic.scopePublic | scopePrivate.scopePrivate => rfl
  case scopePublic.scopePrivate | scopePrivate.scopePublic => exact absurd h (by decide)
  case unknown.scopePublic hs | unknown.scopePrivate hs    => subst h; simp at hs
  case scopePublic.unknown hs | scopePrivate.unknown hs    => subst h; simp at hs

def Scheme.text : Scheme → Str
  | hf          => str "hf"
  | modelScope  => str "modelscope"
  | s3          => str "s3"
  | oci         => str "oci"
  | gitLab      => str "gitlab"
  | pvc         => str "pvc"
  | git         => str "git"
  | unknown s _ => s

structure Model where
  id            : Str
  name          : Str
  owner         : Str
  scope         : Scope
  ns            : Str
  uri           : Str
  scheme        : Scheme
  tags          : Option (List Str)
  modelType     : Str
  sizeGB        : Float64
  downloads     : Int64
  createdAt     : Time
  updatedAt     : Time
  readme        : Str
  collectionID  : Str
  parentModelID : Str
  derivedKind   : Str
  sourceURL     : Str
deriving DecidableEq

def errNotFound : Error :=
  .sentinel "models" "model not found"

def errConflict : Error :=
  .sentinel "models" "model already exists"

abbrev MemoryStore :=
  Go.Map Model

namespace MemoryStore

def get (s : MemoryStore) (id : Str) : Except Error Model :=
  match s.lookup id with
  | none   => .error errNotFound
  | some m => .ok m

-- The newest first
def less (a b : Model) : Bool :=
  if a.createdAt ≠ b.createdAt then b.createdAt.before a.createdAt
  else if a.name ≠ b.name then a.name < b.name
  else a.id < b.id

def list (s : MemoryStore) (scope : Scope) (ns : Str) : List Model :=
  s.sorted (fun m => m.scope == scope && (scope != .scopePrivate || m.ns == ns)) less

def clashes (s : MemoryStore) (m : Model) : Bool :=
  s.exists? fun existing =>
    existing.scope == m.scope && existing.ns == m.ns && existing.name == m.name

def stamp (m : Model) (now : Time) : Model :=
  let created := if m.createdAt.isZero then now else m.createdAt
  { m with
    createdAt := created
    updatedAt := if m.updatedAt.isZero then created else m.updatedAt }

def create (s : MemoryStore) (m : Model) (now : Time) : Except Error (Model × MemoryStore) :=
  if s.clashes m then
    .error errConflict
  else
    .ok (stamp m now, s.insert m.id (stamp m now))

def update (s : MemoryStore) (id : Str) (mutate : Model → Except Error Model) (now : Time) :
    Except Error (Model × MemoryStore) :=
  match s.lookup id with
  | none   => .error errNotFound
  | some m =>
    match mutate m with
    | .error e => .error e
    | .ok m    =>
      let m := { m with updatedAt := now }
      .ok (m, s.insert id m)

def delete (s : MemoryStore) (id : Str) : Except Error (Unit × MemoryStore) :=
  if s.lookup id |>.isSome then .ok ((), s.erase id) else .error errNotFound

def count (s : MemoryStore) (scope : Scope) : Nat :=
  (s.values.filter (·.scope == scope)).length

variable {s : MemoryStore}

theorem clashes_iff {m : Model} :
    s.clashes m ↔
    ∃ k e, s.lookup k = some e ∧ e.scope = m.scope ∧ e.ns = m.ns ∧ e.name = m.name := by
  simp [clashes, Map.exists_iff, and_assoc]

-- What a successful creation does: the model is in the store under its identifier, and nothing else
-- has changed.
theorem create_ok {m m' : Model} {s' : MemoryStore} (h : s.create m now = .ok (m', s')) :
    ¬s.clashes m ∧ m' = stamp m now ∧ s' = s.insert m.id m' := by
  unfold create at h
  split at h
  case isTrue  => cases h
  case isFalse => cases h; exact ⟨‹_›, rfl, rfl⟩

theorem get_ok {id : Str} {m : Model} (h : s.get id = .ok m) : s.lookup id = some m := by
  unfold get at h
  split at h
  case h_1 => cases h
  case h_2 => cases h; assumption

theorem update_ok {id : Str} {f : Model → Except Error Model} {m' : Model} {s' : MemoryStore}
    (h : s.update id f now = .ok (m', s')) :
    ∃ m m₁, s.lookup id = some m ∧ f m = .ok m₁ ∧ m' = { m₁ with updatedAt := now } ∧
      s' = s.insert id m' := by
  unfold update at h
  split at h
  case h_1 => cases h
  case h_2 m hl =>
    split at h
    case h_1       => cases h
    case h_2 m₁ hf => cases h; exact ⟨m, m₁, hl, hf, rfl, rfl⟩

theorem delete_ok {id : Str} {s' : MemoryStore} (h : s.delete id = .ok ((), s')) :
    s' = s.erase id := by
  unfold delete at h
  split at h
  case isTrue  => cases h; rfl
  case isFalse => cases h

end MemoryStore
end Models
