import Knaic.Models.Store

open Go

namespace Collections

-- The scopes have the names that they have for models.
abbrev Scope :=
  Models.Scope

structure Collection where
  id          : Str
  name        : Str
  owner       : Str
  scope       : Scope
  ns          : Str
  description : Str
  iconColor   : Str
  createdAt   : Time
  updatedAt   : Time
deriving DecidableEq

def errNotFound : Error :=
  .sentinel "collections" "collection not found"

def errConflict : Error :=
  .sentinel "collections" "collection already exists"

abbrev MemoryStore :=
  Go.Map Collection

namespace MemoryStore

def get (s : MemoryStore) (id : Str) : Except Error Collection :=
  match s.lookup id with
  | none   => .error errNotFound
  | some c => .ok c

def clashes (s : MemoryStore) (c : Collection) : Bool :=
  s.exists? fun existing =>
    existing.scope == c.scope && existing.ns == c.ns && existing.name == c.name

def stamp (c : Collection) (now : Time) : Collection :=
  let created := if c.createdAt.isZero then now else c.createdAt
  { c with
    createdAt := created
    updatedAt := if c.updatedAt.isZero then created else c.updatedAt }

def create (s : MemoryStore) (c : Collection) (now : Time) :
    Except Error (Collection × MemoryStore) :=
  if s.lookup c.id |>.isSome then
    .error errConflict
  else if s.clashes c then
    .error errConflict
  else
    .ok (stamp c now, s.insert c.id (stamp c now))

def update (s : MemoryStore) (id : Str) (mutate : Collection → Except Error Collection)
    (now : Time) : Except Error (Collection × MemoryStore) :=
  match s.lookup id with
  | none   => .error errNotFound
  | some c =>
    match mutate c with
    | .error e => .error e
    | .ok c    =>
      let c := { c with updatedAt := now }
      .ok (c, s.insert id c)

def delete (s : MemoryStore) (id : Str) : Except Error (Unit × MemoryStore) :=
  if s.lookup id |>.isSome then .ok ((), s.erase id) else .error errNotFound

theorem clashes_iff {s : MemoryStore} {c : Collection} :
    s.clashes c ↔
    ∃ k e, s.lookup k = some e ∧ e.scope = c.scope ∧ e.ns = c.ns ∧ e.name = c.name := by
  simp [clashes, Map.exists_iff, and_assoc]

end MemoryStore
end Collections
