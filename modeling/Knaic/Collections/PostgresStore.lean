import Knaic.Collections.Store
import Knaic.Sql.Database

open Go Sql

namespace Collections

-- A row of `knaic_collections` has a column for every field of a collection.
abbrev PostgresStore :=
  Table Collection

namespace PostgresStore

-- The one unique index of the table.
def uniq (c : Collection) : List Str :=
  [c.scope.text, c.ns, c.name]

def schema : Schema Collection (List Str) where
  key     := Collection.id
  check c := if c.scope.text ∈ [str "public", str "private"] then none else some checkViolation
  uniques := [uniq]

def texts (c : Collection) : List Str :=
  [c.id, c.name, c.owner, c.scope.text, c.ns, c.description, c.iconColor]

-- The parameters of the insertion, as they are kept.
def row (db : Database) (c : Collection) : Except Code Collection := do
  db.texts (texts c)
  let created ← db.instant c.createdAt
  let updated ← db.instant c.updatedAt
  return { c with createdAt := created, updatedAt := updated }

-- The columns that an update sets.
def set (c old : Collection) : Collection :=
  { old with
    name        := c.name
    description := c.description
    iconColor   := c.iconColor
    updatedAt   := c.updatedAt }

-- The parameters of the update, as they are kept.
def change (db : Database) (c : Collection) : Except Code Collection := do
  db.texts [c.name, c.description, c.iconColor]
  let updated ← db.instant c.updatedAt
  db.texts [c.id]
  return { c with updatedAt := updated }

variable (db : Database)

def get (t : PostgresStore) (id : Str) : Except Error Collection :=
  match db.find t id with
  | .error c     => .error (.foreign c)
  | .ok none     => .error errNotFound
  | .ok (some c) => .ok c

def create (t : PostgresStore) (c : Collection) (now : Time) :
    Except Error (Collection × PostgresStore) :=
  let c := MemoryStore.stamp c now
  match row db c >>= schema.insert t with
  | .error code => .error (if code = uniqueViolation then errConflict else .foreign code)
  | .ok t       => .ok (c, t)

-- The row is locked from its reading to its writing.
def update (t : PostgresStore) (id : Str) (mutate : Collection → Except Error Collection)
    (now : Time) : Except Error (Collection × PostgresStore) := do
  let c ← get db t id
  let c ← mutate c
  let c := { c with updatedAt := now }
  match change db c >>= fun new => schema.update t c.id (set new) with
  | .error code => .error (.foreign code)
  | .ok t       => .ok (c, t)

def delete (t : PostgresStore) (id : Str) : Except Error (Unit × PostgresStore) :=
  match db.texts [id] with
  | .error code => .error (.foreign code)
  | .ok _       =>
    let (n, t) := Schema.delete t id
    if n = 0 then .error errNotFound else .ok ((), t)

-- What the columns of the table take.
structure Storable (c : Collection) : Prop where
  text    : ∀ s ∈ texts c, storableText s
  scope   : c.scope.text ∈ [str "public", str "private"]
  created : storableTime c.createdAt
  updated : storableTime c.updatedAt

instance (c : Collection) : Decidable (Storable c) :=
  decidable_of_iff
    ((∀ s ∈ texts c, storableText s) ∧ c.scope.text ∈ [str "public", str "private"] ∧
    storableTime c.createdAt ∧ storableTime c.updatedAt)
    ⟨fun ⟨ht, hs, hc, hu⟩ => ⟨ht, hs, hc, hu⟩, fun h => ⟨h.text, h.scope, h.created, h.updated⟩⟩

variable {db} {c : Collection}

@[simp]
theorem schema_key : schema.key c = c.id :=
  rfl

theorem schema_check (h : Storable c) : schema.check c = none :=
  if_pos h.scope

theorem Storable.texts_ok (h : Storable c) (hd : db.Documented) {ss : List Str}
    (hs : ∀ s ∈ ss, s ∈ texts c) : db.texts ss = .ok () :=
  db.texts_ok hd fun s hm => h.text s (hs s hm)

theorem row_storable (hd : db.Documented) (h : Storable c) : row db c = .ok c := by
  simp only [row]
  rw [db.texts_ok hd h.text, hd.instant _ h.created, hd.instant _ h.updated]
  rfl

theorem change_storable (hd : db.Documented) (h : Storable c) : change db c = .ok c := by
  simp only [change]
  rw [h.texts_ok hd (by simp [texts]), hd.instant _ h.updated, h.texts_ok hd (by simp [texts])]
  rfl

end PostgresStore
end Collections
