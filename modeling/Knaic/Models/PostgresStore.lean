import Knaic.Models.Store
import Knaic.Sql.Database

open Go Sql

namespace Models

-- A row of `knaic_models` has a column for every field of a model.
abbrev PostgresStore :=
  Table Model

namespace PostgresStore

-- The one unique index of the table.
def uniq (m : Model) : List Str :=
  [m.scope.text, m.ns, m.name]

def schema : Schema Model (List Str) where
  key     := Model.id
  check m :=
    if m.tags.isNone then some notNullViolation
    else if m.scope.text ∈ [str "public", str "private"] then none
    else some checkViolation
  uniques := [uniq]

-- The parameters of the insertion, as they are kept. Without a tag list the driver writes NULL.
def row (db : Database) (m : Model) : Except Code Model := do
  db.texts [m.id, m.name, m.owner, m.scope.text, m.ns, m.uri, m.scheme.text]
  db.texts (m.tags.getD [])
  db.texts [m.modelType]
  let downloads ← Database.integer m.downloads
  let created ← db.instant m.createdAt
  let updated ← db.instant m.updatedAt
  db.texts [m.readme, m.collectionID, m.parentModelID, m.derivedKind, m.sourceURL]
  return { m with
    sizeGB    := db.double m.sizeGB
    downloads := downloads
    createdAt := created
    updatedAt := updated }

-- The columns that an update sets.
def set (m old : Model) : Model :=
  { old with
    readme        := m.readme
    tags          := m.tags
    downloads     := m.downloads
    updatedAt     := m.updatedAt
    collectionID  := m.collectionID
    parentModelID := m.parentModelID
    derivedKind   := m.derivedKind
    sourceURL     := m.sourceURL }

-- The parameters of the update, as they are kept.
def change (db : Database) (m : Model) : Except Code Model := do
  db.texts [m.readme]
  db.texts (m.tags.getD [])
  let downloads ← Database.integer m.downloads
  let updated ← db.instant m.updatedAt
  db.texts [m.collectionID, m.parentModelID, m.derivedKind, m.sourceURL, m.id]
  return { m with downloads := downloads, updatedAt := updated }

def stamp (m : Model) (now : Time) : Model :=
  let m :=
    if m.updatedAt.isZero then
      let created := if m.createdAt.isZero then now else m.createdAt
      { m with createdAt := created, updatedAt := created }
    else
      m
  if m.createdAt.isZero then { m with createdAt := m.updatedAt } else m

variable (db : Database)

-- `ORDER BY created_at DESC, name ASC, id ASC`
def precedes (a b : Model) : Bool :=
  if a.createdAt ≠ b.createdAt then b.createdAt.before a.createdAt
  else if a.name ≠ b.name then db.less a.name b.name
  else db.less a.id b.id

def list (t : PostgresStore) (scope : Scope) (ns : Str) : Except Error (List Model) := do
  (db.texts [scope.text, ns]).mapError .foreign
  return t.sorted (fun m => m.scope.text == scope.text && (ns == [] || m.ns == ns)) (precedes db)

def get (t : PostgresStore) (id : Str) : Except Error Model :=
  match db.find t id with
  | .error c     => .error (.foreign c)
  | .ok none     => .error errNotFound
  | .ok (some m) => .ok m

def create (t : PostgresStore) (m : Model) (now : Time) : Except Error (Model × PostgresStore) :=
  let m := stamp m now
  match row db m >>= schema.insert t with
  | .error c => .error (if c = uniqueViolation then errConflict else .foreign c)
  | .ok t    => .ok (m, t)

-- The row is locked from its reading to its writing.
def update (t : PostgresStore) (id : Str) (mutate : Model → Except Error Model) (now : Time) :
    Except Error (Model × PostgresStore) := do
  let m ← get db t id
  let m ← mutate m
  let m := { m with updatedAt := now }
  match change db m >>= fun new => schema.update t m.id (set new) with
  | .error c => .error (.foreign c)
  | .ok t    => .ok (m, t)

def delete (t : PostgresStore) (id : Str) : Except Error (Unit × PostgresStore) :=
  match db.texts [id] with
  | .error c => .error (.foreign c)
  | .ok _    =>
    let (n, t) := Schema.delete t id
    if n = 0 then .error errNotFound else .ok ((), t)

def count (t : PostgresStore) (scope : Scope) : Except Error Nat := do
  (db.texts [scope.text]).mapError .foreign
  return (t.values.filter fun m => m.scope.text == scope.text).length

def texts (m : Model) : List Str :=
  [m.id, m.name, m.owner, m.scope.text, m.ns, m.uri, m.scheme.text, m.modelType, m.readme,
    m.collectionID, m.parentModelID, m.derivedKind, m.sourceURL]

-- What the columns of the table take.
structure Storable (m : Model) : Prop where
  text      : ∀ s ∈ texts m, storableText s
  scope     : m.scope.text ∈ [str "public", str "private"]
  tags      : m.tags.isSome
  tag       : ∀ s ∈ m.tags.getD [], storableText s
  sizeGB    : storableFloat m.sizeGB
  downloads : storableInteger m.downloads
  created   : storableTime m.createdAt
  updated   : storableTime m.updatedAt

instance (m : Model) : Decidable (Storable m) :=
  decidable_of_iff
    ((∀ s ∈ texts m, storableText s) ∧ m.scope.text ∈ [str "public", str "private"] ∧
    m.tags.isSome ∧ (∀ s ∈ m.tags.getD [], storableText s) ∧ storableFloat m.sizeGB ∧
    storableInteger m.downloads ∧ storableTime m.createdAt ∧ storableTime m.updatedAt)
    ⟨fun ⟨ht, hs, hn, hg, hf, hd, hc, hu⟩ => ⟨ht, hs, hn, hg, hf, hd, hc, hu⟩,
      fun h => ⟨h.text, h.scope, h.tags, h.tag, h.sizeGB, h.downloads, h.created, h.updated⟩⟩

variable {db} {m : Model} {t : PostgresStore}

@[simp]
theorem schema_key : schema.key m = m.id :=
  rfl

theorem schema_check (h : Storable m) : schema.check m = none := by
  have hn : m.tags.isNone = false := by simp [h.tags]
  simp only [schema, hn, h.scope, if_true]
  rfl

theorem Storable.texts_ok (h : Storable m) (hd : db.Documented) {ss : List Str}
    (hs : ∀ s ∈ ss, s ∈ texts m) : db.texts ss = .ok () :=
  db.texts_ok hd fun s hm => h.text s (hs s hm)

theorem row_storable (hd : db.Documented) (h : Storable m) : row db m = .ok m := by
  simp only [row]
  rw [h.texts_ok hd (by simp [texts]), db.texts_ok hd h.tag, h.texts_ok hd (by simp [texts]),
    Database.integer, if_pos h.downloads, hd.instant _ h.created, hd.instant _ h.updated,
    h.texts_ok hd (by simp [texts]), hd.double _ h.sizeGB]
  rfl

theorem change_storable (hd : db.Documented) (h : Storable m) : change db m = .ok m := by
  simp only [change]
  rw [h.texts_ok hd (by simp [texts]), db.texts_ok hd h.tag, Database.integer,
    if_pos h.downloads, hd.instant _ h.updated, h.texts_ok hd (by simp [texts])]
  rfl

end PostgresStore
end Models
