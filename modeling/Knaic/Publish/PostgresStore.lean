import Knaic.Publish.Store
import Knaic.Sql.Database

open Go Sql

namespace Publish

-- A row of `knaic_publish_requests` has a column for every field of a request.
abbrev PostgresStore :=
  Table Request

namespace PostgresStore

-- The table has a primary key and no unique index.
def schema : Schema Request Empty where
  key     := Request.id
  check r :=
    if r.status.text ∈ [str "pending", str "approved", str "rejected"] then none
    else some checkViolation
  uniques := []

def texts (r : Request) : List Str :=
  [r.id, r.privateModelID, r.privateNamespace, r.privateName, r.privateURI, r.targetName,
    r.targetCollectionID, r.requestedBy, r.note, r.status.text, r.reviewedBy, r.reviewerNote,
    r.catalogModelID]

-- The parameters of the insertion, as they are kept.
def row (db : Database) (r : Request) : Except Code Request := do
  db.texts (texts r)
  let created ← db.instant r.createdAt
  let updated ← db.instant r.updatedAt
  return { r with createdAt := created, updatedAt := updated }

-- The columns that an update sets.
def set (r old : Request) : Request :=
  { old with
    targetName         := r.targetName
    targetCollectionID := r.targetCollectionID
    note               := r.note
    status             := r.status
    reviewedBy         := r.reviewedBy
    reviewerNote       := r.reviewerNote
    catalogModelID     := r.catalogModelID
    updatedAt          := r.updatedAt }

-- The parameters of the update, as they are kept.
def change (db : Database) (r : Request) : Except Code Request := do
  db.texts [r.targetName, r.targetCollectionID, r.note, r.status.text, r.reviewedBy,
    r.reviewerNote, r.catalogModelID, r.id]
  let updated ← db.instant r.updatedAt
  return { r with updatedAt := updated }

variable (db : Database)

-- `ORDER BY created_at DESC, id ASC`
def precedes (a b : Request) : Bool :=
  if a.createdAt ≠ b.createdAt then b.createdAt.before a.createdAt else db.less a.id b.id

def list (t : PostgresStore) (f : ListFilter) : Except Error (List Request) := do
  (db.texts [f.status, f.ns]).mapError .foreign
  return t.sorted f.admits (precedes db)

def get (t : PostgresStore) (id : Str) : Except Error Request :=
  match db.find t id with
  | .error c     => .error (.foreign c)
  | .ok none     => .error errNotFound
  | .ok (some r) => .ok r

def create (t : PostgresStore) (r : Request) (now : Time) :
    Except Error (Request × PostgresStore) :=
  let r := MemoryStore.stamp r now
  match row db r >>= schema.insert t with
  | .error c => .error (if c = uniqueViolation then errConflict else .foreign c)
  | .ok t    => .ok (r, t)

-- The row is locked from its reading to its writing.
def update (t : PostgresStore) (id : Str) (mutate : Request → Except Error Request) (now : Time) :
    Except Error (Request × PostgresStore) := do
  let r ← get db t id
  let req ← mutate r
  let req := { req with updatedAt := now }
  match change db req >>= fun new => schema.update t req.id (set new) with
  | .error c => .error (.foreign c)
  | .ok t    => .ok (req, t)

def delete (t : PostgresStore) (id : Str) : Except Error (Unit × PostgresStore) :=
  match db.texts [id] with
  | .error c => .error (.foreign c)
  | .ok _    =>
    let (n, t) := Schema.delete t id
    if n = 0 then .error errNotFound else .ok ((), t)

-- What the columns of the table take.
structure Storable (r : Request) : Prop where
  text    : ∀ s ∈ texts r, storableText s
  status  : r.status.text ∈ [str "pending", str "approved", str "rejected"]
  created : storableTime r.createdAt
  updated : storableTime r.updatedAt

instance (r : Request) : Decidable (Storable r) :=
  decidable_of_iff
    ((∀ s ∈ texts r, storableText s) ∧
    r.status.text ∈ [str "pending", str "approved", str "rejected"] ∧
    storableTime r.createdAt ∧ storableTime r.updatedAt)
    ⟨fun ⟨ht, hs, hc, hu⟩ => ⟨ht, hs, hc, hu⟩, fun h => ⟨h.text, h.status, h.created, h.updated⟩⟩

variable {db} {r : Request}

@[simp]
theorem schema_key : schema.key r = r.id :=
  rfl

theorem schema_check (h : Storable r) : schema.check r = none :=
  if_pos h.status

theorem not_taken (t : PostgresStore) : ¬schema.taken t r := by
  simp [Schema.taken_iff, schema]

theorem row_storable (hd : db.Documented) (h : Storable r) : row db r = .ok r := by
  simp only [row, db.texts_ok hd h.text, hd.instant _ h.created, hd.instant _ h.updated, ok_bind]
  rfl

theorem change_storable (hd : db.Documented) (h : Storable r) : change db r = .ok r := by
  have hs : ∀ s ∈ [r.targetName, r.targetCollectionID, r.note, r.status.text, r.reviewedBy,
      r.reviewerNote, r.catalogModelID, r.id], s ∈ texts r := by
    simp [texts]
  simp only [change, db.texts_ok hd fun s hm => h.text s (hs s hm), hd.instant _ h.updated, ok_bind]
  rfl

end PostgresStore
end Publish
