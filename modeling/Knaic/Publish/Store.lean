import Knaic.Go.Sort
import Knaic.Go.Time

open Go

namespace Publish

inductive Status
  | pending
  | approved
  | rejected
  | unknown (s : Str) (h : s ∉ [str "pending", str "approved", str "rejected"])
deriving DecidableEq

def Status.text : Status → Str
  | pending     => str "pending"
  | approved    => str "approved"
  | rejected    => str "rejected"
  | unknown s _ => s

structure Request where
  id                 : Str
  privateModelID     : Str
  privateNamespace   : Str
  privateName        : Str
  privateURI         : Str
  targetName         : Str
  targetCollectionID : Str
  requestedBy        : Str
  note               : Str
  status             : Status
  reviewedBy         : Str
  reviewerNote       : Str
  catalogModelID     : Str
  createdAt          : Time
  updatedAt          : Time
deriving DecidableEq

def errNotFound : Error :=
  .sentinel "publish" "publish request not found"

def errConflict : Error :=
  .sentinel "publish" "publish request already exists"

structure ListFilter where
  status : Str
  ns     : Str

def ListFilter.admits (f : ListFilter) (r : Request) : Bool :=
  (f.status = [] || r.status.text = f.status) && (f.ns = [] || r.privateNamespace = f.ns)

abbrev MemoryStore :=
  Go.Map Request

namespace MemoryStore

def get (s : MemoryStore) (id : Str) : Except Error Request :=
  match s.lookup id with
  | none   => .error errNotFound
  | some r => .ok r

-- The newest first
def less (a b : Request) : Bool :=
  if a.createdAt ≠ b.createdAt then b.createdAt.before a.createdAt else a.id < b.id

def list (s : MemoryStore) (f : ListFilter) : List Request :=
  s.sorted f.admits less

def stamp (r : Request) (now : Time) : Request :=
  let created := if r.createdAt.isZero then now else r.createdAt
  { r with
    createdAt := created
    updatedAt := if r.updatedAt.isZero then created else r.updatedAt }

def create (s : MemoryStore) (r : Request) (now : Time) : Except Error (Request × MemoryStore) :=
  if s.lookup r.id |>.isSome then
    .error errConflict
  else if s.exists? fun existing =>
      existing.privateModelID == r.privateModelID && existing.status == .pending then
    .error errConflict
  else
    .ok (stamp r now, s.insert r.id (stamp r now))

def update (s : MemoryStore) (id : Str) (mutate : Request → Except Error Request) (now : Time) :
    Except Error (Request × MemoryStore) :=
  match s.lookup id with
  | none   => .error errNotFound
  | some r =>
    match mutate r with
    | .error e => .error e
    | .ok r    =>
      let r := { r with updatedAt := now }
      .ok (r, s.insert id r)

def delete (s : MemoryStore) (id : Str) : Except Error (Unit × MemoryStore) :=
  if s.lookup id |>.isSome then .ok ((), s.erase id) else .error errNotFound

variable {s s' : MemoryStore} {id : Str}

theorem get_ok {r : Request} (h : s.get id = .ok r) : s.lookup id = some r := by
  unfold get at h
  split at h
  case h_1 => cases h
  case h_2 => cases h; assumption

theorem create_ok {r r' : Request} (h : s.create r now = .ok (r', s')) :
    s.lookup r.id = none ∧ r' = stamp r now ∧ s' = s.insert r.id r' := by
  unfold create at h
  split at h
  case isTrue => cases h
  case isFalse hn =>
    split at h
    case isTrue  => cases h
    case isFalse => cases h; exact ⟨by simpa using hn, rfl, rfl⟩

theorem update_ok {r' : Request} (h : s.update id f now = .ok (r', s')) :
    ∃ r r₁, s.lookup id = some r ∧ f r = .ok r₁ ∧ r' = { r₁ with updatedAt := now } ∧
      s' = s.insert id r' := by
  unfold update at h
  split at h
  case h_1 => cases h
  case h_2 r hl =>
    split at h
    case h_1         => cases h
    case h_2 r₁ hf => cases h; exact ⟨r, r₁, hl, hf, rfl, rfl⟩

theorem delete_ok (h : s.delete id = .ok ((), s')) : s' = s.erase id := by
  unfold delete at h
  split at h
  case isTrue  => cases h; rfl
  case isFalse => cases h

end MemoryStore
end Publish
