import Knaic.Effects.Machine
import Knaic.Publish.PostgresStore

open Go Effects Sql

namespace Publish

inductive StoreOp
  | create (r : Request)
  | get (id : Str)
  | list (f : ListFilter)
  | update (id : Str) (mutate : Request → Except Error Request)
  | delete (id : Str)

abbrev store : Signature where
  Op := StoreOp
  Res
    | .create _ | .get _ | .update _ _ => Except Error Request
    | .list _                          => Except Error (List Request)
    | .delete _                        => Except Error Unit

-- What an operation draws is the time.
def memory : Machine store Time MemoryStore where
  answer op now s :=
    match op with
    | .create r         => commit s (s.create r now)
    | .get id           => (s.get id, s)
    | .list f           => (.ok (s.list f), s)
    | .update id mutate => commit s (s.update id mutate now)
    | .delete id        => commit s (s.delete id)

def postgres (db : Database) : Machine store Time PostgresStore where
  answer op now t :=
    match op with
    | .create r         => commit t (PostgresStore.create db t r now)
    | .get id           => (PostgresStore.get db t id, t)
    | .list f           => (PostgresStore.list db t f, t)
    | .update id mutate => commit t (PostgresStore.update db t id mutate now)
    | .delete id        => commit t (PostgresStore.delete db t id)

def OnePending (s : Go.Map Request) : Prop :=
  ∀ k k' r r', s.lookup k = some r → s.lookup k' = some r' → r.status = .pending →
  r'.status = .pending → r.privateModelID = r'.privateModelID → k = k'

def hasPending (s : Go.Map Request) (privateModelID : Str) : Bool :=
  s.exists? fun existing =>
    existing.privateModelID == privateModelID && existing.status == .pending

-- The part of a request that an update leaves alone.
def SameOrigin (r r' : Request) : Prop :=
  r'.id = r.id ∧ r'.privateModelID = r.privateModelID ∧ r'.privateNamespace = r.privateNamespace ∧
  r'.privateName = r.privateName ∧ r'.privateURI = r.privateURI ∧ r'.requestedBy = r.requestedBy ∧
  r'.createdAt = r.createdAt

instance (r r' : Request) : Decidable (SameOrigin r r') :=
  inferInstanceAs (Decidable (_ ∧ _))

-- The steps that no rule of one store alone decides: all values fit the columns of the table, no
-- second pending request is made for a private model, and the origin of a request is not rewritten.
def Common : store.Op → Time → MemoryStore → Prop
  | .create r, now, s         =>
    PostgresStore.Storable (MemoryStore.stamp r now) ∧
    ((s.lookup r.id).isSome ∨ ¬hasPending s r.privateModelID)
  | .get id, _, _             => storableText id
  | .list f, _, _             => storableText f.status ∧ storableText f.ns
  | .update id mutate, now, s =>
    storableText id ∧
    ∀ r ∈ s.lookup id, ∀ r' ∈ (mutate r).toOption,
      PostgresStore.Storable { r' with updatedAt := now } ∧ SameOrigin r r' ∧
      (r'.status = .pending → ¬hasPending (s.erase id) r'.privateModelID)
  | .delete id, _, _          => storableText id

instance (op : store.Op) (now : Time) (s : MemoryStore) : Decidable (Common op now s) :=
  match op with
  | .create _          => inferInstanceAs (Decidable (_ ∧ (_ ∨ _)))
  | .list _            => inferInstanceAs (Decidable (_ ∧ _))
  | .update id _       => inferInstanceAs (Decidable (_ ∧ ∀ r ∈ s.lookup id, _))
  | .get id | .delete id => inferInstanceAs (Decidable (storableText id = true))

variable {db : Database} {s : MemoryStore} {r r' : Request} {id : Str} {now : Time}
  {mutate : Request → Except Error Request}

theorem hasPending_iff {m : Str} : hasPending s m ↔
    ∃ k r, s.lookup k = some r ∧ r.privateModelID = m ∧ r.status = .pending := by
  simp [hasPending, Map.exists_iff]

-- Where every rule is met, the statements do to the table what the loops do to the map.
theorem create_eq (hd : db.Documented) (h : Common (.create r) now s) :
    PostgresStore.create db s r now = s.create r now := by
  have ⟨hr, hp⟩ := h
  have hc := PostgresStore.schema_check hr
  have hn := PostgresStore.not_taken (r := MemoryStore.stamp r now) s
  simp only [PostgresStore.create, PostgresStore.row_storable hd hr, ok_bind, Schema.insert, hc,
    PostgresStore.schema_key, hn, Bool.or_false, MemoryStore.create]
  cases hl : s.lookup r.id
  case some => simp [MemoryStore.stamp, hl]
  case none =>
    have hn : ¬hasPending s r.privateModelID := by simpa [hl] using hp
    simpa [MemoryStore.stamp, hl, hasPending] using hn

theorem get_eq (hd : db.Documented) (h : storableText id) :
    PostgresStore.get db s id = s.get id := by
  simp only [PostgresStore.get, db.find_ok hd h, MemoryStore.get]
  cases s.lookup id <;> rfl

theorem list_eq (hd : db.Documented) (hb : db.Bytewise) {f : ListFilter}
    (h : Common (.list f) now s) : PostgresStore.list db s f = .ok (s.list f) := by
  have hp : PostgresStore.precedes db = MemoryStore.less := by
    funext a b
    simp [PostgresStore.precedes, MemoryStore.less, hb a.id b.id]
  have ht : db.texts [f.status, f.ns] = .ok () :=
    db.texts_ok hd (by simpa using And.intro h.left h.right)
  simp only [PostgresStore.list, ht, hp, MemoryStore.list, Except.mapError, ok_bind]
  rfl

-- However the loop went over the map, the listing is the same.
theorem list_unique (hv : PostgresStore.schema.Valid s) {f : ListFilter} {l : List Request}
    (hp : l.Perm (s.values.filter f.admits))
    (hs : l.Pairwise fun a b => !MemoryStore.less b a) : l = s.list f := by
  refine Map.sorted_unique (fun r => r.createdAt.newest r.id) (fun _ _ => Time.newest_iff) ?_ hp hs
  intro k k' a b ha hb he
  have hi : a.id = b.id := (Prod.mk.inj (toLex.injective he)).right
  have hk : k = k' := (hv.key k a ha).symm.trans (hi.trans (hv.key k' b hb))
  subst hk
  exact Option.some.inj (ha.symm.trans hb)

-- What is written over the row is the whole of the mutated request.
theorem set_sameOrigin (h : SameOrigin r r') : PostgresStore.set r' r = r' := by
  have ⟨hi, hm, hn, ha, hu, hb, hc⟩ := h
  simp only [PostgresStore.set, ← hi, ← hm, ← hn, ← ha, ← hu, ← hb, ← hc]

theorem update_eq (hd : db.Documented) (hv : PostgresStore.schema.Valid s)
    (h : Common (.update id mutate) now s) :
    PostgresStore.update db s id mutate now = s.update id mutate now := by
  have ⟨ht, hm⟩ := h
  simp only [PostgresStore.update, get_eq hd ht, MemoryStore.get, MemoryStore.update]
  cases hl : s.lookup id
  case none => rfl
  case some r =>
    cases hf : mutate r
    case error => simp [hf, bind, Except.bind]
    case ok r' =>
      have ⟨hr, ho, _⟩ := hm r hl r' (by simp [hf, Except.toOption])
      have hi : r'.id = id := ho.left.trans (hv.key id r hl)
      have hs := @set_sameOrigin r { r' with updatedAt := now } ho
      subst hi
      simp only [ok_bind, hf, PostgresStore.change_storable hd hr, Schema.update, hl, hs,
        PostgresStore.schema_check hr, PostgresStore.not_taken]
      rfl

theorem delete_eq (hd : db.Documented) (h : storableText id) :
    PostgresStore.delete db s id = s.delete id := by
  have ht : db.texts [id] = .ok () := db.texts_ok hd (by simpa using h)
  simp only [PostgresStore.delete, ht, Schema.delete, MemoryStore.delete]
  split <;> rfl

-- The states that the two stores are in together.
structure Alike (s : MemoryStore) (t : PostgresStore) : Prop where
  same  : t = s
  valid : PostgresStore.schema.Valid s
  one   : OnePending s

theorem OnePending.erase (h : OnePending s) (id : Str) : OnePending (s.erase id) :=
  fun k k' r r' hl hl' => h k k' r r' (Map.lookup_erase_some hl) (Map.lookup_erase_some hl')

theorem OnePending.insert (h : OnePending s)
    (hr : r.status = .pending → ¬hasPending (s.erase id) r.privateModelID) :
    OnePending (s.insert id r) := by
  have hf : ∀ k a, s.lookup k = some a → a.status = .pending → r.status = .pending →
      a.privateModelID = r.privateModelID → k = id := by
    intro k a hl ha hp hm
    by_contra hne
    exact hr hp (hasPending_iff.mpr ⟨k, a, by rwa [Finmap.lookup_erase_ne hne], hm, ha⟩)
  intro k k' a a' hl hl' ha ha' hm
  cases Map.lookup_insert_some hl <;> cases Map.lookup_insert_some hl'
  case inl.inl h₁ h₂ => rw [h₁.left, h₂.left]
  case inl.inr h₁ h₂ =>
    obtain ⟨rfl, rfl⟩ := h₁
    exact (hf k' a' h₂ ha' ha hm.symm).symm
  case inr.inl h₁ h₂ =>
    obtain ⟨rfl, rfl⟩ := h₂
    exact hf k a h₁ ha ha' hm
  case inr.inr h₁ h₂ => exact h k k' a a' h₁ h₂ ha ha' hm

theorem Alike.put (h : Alike s s) (hr : PostgresStore.Storable r)
    (hp : r.status = .pending → ¬hasPending (s.erase r.id) r.privateModelID) :
    Alike (s.insert r.id r) (s.insert r.id r) where
  same  := rfl
  valid := h.valid.put (PostgresStore.schema_check hr) (PostgresStore.not_taken s)
  one   := h.one.insert hp

theorem hasPending_erase {m : Str} (h : ¬hasPending s m) : ¬hasPending (s.erase id) m := by
  intro hp
  have ⟨k, r, hl, hr⟩ := hasPending_iff.mp hp
  exact h (hasPending_iff.mpr ⟨k, r, Map.lookup_erase_some hl, hr⟩)

-- What a step does to the map keeps the states alike.
theorem Alike.next {op : store.Op} (h : Alike s s) (hc : Common op now s) :
    Alike (memory.answer op now s).2 (memory.answer op now s).2 := by
  cases op
  case get    => exact h
  case list   => exact h
  case create r =>
    simp only [memory, MemoryStore.create]
    split
    case isTrue => exact h
    case isFalse hl =>
      split
      case isTrue => exact h
      case isFalse hp =>
        exact h.put hc.left fun _ => hasPending_erase (by simpa [hasPending, MemoryStore.stamp] using hp)
  case update id mutate =>
    simp only [memory, MemoryStore.update]
    split
    case h_1 => exact h
    case h_2 r hl =>
      split
      case h_1 => exact h
      case h_2 r' hf =>
        have ⟨hr, ho, hp⟩ := hc.right r hl r' (by simp [hf, Except.toOption])
        have hi : r'.id = id := ho.left.trans (h.valid.key id r hl)
        exact hi ▸ h.put hr (hi ▸ hp)
  case delete id =>
    simp only [memory, MemoryStore.delete]
    split
    case isTrue  => exact ⟨rfl, h.valid.erase id, h.one.erase id⟩
    case isFalse => exact h

theorem answer_eq {op : store.Op} (hd : db.Documented) (hb : db.Bytewise) (h : Alike s s)
    (hc : Common op now s) : (postgres db).answer op now s = memory.answer op now s := by
  cases op
  case create r         => exact congrArg (commit s) (create_eq hd hc)
  case get id           => exact Prod.ext (get_eq hd hc) rfl
  case list f           => exact Prod.ext (list_eq hd hb hc) rfl
  case update id mutate => exact congrArg (commit s) (update_eq hd h.valid hc)
  case delete id        => exact congrArg (commit s) (delete_eq hd hc)

theorem postgres_follows (hd : db.Documented) (hb : db.Bytewise) :
    Machine.Follows memory (postgres db) Sigma.mk Common Alike where
  alike op now s t h hc := by
    cases h.same
    rw [answer_eq hd hb h hc]
  keeps op now s t h hc := by
    cases h.same
    rw [answer_eq hd hb h hc]
    exact h.next hc

-- A request to publish the private model `m-1`.
def opened (id : String) : Request where
  id                 := str id
  privateModelID     := str "m-1"
  privateNamespace   := str "team"
  privateName        := str "qwen"
  privateURI         := str "hf://ada/qwen"
  targetName         := str "qwen"
  targetCollectionID := []
  requestedBy        := str "ada"
  note               := []
  status             := .pending
  reviewedBy         := []
  reviewerNote       := []
  catalogModelID     := []
  createdAt          := Time.zero
  updatedAt          := Time.zero

-- A request is opened, read, listed, rejected and deleted, and then one is opened again.
def lifecycle : List (store.Op × Time) := [
  (.create (opened "pub-1"), ⟨1, 0⟩),
  (.create (opened "pub-1"), ⟨2, 0⟩),
  (.get (str "pub-1"), ⟨3, 0⟩),
  (.update (str "pub-1") fun r => .ok { r with status := .rejected }, ⟨4, 0⟩),
  (.create (opened "pub-2"), ⟨5, 0⟩),
  (.list ⟨str "pending", []⟩, ⟨6, 0⟩),
  (.delete (str "pub-1"), ⟨7, 0⟩)]

end Publish
