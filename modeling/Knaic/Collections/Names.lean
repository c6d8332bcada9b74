import Knaic.Collections.Service

open Go Effects Sql

namespace Collections

open Auth

-- Every collection has a name, and no other of its scope and namespace has the same.
structure Named (s : Go.Map Collection) : Prop where
  named  : ∀ k c, s.lookup k = some c → c.name ≠ []
  unique : ∀ k k' c c', s.lookup k = some c → s.lookup k' = some c' → c.scope = c'.scope →
           c.ns = c'.ns → c.name = c'.name → k = k'

-- The calls that pass all checks but would give a collection the name of another.
def Duplicates (authorizer : Bool) : calls.Op → Draw → Go.Map Collection → Prop
  | .create u req, d, s   =>
    req.name ≠ [] ∧ gate authorizer u req.scope req.ns d.writable = .ok () ∧
    MemoryStore.clashes s (collection u req (req.identifier d))
  | .patch u id req, d, s =>
    ∃ c, s.lookup id = some c ∧ gate authorizer u c.scope c.ns d.writable = .ok () ∧
    MemoryStore.clashes (s.erase id) (req.on c)
  | .delete _ _, _, _     => False

def conflict : (k : calls.Op) → calls.Res k
  | .create _ _ | .patch _ _ _ | .delete _ _ => .error errConflict

def accepted : (k : calls.Op) → calls.Res k → Bool
  | .create _ _, r | .patch _ _ _, r | .delete _ _, r => r.toOption.isSome

-- Such a call is refused with the conflict, and nothing has changed.
def Refuses (authorizer : Bool) (M : Machine calls Draw (Go.Map Collection)) (k : calls.Op)
    (d : Draw) (s : Go.Map Collection) : Prop :=
  Duplicates authorizer k d s → M.answer k d s = (conflict k, s)

-- The calls that both stores take in the same way: what gets past the gate fits the columns of the
-- table, and a collection is renamed to a name that is not empty and that no other one has.
def Common (authorizer : Bool) : calls.Op → Draw → MemoryStore → Prop
  | .create u req, d, _   =>
    req.name ≠ [] → gate authorizer u req.scope req.ns d.writable = .ok () →
    PostgresStore.Storable (MemoryStore.stamp (collection u req (req.identifier d)) d.now)
  | .patch u id req, d, s =>
    ∀ c ∈ s.lookup id, gate authorizer u c.scope c.ns d.writable = .ok () →
      PostgresStore.Storable { req.on c with updatedAt := d.now } ∧ (req.on c).name ≠ [] ∧
      ¬MemoryStore.clashes (s.erase id) (req.on c)
  | .delete _ _, _, _     => True

instance (authorizer : Bool) (k : calls.Op) (d : Draw) (s : MemoryStore) :
    Decidable (Common authorizer k d s) :=
  match k with
  | .create _ _   => inferInstanceAs (Decidable (_ → _ → _))
  | .patch _ id _ => inferInstanceAs (Decidable (∀ c ∈ s.lookup id, _ → _))
  | .delete _ _   => isTrue trivial

-- The states that the two stores are in together.
structure Alike (s : MemoryStore) (t : PostgresStore) : Prop where
  same     : t = s
  valid    : PostgresStore.schema.Valid s
  storable : ∀ k c, s.lookup k = some c → PostgresStore.Storable c
  named    : ∀ k c, s.lookup k = some c → c.name ≠ []

variable {db : Database} {authorizer : Bool} {s : MemoryStore} {t : PostgresStore}
  {c c' : Collection} {id : Str} {now : Time} {d : Draw} {u : Option User} {k : calls.Op}

theorem Alike.uniqueNames (h : Alike s t) : Named s where
  named  := h.named
  unique k k' c c' hl hl' hs hn hm :=
    h.valid.uniques _ (List.mem_singleton.mpr rfl) k k' c c' hl hl' (by
      simp [PostgresStore.uniq, hs, hn, hm])

theorem Alike.put (h : Alike s s) (hc : PostgresStore.Storable c) (hn : c.name ≠ [])
    (ht : ¬PostgresStore.schema.taken s c) : Alike (s.insert c.id c) (s.insert c.id c) where
  same  := rfl
  valid := h.valid.put (PostgresStore.schema_check hc) ht
  storable k e hl := by
    cases Map.lookup_insert_some hl
    case inl he => exact he.right ▸ hc
    case inr hl => exact h.storable k e hl
  named k e hl := by
    cases Map.lookup_insert_some hl
    case inl he => exact he.right ▸ hn
    case inr hl => exact h.named k e hl

theorem Alike.erase (h : Alike s s) (id : Str) : Alike (s.erase id) (s.erase id) where
  same           := rfl
  valid          := h.valid.erase id
  storable _ _ hl := h.storable _ _ (Map.lookup_erase_some hl)
  named _ _ hl   := h.named _ _ (Map.lookup_erase_some hl)

-- The loop of the map finds what the index finds among the other rows.
theorem taken_iff_clashes (hv : PostgresStore.schema.Valid s) :
    PostgresStore.schema.taken s c ↔ MemoryStore.clashes (s.erase c.id) c := by
  simp only [Schema.taken_iff, MemoryStore.clashes_iff, PostgresStore.schema, List.mem_singleton,
    exists_eq_left, PostgresStore.uniq, List.cons.injEq, and_true]
  constructor
  case mp =>
    rintro ⟨k, e, he, hne, hs, hn, hm⟩
    have hk : k ≠ c.id := fun hk => hne ((hv.key k e he).trans hk)
    exact ⟨k, e, by rwa [Finmap.lookup_erase_ne hk], Models.Scope.text_inj hs, hn, hm⟩
  case mpr =>
    rintro ⟨k, e, he, hs, hn, hm⟩
    have hk : k ≠ c.id := by
      rintro rfl
      cases (Finmap.lookup_erase _ s).symm.trans he
    have he := Map.lookup_erase_some he
    exact ⟨k, e, he, fun hi => hk ((hv.key k e he).symm.trans hi), congrArg _ hs, hn, hm⟩

theorem erase_missing (h : s.lookup id = none) : s.erase id = s := by
  refine Finmap.ext_lookup fun k => ?_
  by_cases hk : k = id
  case pos => rw [hk, Finmap.lookup_erase, h]
  case neg => exact Finmap.lookup_erase_ne hk

-- Where every value fits, the statements do to the table what the loops do to the map.
theorem create_eq (hd : db.Documented) (hv : PostgresStore.schema.Valid s)
    (hc : PostgresStore.Storable (MemoryStore.stamp c now)) :
    PostgresStore.create db s c now = MemoryStore.create s c now := by
  have ht : ((s.lookup (MemoryStore.stamp c now).id).isSome ||
      PostgresStore.schema.taken s (MemoryStore.stamp c now)) =
      ((s.lookup c.id).isSome || MemoryStore.clashes s c) := by
    show ((s.lookup c.id).isSome || _) = _
    cases hl : s.lookup c.id
    case some => rfl
    case none =>
      refine Bool.eq_iff_iff.mpr ((taken_iff_clashes hv).trans ?_)
      show MemoryStore.clashes (s.erase c.id) c ↔ _
      rw [erase_missing hl]
      rfl
  simp only [PostgresStore.create, PostgresStore.row_storable hd hc, ok_bind, Schema.insert,
    PostgresStore.schema_check hc, PostgresStore.schema_key, ht, MemoryStore.create]
  cases (s.lookup c.id).isSome
  case true  => rfl
  case false => cases MemoryStore.clashes s c <;> rfl

theorem get_found (hd : db.Documented) (ha : Alike s s) (hl : s.lookup id = some c) :
    PostgresStore.get db s id = .ok c := by
  have hi : c.id = id := ha.valid.key id c hl
  have ht : storableText id := hi ▸ (ha.storable id c hl).text c.id (by simp [PostgresStore.texts])
  simp [PostgresStore.get, db.find_ok hd ht, hl]

theorem get_missing (db : Database) (hl : s.lookup id = none) :
    ∃ e, PostgresStore.get db s id = .error e := by
  unfold PostgresStore.get Database.find
  cases db.texts [id]
  case error c => exact ⟨_, rfl⟩
  case ok      => exact ⟨errNotFound, by simp only [ok_bind, hl]; rfl⟩

theorem update_eq (hd : db.Documented) (ha : Alike s s) (hl : s.lookup id = some c)
    {mutate : Collection → Except Error Collection} (hm : mutate c = .ok c')
    (hc : PostgresStore.Storable { c' with updatedAt := now })
    (hs : PostgresStore.set { c' with updatedAt := now } c = { c' with updatedAt := now })
    (ht : ¬PostgresStore.schema.taken s { c' with updatedAt := now }) (hi : c'.id = id) :
    PostgresStore.update db s id mutate now = MemoryStore.update s id mutate now := by
  subst hi
  simp only [PostgresStore.update, get_found hd ha hl, ok_bind, hm,
    PostgresStore.change_storable hd hc, Schema.update, hl, hs, PostgresStore.schema_check hc, ht,
    MemoryStore.update]
  rfl

theorem delete_found (hd : db.Documented) (ha : Alike s s) (hl : s.lookup id = some c) :
    PostgresStore.delete db s id = .ok ((), s.erase id) := by
  have hi : c.id = id := ha.valid.key id c hl
  have ht : storableText id := hi ▸ (ha.storable id c hl).text c.id (by simp [PostgresStore.texts])
  have hx : db.texts [id] = .ok () := db.texts_ok hd (by simpa using ht)
  simp [PostgresStore.delete, hx, Schema.delete, hl]

-- What a patch that meets the condition makes of a collection, on either store.
theorem on_eq (now : Time) (ha : Alike s s) {req : PatchRequest} (hl : s.lookup id = some c)
    (hn : ¬MemoryStore.clashes (s.erase id) (req.on c)) :
    (req.on c).id = id ∧
    PostgresStore.set { req.on c with updatedAt := now } c = { req.on c with updatedAt := now } ∧
    ¬PostgresStore.schema.taken s { req.on c with updatedAt := now } := by
  have hi : (req.on c).id = id := ha.valid.key id c hl
  refine ⟨hi, rfl, fun ht => hn ?_⟩
  have hc := (taken_iff_clashes ha.valid).mp ht
  exact hi ▸ hc

theorem create_answer (hd : db.Documented) (ha : Alike s s) {req : CreateRequest}
    (hc : Common authorizer (.create u req) d s) :
    (service authorizer (postgres db)).answer (.create u req) d s =
      (service authorizer memory).answer (.create u req) d s := by
  rw [run_create, run_create]
  split
  case isTrue => rfl
  case isFalse hn =>
    split
    case h_1 => rfl
    case h_2 hg => exact congrArg (commit s) (create_eq hd ha.valid (hc hn hg))

theorem patch_answer (hd : db.Documented) (ha : Alike s s) {req : PatchRequest}
    (hc : Common authorizer (.patch u id req) d s) (hl : s.lookup id = some c) :
    (service authorizer (postgres db)).answer (.patch u id req) d s =
      (service authorizer memory).answer (.patch u id req) d s := by
  have hm : memory.get s id = .ok c := by simp [memory, MemoryStore.get, hl]
  have hp : (postgres db).get s id = .ok c := get_found hd ha hl
  rw [run_patch, run_patch, hm, hp]
  dsimp only
  split
  case h_1 => rfl
  case h_2 hg =>
    have ⟨hs, _, hn⟩ := hc c hl hg
    have ⟨hi, ho, ht⟩ := on_eq d.now ha hl hn
    exact congrArg (commit s) (update_eq hd ha hl rfl hs ho ht hi)

theorem delete_answer (hd : db.Documented) (ha : Alike s s) (hl : s.lookup id = some c) :
    (service authorizer (postgres db)).answer (.delete u id) d s =
      (service authorizer memory).answer (.delete u id) d s := by
  have hm : memory.get s id = .ok c := by simp [memory, MemoryStore.get, hl]
  have hp : (postgres db).get s id = .ok c := get_found hd ha hl
  rw [run_delete, run_delete, hm, hp]
  dsimp only
  split
  case h_1 => rfl
  case h_2 hg =>
    have he : MemoryStore.delete s id = .ok ((), s.erase id) := by simp [MemoryStore.delete, hl]
    exact congrArg (commit s) ((delete_found hd ha hl).trans he.symm)

-- A call on a collection that is not there is refused by either store, in its own words.
theorem missing_answer {st : Store (Go.Map Collection)} {e : Error} (hg : st.get s id = .error e) :
    (∀ req, (service authorizer st).answer (.patch u id req) d s = (.error e, s)) ∧
    (service authorizer st).answer (.delete u id) d s = (.error e, s) := by
  refine ⟨fun req => ?_, ?_⟩
  case refine_1 => rw [run_patch, hg]
  case refine_2 => rw [run_delete, hg]

theorem answer_alike (hd : db.Documented) (ha : Alike s s) (hc : Common authorizer k d s) :
    accepted k ((service authorizer memory).answer k d s).1 =
      accepted k ((service authorizer (postgres db)).answer k d s).1 ∧
    ((service authorizer (postgres db)).answer k d s).2 =
      ((service authorizer memory).answer k d s).2 := by
  have missing {id : Str} (hl : s.lookup id = none) : memory.get s id = .error errNotFound := by
    simp [memory, MemoryStore.get, hl]
  cases k
  case create u req => rw [create_answer hd ha hc]; exact ⟨rfl, rfl⟩
  case patch u id req =>
    cases hl : s.lookup id
    case some c => rw [patch_answer hd ha hc hl]; exact ⟨rfl, rfl⟩
    case none =>
      have ⟨e, he⟩ := get_missing db hl
      rw [(missing_answer (missing hl)).left req, (missing_answer he).left req]
      exact ⟨rfl, rfl⟩
  case delete u id =>
    cases hl : s.lookup id
    case some c => rw [delete_answer hd ha hl]; exact ⟨rfl, rfl⟩
    case none =>
      have ⟨e, he⟩ := get_missing db hl
      rw [(missing_answer (missing hl)).right, (missing_answer he).right]
      exact ⟨rfl, rfl⟩

-- What a call does to the map keeps the names apart.
theorem Alike.next (ha : Alike s s) (hc : Common authorizer k d s) :
    Alike ((service authorizer memory).answer k d s).2
      ((service authorizer memory).answer k d s).2 := by
  cases k
  case create u req =>
    rw [run_create]
    split
    case isTrue => exact ha
    case isFalse hn =>
      split
      case h_1 => exact ha
      case h_2 hg =>
        have hs := hc hn hg
        simp only [memory, MemoryStore.create]
        split
        case isTrue => exact ha
        case isFalse hl =>
          split
          case isTrue => exact ha
          case isFalse ht =>
            refine ha.put hs hn fun hk => ht ?_
            have hk := (taken_iff_clashes ha.valid).mp hk
            have he := erase_missing (by simpa using hl)
            exact he ▸ hk
  case patch u id req =>
    rw [run_patch]
    cases hl : s.lookup id
    case none => simpa [memory, MemoryStore.get, hl] using ha
    case some c =>
      simp only [memory, MemoryStore.get, hl]
      split
      case h_1 => exact ha
      case h_2 hg =>
        have ⟨hs, hne, hn⟩ := hc c hl hg
        have ⟨hi, _, ht⟩ := on_eq d.now ha hl hn
        simp only [MemoryStore.update, hl, commit]
        exact hi ▸ ha.put hs hne ht
  case delete u id =>
    rw [run_delete]
    cases hl : s.lookup id
    case none => simpa [memory, MemoryStore.get, hl] using ha
    case some c =>
      simp only [memory, MemoryStore.get, hl]
      split
      case h_1 => exact ha
      case h_2 => simpa [MemoryStore.delete, hl, commit] using ha.erase id

theorem memory_refuses (hc : Common authorizer k d s) :
    Refuses authorizer (service authorizer memory) k d s := by
  intro hd
  cases k
  case delete => contradiction
  case patch u id req =>
    have ⟨c, hl, hg, hn⟩ := hd
    exact absurd hn (hc c hl hg).right.right
  case create u req =>
    have ⟨hn, hg, ht⟩ := hd
    rw [run_create, if_neg hn, hg]
    simp only [memory, MemoryStore.create, ht, if_true]
    split <;> rfl

theorem postgres_refuses (hd : db.Documented) (ha : Alike s s) (hc : Common authorizer k d s) :
    Refuses authorizer (service authorizer (postgres db)) k d s := by
  intro hp
  cases k
  case delete => contradiction
  case patch u id req =>
    have ⟨c, hl, hg, hn⟩ := hp
    exact absurd hn (hc c hl hg).right.right
  case create u req => exact (create_answer hd ha hc).trans (memory_refuses hc hp)

theorem postgres_follows (hd : db.Documented) :
    Machine.Follows (service authorizer memory) (service authorizer (postgres db)) accepted
      (Common authorizer) Alike where
  alike k d s t ha hc := by
    cases ha.same
    exact (answer_alike hd ha hc).left
  keeps k d s t ha hc := by
    cases ha.same
    rw [(answer_alike hd ha hc).right]
    exact ha.next hc

-- The rules for the names, for the service over a store that has taken `steps`.
structure Lawful (authorizer : Bool) (M : Machine calls Draw (Go.Map Collection))
    (steps : List (calls.Op × Draw)) : Prop where
  named   : Named (M.run ∅ steps)
  refuses : M.Throughout (Refuses authorizer M) ∅ steps

def admin : User where
  subject         := str "root"
  email           := str "root@example.com"
  name            := str "root"
  groups          := []
  isPlatformAdmin := true

def series (id name : String) : CreateRequest where
  id          := str id
  name        := str name
  scope       := .scopePublic
  ns          := []
  description := []
  iconColor   := []

def draw : Draw where
  now      := ⟨1, 0⟩
  random   := .replicate 4 0
  writable := .ok true

-- A series is created, refused a second time, renamed and deleted.
def upkeep : List (calls.Op × Draw) := [
  (.create admin (series "qwen" "Qwen"), draw),
  (.create admin (series "" "Qwen"), draw),
  (.create none (series "llama" "Llama"), draw),
  (.patch admin (str "qwen") ⟨some (str "Qwen 3"), none, none⟩, draw),
  (.create admin (series "" "Qwen"), draw),
  (.delete admin (str "qwen"), draw)]

-- A series that is renamed to the name of another one.
def secondName : List (calls.Op × Draw) := [
  (.create admin (series "qwen" "Qwen"), draw),
  (.create admin (series "llama" "Llama"), draw),
  (.patch admin (str "llama") ⟨some (str "Qwen"), none, none⟩, draw)]

end Collections
