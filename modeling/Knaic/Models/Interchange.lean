import Knaic.Effects.Machine
import Knaic.Models.PostgresStore

open Go Effects Sql

namespace Models

inductive StoreOp
  | create (m : Model)
  | get (id : Str)
  | list (scope : Scope) (ns : Str)
  | update (id : Str) (mutate : Model → Except Error Model)
  | delete (id : Str)
  | count (scope : Scope)

abbrev store : Signature where
  Op := StoreOp
  Res
    | .create _ | .get _ | .update _ _ => Except Error Model
    | .list _ _                        => Except Error (List Model)
    | .delete _                        => Except Error Unit
    | .count _                         => Except Error Nat

-- What an operation draws is the time.
def memory : Machine store Time MemoryStore where
  answer op now s :=
    match op with
    | .create m         => commit s (s.create m now)
    | .get id           => (s.get id, s)
    | .list scope ns    => (.ok (s.list scope ns), s)
    | .update id mutate => commit s (s.update id mutate now)
    | .delete id        => commit s (s.delete id)
    | .count scope      => (.ok (s.count scope), s)

def postgres (db : Database) : Machine store Time PostgresStore where
  answer op now t :=
    match op with
    | .create m         => commit t (PostgresStore.create db t m now)
    | .get id           => (PostgresStore.get db t id, t)
    | .list scope ns    => (PostgresStore.list db t scope ns, t)
    | .update id mutate => commit t (PostgresStore.update db t id mutate now)
    | .delete id        => commit t (PostgresStore.delete db t id)
    | .count scope      => (PostgresStore.count db t scope, t)

-- The part of a model that an update leaves alone.
def SameOrigin (m m' : Model) : Prop :=
  m'.id = m.id ∧ m'.name = m.name ∧ m'.owner = m.owner ∧ m'.scope = m.scope ∧ m'.ns = m.ns ∧
  m'.uri = m.uri ∧ m'.scheme = m.scheme ∧ m'.modelType = m.modelType ∧ m'.sizeGB = m.sizeGB ∧
  m'.createdAt = m.createdAt

instance (m m' : Model) : Decidable (SameOrigin m m') :=
  inferInstanceAs (Decidable (_ ∧ _))

-- The steps that no rule of one store alone decides: all values fit the columns of the table, an
-- identifier is not taken by a model of another name, no time of change comes without a time of
-- creation, what a listing leaves out is in no namespace but the given one, and the origin of a
-- model is not rewritten.
def Common : store.Op → Time → MemoryStore → Prop
  | .create m, now, s         =>
    PostgresStore.Storable (MemoryStore.stamp m now) ∧
    (m.createdAt.isZero → m.updatedAt.isZero) ∧ (s.clashes m ∨ s.lookup m.id = none)
  | .get id, _, _             => storableText id
  | .list scope ns, _, s      =>
    storableText scope.text ∧ storableText ns ∧
    ((scope = .scopePrivate ↔ ns ≠ []) ∨ ¬s.exists? fun m => m.scope == scope && m.ns != ns)
  | .update id mutate, now, s =>
    storableText id ∧
    ∀ m ∈ s.lookup id, ∀ m' ∈ (mutate m).toOption,
      PostgresStore.Storable { m' with updatedAt := now } ∧ SameOrigin m m'
  | .delete id, _, _          => storableText id
  | .count scope, _, _        => storableText scope.text

instance (op : store.Op) (now : Time) (s : MemoryStore) : Decidable (Common op now s) :=
  match op with
  | .create _            => inferInstanceAs (Decidable (_ ∧ _))
  | .list _ _            => inferInstanceAs (Decidable (_ ∧ _))
  | .update id _         => inferInstanceAs (Decidable (_ ∧ ∀ m ∈ s.lookup id, _))
  | .get id | .delete id => inferInstanceAs (Decidable (storableText id = true))
  | .count scope         => inferInstanceAs (Decidable (storableText scope.text = true))

variable {db : Database} {s : MemoryStore} {m m' : Model} {id : Str} {now : Time}
  {mutate : Model → Except Error Model}

theorem stamp_eq (h : m.createdAt.isZero → m.updatedAt.isZero) :
    PostgresStore.stamp m now = MemoryStore.stamp m now := by
  unfold PostgresStore.stamp MemoryStore.stamp
  cases hu : m.updatedAt.isZero
  case false =>
    have hc : m.createdAt.isZero = false := by simpa [hu] using h
    simp [hc]
  case true =>
    cases hc : m.createdAt.isZero
    case false => simp [hc]
    case true  => simp

-- Where the identifier is free, the loop of the map finds the rows that the index finds.
theorem taken_iff_clashes (hv : ∀ k e, s.lookup k = some e → e.id = k) (hl : s.lookup m.id = none) :
    PostgresStore.schema.taken s m ↔ s.clashes m := by
  simp only [Schema.taken_iff, MemoryStore.clashes_iff, PostgresStore.schema, List.mem_singleton,
    exists_eq_left, PostgresStore.uniq, List.cons.injEq, and_true]
  constructor
  case mp =>
    rintro ⟨k, e, he, _, hs, hn, hm⟩
    exact ⟨k, e, he, Scope.text_inj hs, hn, hm⟩
  case mpr =>
    rintro ⟨k, e, he, hs, hn, hm⟩
    refine ⟨k, e, he, fun hi => ?_, congrArg _ hs, hn, hm⟩
    have hk : e.id = k := hv k e he
    cases hl.symm.trans (hi ▸ hk ▸ he)

-- Where every rule is met, the statements do to the table what the loops do to the map.
theorem create_eq (hd : db.Documented) (hv : PostgresStore.schema.Valid s)
    (h : Common (.create m) now s) : PostgresStore.create db s m now = s.create m now := by
  have ⟨hm, hz, hf⟩ := h
  have ht : ((s.lookup (MemoryStore.stamp m now).id).isSome ||
      PostgresStore.schema.taken s (MemoryStore.stamp m now)) = s.clashes m := by
    show ((s.lookup m.id).isSome || _) = _
    cases hl : s.lookup m.id
    case none =>
      exact Bool.eq_iff_iff.mpr (taken_iff_clashes (m := MemoryStore.stamp m now) hv.key hl)
    case some =>
      have hc : s.clashes m := by simpa [hl] using hf
      simp [hc]
  simp only [PostgresStore.create, stamp_eq hz, PostgresStore.row_storable hd hm, ok_bind,
    Schema.insert, PostgresStore.schema_check hm, PostgresStore.schema_key, ht, MemoryStore.create]
  cases s.clashes m <;> rfl

theorem get_eq (hd : db.Documented) (h : storableText id) :
    PostgresStore.get db s id = s.get id := by
  simp only [PostgresStore.get, db.find_ok hd h, MemoryStore.get]
  cases s.lookup id <;> rfl

theorem scope_eq (a b : Scope) : (a.text == b.text) = (a == b) :=
  Bool.eq_iff_iff.mpr (by simpa using ⟨Scope.text_inj, congrArg _⟩)

theorem list_eq (hd : db.Documented) (hb : db.Bytewise) {scope : Scope} {ns : Str}
    (h : Common (.list scope ns) now s) :
    PostgresStore.list db s scope ns = .ok (s.list scope ns) := by
  have ⟨hs, hn, hf⟩ := h
  have hp : PostgresStore.precedes db = MemoryStore.less := by
    funext a b
    simp [PostgresStore.precedes, MemoryStore.less, hb a.id b.id, hb a.name b.name]
  have ht : db.texts [scope.text, ns] = .ok () := db.texts_ok hd (by simp [hs, hn])
  have hk : s.values.filter (fun m => m.scope.text == scope.text && (ns == [] || m.ns == ns)) =
      s.values.filter fun m => m.scope == scope && (scope != .scopePrivate || m.ns == ns) := by
    refine List.filter_congr fun m hm => ?_
    have ⟨k, hl⟩ := Map.mem_values.mp hm
    rw [scope_eq]
    cases he : m.scope == scope
    case false => rfl
    case true =>
      cases hf
      case inl hi =>
        by_cases hns : ns = [] <;> by_cases hsc : scope = .scopePrivate <;> simp_all
      case inr hi =>
        have hns : m.ns = ns := by
          by_contra hne
          exact hi (Map.exists_iff.mpr ⟨k, m, hl, by simp [he, hne]⟩)
        simp [hns]
  simp only [PostgresStore.list, ht, hp, MemoryStore.list, Map.sorted, hk, Except.mapError, ok_bind]
  rfl

-- However the loop went over the map, the listing is the same.
theorem list_unique (hv : PostgresStore.schema.Valid s) {scope : Scope} {ns : Str} {l : List Model}
    (hp : l.Perm (s.values.filter
      fun m => m.scope == scope && (scope != .scopePrivate || m.ns == ns)))
    (hs : l.Pairwise fun a b => !MemoryStore.less b a) : l = s.list scope ns := by
  refine Map.sorted_unique (fun m => m.createdAt.newest (toLex (m.name, m.id))) ?_ ?_ hp hs
  case refine_1 =>
    intro a b
    simp only [MemoryStore.less, lex_iff]
    exact Time.newest_iff
  case refine_2 =>
    intro k k' a b ha hb he
    have hi : a.id = b.id :=
      (Prod.mk.inj (toLex.injective (Prod.mk.inj (toLex.injective he)).right)).right
    have hk : k = k' := (hv.key k a ha).symm.trans (hi.trans (hv.key k' b hb))
    subst hk
    exact Option.some.inj (ha.symm.trans hb)

-- What is written over the row is the whole of the mutated model.
theorem set_sameOrigin (h : SameOrigin m m') : PostgresStore.set m' m = m' := by
  have ⟨hi, hn, ho, hs, ha, hu, hc, ht, hg, hd⟩ := h
  simp only [PostgresStore.set, ← hi, ← hn, ← ho, ← hs, ← ha, ← hu, ← hc, ← ht, ← hg, ← hd]

-- A model that has not changed its name takes no name.
theorem not_taken (hv : PostgresStore.schema.Valid s) (hl : s.lookup id = some m)
    (h : SameOrigin m m') : ¬PostgresStore.schema.taken s m' := by
  intro ht
  have ⟨k, e, he, hne, u, hu, hue⟩ := Schema.taken_iff.mp ht
  have hue' : u e = u m := by
    cases List.mem_singleton.mp hu
    simpa [PostgresStore.uniq, h.right.left, h.right.right.right.left,
      h.right.right.right.right.left] using hue
  have hk := hv.uniques u hu k id e m he hl hue'
  have hi : m'.id = id := h.left.trans (hv.key id m hl)
  exact hne ((hv.key k e he).trans (hk.trans hi.symm))

theorem update_eq (hd : db.Documented) (hv : PostgresStore.schema.Valid s)
    (h : Common (.update id mutate) now s) :
    PostgresStore.update db s id mutate now = s.update id mutate now := by
  have ⟨ht, hm⟩ := h
  simp only [PostgresStore.update, get_eq hd ht, MemoryStore.get, MemoryStore.update]
  cases hl : s.lookup id
  case none => rfl
  case some m =>
    cases hf : mutate m
    case error => simp [hf, bind, Except.bind]
    case ok m' =>
      have ⟨hr, ho⟩ := hm m hl m' (by simp [hf, Except.toOption])
      have hi : m'.id = id := ho.left.trans (hv.key id m hl)
      have hs := @set_sameOrigin m { m' with updatedAt := now } ho
      have hn := @not_taken s m { m' with updatedAt := now } id hv hl ho
      subst hi
      simp only [ok_bind, hf, PostgresStore.change_storable hd hr, Schema.update, hl, hs,
        PostgresStore.schema_check hr, hn]
      rfl

theorem delete_eq (hd : db.Documented) (h : storableText id) :
    PostgresStore.delete db s id = s.delete id := by
  have ht : db.texts [id] = .ok () := db.texts_ok hd (by simpa using h)
  simp only [PostgresStore.delete, ht, Schema.delete, MemoryStore.delete]
  split <;> rfl

theorem count_eq (hd : db.Documented) {scope : Scope} (h : storableText scope.text) :
    PostgresStore.count db s scope = .ok (s.count scope) := by
  have ht : db.texts [scope.text] = .ok () := db.texts_ok hd (by simpa using h)
  simp only [PostgresStore.count, ht, Except.mapError, ok_bind, scope_eq]
  rfl

-- What a step does to the map keeps every model apart from the others.
theorem valid_next {op : store.Op} (hv : PostgresStore.schema.Valid s) (h : Common op now s) :
    PostgresStore.schema.Valid (memory.answer op now s).2 := by
  cases op
  case get   => exact hv
  case list  => exact hv
  case count => exact hv
  case create m =>
    simp only [memory, MemoryStore.create]
    split
    case isTrue => exact hv
    case isFalse hc =>
      have ⟨hm, _, hf⟩ := h
      have hl : s.lookup m.id = none := by simpa [hc] using hf
      exact hv.put (PostgresStore.schema_check hm)
        (mt (taken_iff_clashes (m := MemoryStore.stamp m now) hv.key hl).mp hc)
  case update id mutate =>
    simp only [memory, MemoryStore.update]
    split
    case h_1 => exact hv
    case h_2 m hl =>
      split
      case h_1 => exact hv
      case h_2 m' hf =>
        have ⟨hr, ho⟩ := h.right m hl m' (by simp [hf, Except.toOption])
        have hi : m'.id = id := ho.left.trans (hv.key id m hl)
        have hn := @not_taken s m { m' with updatedAt := now } id hv hl ho
        exact hi ▸ hv.put (PostgresStore.schema_check hr) hn
  case delete id =>
    simp only [memory, MemoryStore.delete]
    split
    case isTrue  => exact hv.erase id
    case isFalse => exact hv

theorem answer_eq {op : store.Op} (hd : db.Documented) (hb : db.Bytewise)
    (hv : PostgresStore.schema.Valid s) (h : Common op now s) :
    (postgres db).answer op now s = memory.answer op now s := by
  cases op
  case create m         => exact congrArg (commit s) (create_eq hd hv h)
  case get id           => exact Prod.ext (get_eq hd h) rfl
  case list scope ns    => exact Prod.ext (list_eq hd hb h) rfl
  case update id mutate => exact congrArg (commit s) (update_eq hd hv h)
  case delete id        => exact congrArg (commit s) (delete_eq hd h)
  case count scope      => exact Prod.ext (count_eq hd h) rfl

theorem postgres_follows (hd : db.Documented) (hb : db.Bytewise) :
    Machine.Follows memory (postgres db) Sigma.mk Common
      fun s t => t = s ∧ PostgresStore.schema.Valid s where
  alike op now s t h hc := by
    cases h.left
    rw [answer_eq hd hb h.right hc]
  keeps op now s t h hc := by
    cases h.left
    rw [answer_eq hd hb h.right hc]
    exact ⟨rfl, valid_next h.right hc⟩

-- A private model with the given identifier and name.
def entry (id name : String) : Model where
  id            := str id
  name          := str name
  owner         := str "ada"
  scope         := .scopePrivate
  ns            := str "team"
  uri           := str "hf://ada/qwen"
  scheme        := .hf
  tags          := some [str "chat"]
  modelType     := str "llm"
  sizeGB        := 0
  downloads     := 0
  createdAt     := Time.zero
  updatedAt     := Time.zero
  readme        := []
  collectionID  := []
  parentModelID := []
  derivedKind   := []
  sourceURL     := []

def upkeep : List (store.Op × Time) := [
  (.create (entry "m-1" "qwen"), ⟨1, 0⟩),
  (.create (entry "m-2" "qwen"), ⟨2, 0⟩),
  (.create (entry "m-2" "llama"), ⟨2, 0⟩),
  (.update (str "m-1") fun m => .ok { m with downloads := m.downloads + 1 }, ⟨3, 0⟩),
  (.list .scopePrivate (str "team"), ⟨4, 0⟩),
  (.list .scopePublic [], ⟨4, 0⟩),
  (.delete (str "m-3"), ⟨5, 0⟩),
  (.count .scopePrivate, ⟨6, 0⟩)]

def accepted : Sigma store.Res → Bool
  | ⟨.create _, .ok _⟩ => true
  | _                  => false

end Models
