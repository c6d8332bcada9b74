import Knaic.Go.Sort

open Go

namespace Sql

-- A statement that fails is told by its SQLSTATE.
abbrev Code :=
  Str

def notNullViolation : Code :=
  str "23502"

def uniqueViolation : Code :=
  str "23505"

def checkViolation : Code :=
  str "23514"

@[simp]
theorem ok_bind {ε α β : Type} (a : α) (f : α → Except ε β) : (Except.ok a >>= f) = f a :=
  rfl

-- What the declaration of a table says of its rows: their primary key, what they may not hold, and
-- the columns of its unique indexes.
structure Schema (Row U : Type) where
  key     : Row → Str
  check   : Row → Option Code
  uniques : List (Row → U)

-- The rows of a table by their primary keys.
abbrev Table (Row : Type) :=
  Go.Map Row

namespace Schema

variable {Row U : Type} {S : Schema Row U} {t t' : Table Row} {r : Row} {k : Str}

-- `DELETE … WHERE` the primary key is `k`, with the number of rows that are affected.
def delete (t : Table Row) (k : Str) : Nat × Table Row :=
  if (t.lookup k).isSome then (1, t.erase k) else (0, t)

-- Every row is under its primary key, passes the checks, and has the entries in the unique indexes
-- for itself.
structure Valid (S : Schema Row U) (t : Table Row) : Prop where
  key     : ∀ k r, t.lookup k = some r → S.key r = k
  check   : ∀ k r, t.lookup k = some r → S.check r = none
  uniques : ∀ u ∈ S.uniques, ∀ k k' r r', t.lookup k = some r → t.lookup k' = some r' →
            u r = u r' → k = k'

theorem Valid.empty : S.Valid ∅ := by
  constructor
  all_goals intros; simp_all

theorem Valid.erase (h : S.Valid t) (k : Str) : S.Valid (t.erase k) where
  key _ _ hl             := h.key _ _ (Map.lookup_erase_some hl)
  check _ _ hl           := h.check _ _ (Map.lookup_erase_some hl)
  uniques u hu _ _ _ _ hl hl' :=
    h.uniques u hu _ _ _ _ (Map.lookup_erase_some hl) (Map.lookup_erase_some hl')

section Writes

variable [DecidableEq U]

-- Whether a unique index already has an entry like that of the row.
def taken (S : Schema Row U) (t : Table Row) (r : Row) : Bool :=
  t.exists? fun other => S.key other != S.key r && S.uniques.any fun u => u other == u r

def insert (S : Schema Row U) (t : Table Row) (r : Row) : Except Code (Table Row) :=
  match S.check r with
  | some c => .error c
  | none   =>
    if (t.lookup (S.key r)).isSome || S.taken t r then
      .error uniqueViolation
    else
      .ok (t.insert (S.key r) r)

-- `UPDATE … SET … WHERE` the primary key is `k`.
def update (S : Schema Row U) (t : Table Row) (k : Str) (set : Row → Row) :
    Except Code (Table Row) :=
  match t.lookup k with
  | none   => .ok t
  | some r =>
    match S.check (set r) with
    | some c => .error c
    | none   => if S.taken t (set r) then .error uniqueViolation else .ok (t.insert k (set r))

theorem taken_iff : S.taken t r ↔
    ∃ k other, t.lookup k = some other ∧ S.key other ≠ S.key r ∧
      ∃ u ∈ S.uniques, u other = u r := by
  simp [taken, Map.exists_iff]

theorem insert_ok (h : S.insert t r = .ok t') :
    S.check r = none ∧ t.lookup (S.key r) = none ∧ ¬S.taken t r ∧ t' = t.insert (S.key r) r := by
  unfold insert at h
  split at h
  case h_1 => cases h
  case h_2 hc =>
    split at h
    case isTrue => cases h
    case isFalse hn =>
      cases h
      simp only [Bool.or_eq_true, not_or] at hn
      exact ⟨hc, by simpa using hn.left, hn.right, rfl⟩

theorem update_ok {set : Row → Row} (h : S.update t k set = .ok t') :
    (t.lookup k = none ∧ t' = t) ∨
    ∃ r, t.lookup k = some r ∧ S.check (set r) = none ∧ ¬S.taken t (set r) ∧
      t' = t.insert k (set r) := by
  unfold update at h
  split at h
  case h_1 hl => cases h; exact .inl ⟨hl, rfl⟩
  case h_2 r hl =>
    split at h
    case h_1 => cases h
    case h_2 hc =>
      split at h
      case isTrue     => cases h
      case isFalse hn => cases h; exact .inr ⟨r, hl, hc, hn, rfl⟩

-- A table stays valid when a row comes in that passes the checks and takes no entry of another.
theorem Valid.put (h : S.Valid t) (hc : S.check r = none) (hn : ¬S.taken t r) :
    S.Valid (t.insert (S.key r) r) where
  key k a ha := by
    cases Map.lookup_insert_some ha
    case inl he => exact he.right ▸ he.left.symm
    case inr hl => exact h.key k a hl
  check k a ha := by
    cases Map.lookup_insert_some ha
    case inl he => exact he.right ▸ hc
    case inr hl => exact h.check k a hl
  uniques u hu k k' a a' ha ha' he := by
    have hf : ∀ k b, t.lookup k = some b → u b = u r → k = S.key r := by
      intro k b hb hub
      have hk := h.key k b hb
      by_contra hne
      exact hn (taken_iff.mpr ⟨k, b, hb, by rwa [hk], u, hu, hub⟩)
    cases Map.lookup_insert_some ha <;> cases Map.lookup_insert_some ha'
    case inl.inl h₁ h₂ => rw [h₁.left, h₂.left]
    case inl.inr h₁ h₂ => exact h₁.left.trans (hf k' a' h₂ (he.symm.trans (congrArg u h₁.right))).symm
    case inr.inl h₁ h₂ => exact (hf k a h₁ (he.trans (congrArg u h₂.right))).trans h₂.left.symm
    case inr.inr h₁ h₂ => exact h.uniques u hu k k' a a' h₁ h₂ he

theorem Valid.insert (h : S.Valid t) (hi : S.insert t r = .ok t') : S.Valid t' := by
  have ⟨hc, _, hn, ht⟩ := insert_ok hi
  exact ht ▸ h.put hc hn

-- No column of the primary key is set.
theorem Valid.update {set : Row → Row} (h : S.Valid t) (hs : ∀ r, S.key (set r) = S.key r)
    (hu : S.update t k set = .ok t') : S.Valid t' := by
  cases update_ok hu
  case inl he => exact he.right ▸ h
  case inr he =>
    have ⟨r, hl, hc, hn, ht⟩ := he
    have hk : S.key (set r) = k := (hs r).trans (h.key k r hl)
    exact ht ▸ hk ▸ h.put hc hn

end Writes
end Schema

variable {Row : Type}

def foreignKeyViolation : Code :=
  str "23503"

-- The order in which a query comes upon the rows of a table. It is no part of the table.
structure Scan (Row : Type) where
  order : Table Row → List Row
  perm  : ∀ t, (order t).Perm (Map.values t)

-- `SELECT … WHERE … ORDER BY …`
def Scan.select (sc : Scan Row) (t : Table Row) (keep : Row → Bool) (less : Row → Row → Bool) :
    List Row :=
  ((sc.order t).filter keep).insertionSort fun a b => !less b a

-- The order that the keys of the table have.
def Scan.byKey : Scan Row where
  order t := Map.values t
  perm _  := .refl _

-- The rows that go together with a row of another table.
def cascade (t : Table Row) (gone : Row → Bool) : Table Row :=
  (Map.keyList t).foldl (fun u k => if (t.lookup k).any gone then u.erase k else u) t

-- Rows that are under their keys are not found twice.
theorem nodup_values {t : Table Row} {key : Row → Str} (h : ∀ k r, t.lookup k = some r → key r = k) :
    (Map.values t).Nodup := by
  refine (Map.nodup_keyList t).filterMap fun k k' r hr hr' => ?_
  exact (h k r hr).symm.trans (h k' r hr')

section Select

variable {β : Type} [LinearOrder β] {sc : Scan Row} {t : Table Row} {keep : Row → Bool}
  {less : Row → Row → Bool}

theorem Scan.select_perm : (sc.select t keep less).Perm ((Map.values t).filter keep) :=
  (List.perm_insertionSort ..).trans ((sc.perm t).filter _)

theorem Scan.select_sorted {rank : Row → β} (hr : ∀ a b, less a b ↔ rank a < rank b) :
    (sc.select t keep less).Pairwise fun a b => !less b a := by
  have := total_of_rank hr
  have := trans_of_rank hr
  exact List.pairwise_insertionSort ..

-- Rows of different ranks have only one order.
theorem Scan.select_unique (rank : Row → β) (hr : ∀ a b, less a b ↔ rank a < rank b) {l : List Row}
    (hp : l.Perm ((Map.values t).filter keep)) (hs : l.Pairwise fun a b => rank a < rank b) :
    sc.select t keep less = l := by
  have ha : ∀ a ∈ l, ∀ b ∈ l, rank a = rank b → a = b := by
    intro a hma b hmb he
    by_contra hne
    have hd : l.Pairwise fun a b => rank a ≠ rank b := hs.imp ne_of_lt
    have : Std.Symm fun a b : Row => rank a ≠ rank b := ⟨fun _ _ h => h.symm⟩
    exact hd.forall hma hmb hne he
  refine List.Perm.eq_of_pairwise ?_ (select_sorted hr) ?_ (select_perm.trans hp.symm)
  case refine_1 =>
    intro a b hma hmb hab hba
    have hma' : a ∈ l := (select_perm.trans hp.symm).mem_iff.mp hma
    rw [not_less_iff hr] at hab hba
    exact ha a hma' b hmb (le_antisymm hab hba)
  case refine_2 =>
    exact hs.imp fun h => (not_less_iff hr _ _).mpr (le_of_lt h)

end Select

theorem lookup_foldl_erase (t : Table Row) (gone : Row → Bool) (k : Str) (ks : List Str)
    (u : Table Row) :
    (ks.foldl (fun u k => if (t.lookup k).any gone then u.erase k else u) u).lookup k =
      if k ∈ ks ∧ (t.lookup k).any gone then none else u.lookup k := by
  induction ks generalizing u
  case nil           => simp
  case cons k' ks hi =>
    rw [List.foldl_cons, hi]
    by_cases he : k = k'
    case pos =>
      subst he
      cases hg : (t.lookup k).any gone
      case false => simp
      case true  => simp [Finmap.lookup_erase]
    case neg =>
      have hl : (if (t.lookup k').any gone then u.erase k' else u).lookup k = u.lookup k := by
        split
        case isTrue  => exact Finmap.lookup_erase_ne he
        case isFalse => rfl
      rw [hl]
      simp [he]

theorem lookup_cascade (t : Table Row) (gone : Row → Bool) (k : Str) :
    (cascade t gone).lookup k = (t.lookup k).filter fun r => !gone r := by
  simp only [cascade, lookup_foldl_erase, Map.mem_keyList]
  cases t.lookup k
  case none   => simp
  case some r => cases hg : gone r <;> simp [hg, Option.filter]

end Sql
