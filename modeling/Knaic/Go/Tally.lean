import Mathlib.Algebra.BigOperators.Group.List.Basic
import Knaic.Go.Sort

namespace Go

instance int64Group : AddCommGroup Int64 where
  add_assoc         := Int64.add_assoc
  zero_add          := Int64.zero_add
  add_zero          := Int64.add_zero
  add_comm          := Int64.add_comm
  neg_add_cancel    := Int64.add_left_neg
  nsmul             := nsmulRec
  zsmul             := zsmulRec
  sub_eq_add_neg    := Int64.sub_eq_add_neg

namespace Map

variable {α β σ : Type} {m : Map α} {k : Str}

-- The entries of a map, as a loop goes through them.
def entries (m : Map α) : List (Str × α) :=
  m.keyList.filterMap fun k => (m.lookup k).map (k, ·)

theorem mem_entries {e : Str × α} : e ∈ m.entries ↔ m.lookup e.1 = some e.2 := by
  simp only [entries, List.mem_filterMap, mem_keyList, Option.map_eq_some_iff]
  constructor
  case mp  => rintro ⟨k, _, a, h, rfl⟩; exact h
  case mpr => exact fun h => ⟨e.1, by simp [h], e.2, h, rfl⟩

theorem entries_keys (m : Map α) : m.entries.map Prod.fst = m.keyList := by
  have h : ∀ l : List Str, (∀ k ∈ l, (m.lookup k).isSome) →
      (l.filterMap fun k => (m.lookup k).map (k, ·)).map Prod.fst = l := by
    intro l hl
    induction l
    case nil          => rfl
    case cons k l hi  =>
      have ⟨a, ha⟩ := Option.isSome_iff_exists.mp (hl k (.head _))
      simpa [ha] using hi fun k hk => hl k (.tail _ hk)
  exact h m.keyList fun k hk => mem_keyList.mp hk

-- The rule for a loop over a map: it goes through every key once, and what holds after it has gone
-- through some keys holds after the next one.
theorem entries_induction {P : List Str → σ → Prop} {f : σ → Str × α → σ} (m : Map α) {s : σ}
    (hs : P [] s)
    (hf : ∀ ks s k a, m.lookup k = some a → k ∉ ks → P ks s → P (k :: ks) (f s (k, a))) :
    ∃ ks, (∀ k, k ∈ ks ↔ (m.lookup k).isSome) ∧ P ks (m.entries.foldl f s) := by
  have h : ∀ (l : List (Str × α)) ks s, (l.map Prod.fst).Nodup → (∀ e ∈ l, e.1 ∉ ks) →
      (∀ e ∈ l, m.lookup e.1 = some e.2) → P ks s →
      ∃ ks', (∀ k, k ∈ ks' ↔ k ∈ ks ∨ ∃ e ∈ l, e.1 = k) ∧ P ks' (l.foldl f s) := by
    intro l
    induction l
    case nil          => exact fun ks s _ _ _ h => ⟨ks, by simp, h⟩
    case cons e l hi  =>
      intro ks s hn hd hl hp
      simp only [List.map_cons, List.nodup_cons] at hn
      have he := hf ks s e.1 e.2 (hl e (.head _)) (hd e (.head _)) hp
      have hd' : ∀ e' ∈ l, e'.1 ∉ e.1 :: ks := by
        intro e' he' hm
        cases List.mem_cons.mp hm
        case inr hm => exact hd e' (.tail _ he') hm
        case inl he => exact hn.left (he ▸ List.mem_map_of_mem he')
      have ⟨ks', hks, hp'⟩ := hi (e.1 :: ks) (f s e) hn.right hd' (fun e' h => hl e' (.tail _ h)) he
      exact ⟨ks', fun k => by rw [hks]; simp [eq_comm, or_assoc, or_left_comm], hp'⟩
  have hn : (m.entries.map Prod.fst).Nodup := entries_keys m ▸ nodup_keyList m
  have ⟨ks, hks, hp⟩ := h m.entries [] s hn (by simp) (fun e => mem_entries.mp) hs
  refine ⟨ks, fun k => ?_, hp⟩
  rw [hks, ← mem_keyList, ← entries_keys, List.mem_map]
  simp

theorem lookup_insert_eq {k k' : Str} {a : α} :
    (m.insert k a).lookup k' = if k' = k then some a else m.lookup k' := by
  split
  case isTrue h =>
    subst h
    exact Finmap.lookup_insert _
  case isFalse h => exact Finmap.lookup_insert_of_ne _ h

-- Maps from names to numbers, where a key that is missing stands for zero.
section Count

variable {α : Type} [AddCommMonoid α] {m m' : Map α} {k k' : Str} {a : α}

def count (m : Map α) (k : Str) : α :=
  (m.lookup k).getD 0

-- `m[k] += a`
def add (m : Map α) (k : Str) (a : α) : Map α :=
  m.insert k (m.count k + a)

-- Adds the numbers of one map to those of another.
def addAll (m m' : Map α) : Map α :=
  m'.entries.foldl (fun m e => m.add e.1 e.2) m

@[simp]
theorem count_empty (k : Str) : (∅ : Map α).count k = 0 :=
  congrArg (Option.getD · 0) (Finmap.lookup_empty k)

theorem count_insert : count (m.insert k a) k' = if k' = k then a else m.count k' := by
  rw [count, lookup_insert_eq]
  split <;> rfl

theorem isSome_insert {β : Type} {m : Map β} {b : β} :
    ((m.insert k b).lookup k').isSome ↔ k' = k ∨ (m.lookup k').isSome := by
  rw [lookup_insert_eq]
  split
  case isTrue h  => simp [h]
  case isFalse h => simp [h]

theorem count_add : (m.add k a).count k' = m.count k' + if k' = k then a else 0 := by
  rw [add, count_insert]
  split
  case isTrue h  => rw [h]
  case isFalse h => rw [add_zero]

theorem isSome_add : ((m.add k a).lookup k').isSome ↔ k' = k ∨ (m.lookup k').isSome :=
  isSome_insert

theorem count_of_not_isSome (h : ¬(m.lookup k).isSome) : m.count k = 0 := by
  rw [count, Option.not_isSome_iff_eq_none.mp h]
  rfl

theorem addAll_spec (m m' : Map α) (k : Str) :
    (m.addAll m').count k = m.count k + m'.count k ∧
    (((m.addAll m').lookup k).isSome ↔ (m.lookup k).isSome ∨ (m'.lookup k).isSome) := by
  have ⟨ks, hks, hc, hl⟩ := m'.entries_induction (s := m) (f := fun m e => m.add e.1 e.2)
    (P := fun ks s => s.count k = m.count k + (if k ∈ ks then m'.count k else 0) ∧
      ((s.lookup k).isSome ↔ (m.lookup k).isSome ∨ k ∈ ks)) (by simp) ?_
  case refine_1 =>
    rintro ks s k' a hl hk ⟨hc, hs⟩
    rw [count_add, isSome_add, hc, hs]
    by_cases he : k = k'
    case pos =>
      subst he
      have ha : m'.count k = a := by rw [count, hl]; rfl
      simp [hk, ha]
    case neg => simp [he]
  refine ⟨?_, by rw [← hks]; exact hl⟩
  rw [addAll, hc]
  by_cases hk : k ∈ ks
  case pos => simp [hk]
  case neg => simp [hk, count_of_not_isSome ((hks k).not.mp hk)]

theorem count_addAll (m m' : Map α) (k : Str) : (m.addAll m').count k = m.count k + m'.count k :=
  (addAll_spec m m' k).left

theorem isSome_addAll :
    ((m.addAll m').lookup k).isSome ↔ (m.lookup k).isSome ∨ (m'.lookup k).isSome :=
  (addAll_spec m m' k).right

-- A loop that adds to a map for some of what it goes through.
theorem foldl_add {f : σ → β → σ} {π : σ → Map α} {g : β → Prop} [DecidablePred g] {key : β → Str}
    {val : β → α} (h : ∀ s b, π (f s b) = if g b then (π s).add (key b) (val b) else π s)
    (l : List β) (s : σ) (k : Str) :
    (π (l.foldl f s)).count k =
      (π s).count k + (l.map fun b => if g b ∧ key b = k then val b else 0).sum ∧
    (((π (l.foldl f s)).lookup k).isSome ↔
      ((π s).lookup k).isSome ∨ ∃ b ∈ l, g b ∧ key b = k) := by
  induction l generalizing s
  case nil          => simp
  case cons b l hi  =>
    have ⟨hc, hs⟩ := hi (f s b)
    simp only [List.foldl_cons, List.map_cons, List.sum_cons, List.exists_mem_cons_iff]
    rw [hc, hs, h]
    by_cases hg : g b
    case neg => simp [hg]
    case pos =>
      rw [if_pos hg, count_add, isSome_add, add_assoc]
      simp only [hg, true_and, @eq_comm _ k, or_assoc, @or_left_comm (key b = k)]

theorem sum_kept {p : β → Bool} {val : β → α} (l : List β) :
    ((l.filter p).map val).sum = (l.map fun b => if p b then val b else 0).sum := by
  induction l
  case nil          => rfl
  case cons b l hi  =>
    by_cases hp : p b
    case pos => simp [hp, hi]
    case neg => simp [hp, hi]

theorem sum_filter {p : β → Bool} {g : β → Prop} [DecidablePred g] {val : β → α} (l : List β) :
    ((l.filter p).map fun b => if g b then val b else 0).sum =
      (l.map fun b => if p b ∧ g b then val b else 0).sum := by
  rw [sum_kept]
  simp only [ite_and]

theorem entries_sum (m : Map α) (k : Str) :
    (m.entries.map fun e => if e.1 = k then e.2 else 0).sum = m.count k := by
  have hf : ∀ (s : Map α) (e : Str × α),
      id (s.add e.1 e.2) = if True then (id s).add e.1 e.2 else id s :=
    fun _ _ => (if_pos trivial).symm
  have h := (foldl_add (f := fun s e => s.add e.1 e.2) (π := id) (g := fun _ => True) hf
    m.entries ∅ k).left
  have ha : (addAll ∅ m).count k = m.count k := by rw [count_addAll, count_empty, zero_add]
  simp only [id, count_empty, zero_add, true_and] at h
  rw [← ha]
  exact h.symm

-- Maps with the same keys and the same numbers are the same.
theorem ext_count {m m' : Map α} (hs : ∀ k, (m.lookup k).isSome ↔ (m'.lookup k).isSome)
    (hc : ∀ k, m.count k = m'.count k) : m = m' := by
  refine Finmap.ext_lookup fun k => ?_
  have hk := hs k
  have ha := hc k
  simp only [count] at ha
  cases h : m.lookup k <;> cases h' : m'.lookup k
  case none.none => rfl
  case some.some => rw [h, h'] at ha; exact congrArg some ha
  case none.some => rw [h, h'] at hk; exact absurd (hk.mpr rfl) (by simp)
  case some.none => rw [h, h'] at hk; exact absurd (hk.mp rfl) (by simp)

theorem add_swap (m : Map α) (k k' : Str) (a b : α) : (m.add k a).add k' b = (m.add k' b).add k a := by
  refine ext_count (fun n => ?_) fun n => ?_
  case refine_1 =>
    rw [isSome_add, isSome_add, isSome_add, isSome_add]
    exact or_left_comm
  case refine_2 =>
    rw [count_add, count_add, count_add, count_add]
    ac_rfl

-- Numbers leave no trace of the order that they are added in.
theorem foldl_add_perm {es es' : List (Str × α)} (h : es.Perm es') (m : Map α) :
    es.foldl (fun m e => m.add e.1 e.2) m = es'.foldl (fun m e => m.add e.1 e.2) m :=
  h.foldl_eq' (fun e _ e' _ m => add_swap m e.1 e'.1 e.2 e'.2) m

end Count

end Map
end Go
