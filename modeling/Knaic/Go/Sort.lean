import Mathlib.Data.List.Basic
import Mathlib.Data.List.Lex
import Mathlib.Data.List.Sort
import Mathlib.Data.Prod.Lex
import Knaic.Go.Map
import Knaic.Go.Time

namespace Go

-- Strings are compared byte by byte.
instance byteOrder : LinearOrder UInt8 where
  le_refl _            := UInt8.le_refl _
  le_trans _ _ _       := UInt8.le_trans
  le_antisymm _ _      := UInt8.le_antisymm
  le_total             := UInt8.le_total
  lt_iff_le_not_ge _ _ := by simp only [UInt8.le_iff_toNat_le, UInt8.lt_iff_toNat_lt]; omega
  toDecidableLE        := inferInstance

theorem insertionSort_eq {l l' : List Str} (h : l.Perm l') :
    l.insertionSort (· ≤ ·) = l'.insertionSort (· ≤ ·) :=
  List.Perm.eq_of_pairwise (fun _ _ _ _ => le_antisymm) (List.pairwise_insertionSort ..)
    (List.pairwise_insertionSort ..)
    ((List.perm_insertionSort ..).trans (h.trans (List.perm_insertionSort ..).symm))

-- A comparison that goes by a rank.
section Ranked

variable {α β : Type} [LinearOrder β] {less : α → α → Bool} {rank : α → β}

theorem not_less_iff (hr : ∀ a b, less a b ↔ rank a < rank b) (a b : α) : (!less b a) = true ↔ rank a ≤ rank b := by
  rw [Bool.not_eq_true', ← Bool.not_eq_true, hr, not_lt]

theorem total_of_rank (hr : ∀ a b, less a b ↔ rank a < rank b) : Std.Total fun a b => (!less b a) = true :=
  ⟨fun a b => by simpa only [not_less_iff hr] using le_total ..⟩

theorem trans_of_rank (hr : ∀ a b, less a b ↔ rank a < rank b) : IsTrans α fun a b => (!less b a) = true :=
  ⟨fun a b c => by simpa only [not_less_iff hr] using le_trans⟩

end Ranked

-- What is flagged comes first, and then it goes by a text.
theorem flagged_iff {α : Type} (flag : α → Bool) (text : α → Str) (a b : α) :
    (if flag a ≠ flag b then flag a else decide (text a < text b)) = true ↔
      toLex (!flag a, text a) < toLex (!flag b, text b) := by
  rw [Prod.Lex.toLex_lt_toLex]
  cases flag a <;> cases flag b <;> simp

namespace Map

variable {α β : Type} {m : Map α}

-- The keys of a map. A loop sees them in any order, and here they come from the least to the
-- greatest.
def keyList (m : Map α) : List Str :=
  Quot.liftOn m.keys.val (List.insertionSort (· ≤ ·)) fun _ _ => insertionSort_eq

def values (m : Map α) : List α :=
  m.keyList.filterMap m.lookup

-- A loop that collects some of the values, and `sort.Slice` after it.
def sorted (m : Map α) (keep : α → Bool) (less : α → α → Bool) : List α :=
  (m.values.filter keep).insertionSort fun a b => !less b a

theorem mem_keyList {k : Str} : k ∈ m.keyList ↔ (m.lookup k).isSome := by
  have hp : ∀ s : Multiset Str, k ∈ Quot.liftOn s (List.insertionSort (· ≤ ·))
      (fun _ _ => insertionSort_eq) ↔ k ∈ s := by
    intro s
    induction s using Quot.ind
    exact List.mem_insertionSort _
  exact (hp m.keys.val).trans (Finmap.mem_keys.trans Finmap.lookup_isSome.symm)

theorem nodup_keyList (m : Map α) : m.keyList.Nodup := by
  have hp : ∀ s : Multiset Str, s.Nodup →
      (Quot.liftOn s (List.insertionSort (· ≤ ·)) fun _ _ => insertionSort_eq).Nodup := by
    intro s
    induction s using Quot.ind
    exact fun h => (List.perm_insertionSort ..).nodup_iff.mpr h
  exact hp m.keys.val m.keys.nodup

theorem sorted_keyList (m : Map α) : m.keyList.Pairwise (· ≤ ·) := by
  have hp : ∀ s : Multiset Str,
      (Quot.liftOn s (List.insertionSort (· ≤ ·)) fun _ _ => insertionSort_eq).Pairwise (· ≤ ·) := by
    intro s
    induction s using Quot.ind
    exact List.pairwise_insertionSort ..
  exact hp m.keys.val

theorem keyList_congr {m : Map α} {m' : Map β}
    (h : ∀ k, (m.lookup k).isSome ↔ (m'.lookup k).isSome) : m.keyList = m'.keyList := by
  have hk : m.keys = m'.keys := by
    ext k
    rw [Finmap.mem_keys, Finmap.mem_keys, ← Finmap.lookup_isSome, ← Finmap.lookup_isSome, h]
  rw [keyList, keyList, hk]

-- What is derived value by value.
theorem values_map {m' : Map β} {f : α → β} (h : ∀ k, m'.lookup k = (m.lookup k).map f) :
    m'.values = m.values.map f := by
  have hk : m'.keyList = m.keyList := keyList_congr fun k => by rw [h, Option.isSome_map]
  rw [values, values, hk, List.map_filterMap, funext h]

theorem mem_values {a : α} : a ∈ m.values ↔ ∃ k, m.lookup k = some a := by
  simp only [values, List.mem_filterMap, mem_keyList]
  constructor
  case mp  => exact fun ⟨k, _, h⟩ => ⟨k, h⟩
  case mpr => exact fun ⟨k, h⟩ => ⟨k, by simp [h], h⟩

theorem mem_sorted {keep : α → Bool} {less : α → α → Bool} {a : α} :
    a ∈ m.sorted keep less ↔ (∃ k, m.lookup k = some a) ∧ keep a := by
  simp [sorted, mem_values]

-- What is not kept leaves no trace in what is.
theorem values_filter_congr {m m' : Map α} {keep : α → Bool}
    (h : ∀ k, (m.lookup k).filter keep = (m'.lookup k).filter keep) :
    m.values.filter keep = m'.values.filter keep := by
  have keys (n : Map α) : n.values.filter keep =
      (n.keyList.filter fun k => ((n.lookup k).filter keep).isSome).filterMap
        fun k => (n.lookup k).filter keep := by
    rw [values, List.filter_filterMap, List.filterMap_filter]
    congr 1
    funext k
    cases (n.lookup k).filter keep <;> rfl
  rw [keys m, keys m', funext h]
  congr 1
  refine List.Perm.eq_of_pairwise (fun _ _ _ _ => le_antisymm) ((sorted_keyList m).filter _)
    ((sorted_keyList m').filter _) ((List.perm_ext_iff_of_nodup ((nodup_keyList m).filter _)
      ((nodup_keyList m').filter _)).mpr fun k => ?_)
  have kept (n : Map α) : (n.lookup k).isSome ∧ ((n.lookup k).filter keep).isSome ↔
      ((n.lookup k).filter keep).isSome :=
    and_iff_right_of_imp (Option.isSome_of_isSome_filter _ _)
  rw [List.mem_filter, List.mem_filter, mem_keyList, mem_keyList, kept, kept, h]

theorem sorted_congr {m m' : Map α} {keep : α → Bool} {less : α → α → Bool}
    (h : ∀ k, (m.lookup k).filter keep = (m'.lookup k).filter keep) :
    m.sorted keep less = m'.sorted keep less := by
  rw [sorted, sorted, values_filter_congr h]

-- The order in which the loop saw the keys leaves no trace when the values are compared by a rank
-- that tells them apart.
theorem sorted_unique [LinearOrder β] {keep : α → Bool} {less : α → α → Bool}
    {l : List α} (rank : α → β) (hr : ∀ a b, less a b ↔ rank a < rank b)
    (ha : ∀ k k' a b, m.lookup k = some a → m.lookup k' = some b → rank a = rank b → a = b)
    (hp : l.Perm (m.values.filter keep)) (hs : l.Pairwise fun a b => !less b a) :
    l = m.sorted keep less := by
  have hle := not_less_iff hr
  have := total_of_rank hr
  have := trans_of_rank hr
  refine List.Perm.eq_of_pairwise ?_ hs (List.pairwise_insertionSort ..)
    (hp.trans (List.perm_insertionSort ..).symm)
  intro a b hma hmb hab hba
  have ⟨k, hk⟩        := mem_values.mp (List.mem_of_mem_filter (hp.mem_iff.mp hma))
  have ⟨⟨k', hk'⟩, _⟩ := mem_sorted.mp hmb
  exact ha k k' a b hk hk' (le_antisymm ((hle a b).mp hab) ((hle b a).mp hba))

end Map

-- Instants in the order in which they come.
def Time.rank (t : Time) : Int ×ₗ Nat :=
  toLex (t.sec.toInt, t.nsec)

theorem Time.rank_inj {t u : Time} (h : t.rank = u.rank) : t = u := by
  have ⟨hs, hn⟩ := Prod.mk.inj (toLex.injective h)
  cases t
  cases u
  simp_all [Int64.toInt_inj, Fin.val_inj]

theorem Time.before_iff {t u : Time} : t.before u ↔ t.rank < u.rank := by
  simp [before, rank, Prod.Lex.toLex_lt_toLex, Int64.lt_iff_toInt_lt, Int64.toInt_inj]

-- The newest first, and what is as old by something else.
def Time.newest {β : Type} (t : Time) (x : β) : (Int ×ₗ Nat)ᵒᵈ ×ₗ β :=
  toLex (OrderDual.toDual t.rank, x)

theorem Time.newest_iff {β : Type} [LinearOrder β] {t u : Time} {x y : β} [Decidable (x < y)] :
    (if t ≠ u then u.before t else decide (x < y)) = true ↔ t.newest x < u.newest y := by
  simp only [newest, Prod.Lex.toLex_lt_toLex, OrderDual.toDual_lt_toDual, OrderDual.toDual_inj]
  split
  case isTrue h  => simp [before_iff, mt rank_inj h]
  case isFalse h => simp [not_not.mp h]

-- One text before the other.
theorem lex_iff {x y x' y' : Str} :
    (if x ≠ x' then decide (x < x') else decide (y < y')) =
      decide (toLex (x, y) < toLex (x', y')) := by
  apply Bool.eq_iff_iff.mpr
  simp only [decide_eq_true_eq, Prod.Lex.toLex_lt_toLex]
  split
  case isTrue h  => simp [h]
  case isFalse h => simp [not_not.mp h]

end Go

-- What a stable sort makes of one list and of another one with the same elements.
namespace Go.StableSort

variable {α : Type} {le : α → α → Bool} {l l' : List α} {a b : α}

-- A comparison that is total and transitive, in which different elements may tie.
structure Preorder (le : α → α → Bool) : Prop where
  trans : ∀ a b c, le a b → le b c → le a c
  total : ∀ a b, le a b || le b a

-- Where no two elements tie, the order that they come in leaves no trace.
theorem eq_of_perm (hp : Preorder le) (h : l.Perm l') (ht : ∀ a ∈ l, ∀ b ∈ l, le a b → le b a → a = b) :
    l.mergeSort le = l'.mergeSort le := by
  have hs : (l.mergeSort le).Perm (l'.mergeSort le) :=
    (List.mergeSort_perm l le).trans (h.trans (List.mergeSort_perm l' le).symm)
  refine hs.eq_of_pairwise ?_ (List.pairwise_mergeSort hp.trans hp.total l) (List.pairwise_mergeSort hp.trans hp.total l')
  intro a b ha hb hab hba
  exact ht a (List.mem_mergeSort.mp ha) b (List.mem_mergeSort.mp (hs.mem_iff.mpr hb)) hab hba

theorem not_both_orders (hd : l.Nodup) (h : [a, b].Sublist l) (h' : [b, a].Sublist l) : False := by
  induction l
  case nil         => cases h
  case cons x l hi =>
    obtain ⟨hx, hd⟩ := List.nodup_cons.mp hd
    cases h
    case cons h      =>
      cases h'
      case cons h'      => exact hi hd h h'
      case cons_cons h' => exact hx (h.subset (by simp))
    case cons_cons h =>
      cases h'
      case cons h'      => exact hx (h'.subset (by simp))
      case cons_cons h' => exact hx (h'.subset (by simp))

-- Where two elements tie, they stay in the order that they come in.
theorem ne_of_tie (hp : Preorder le) (hd : l.Nodup) (h : [a, b].Sublist l) (h' : [b, a].Sublist l') (hab : le a b)
    (hba : le b a) : l.mergeSort le ≠ l'.mergeSort le := by
  intro he
  have hs := List.pair_sublist_mergeSort hp.trans hp.total hab h
  have hs' := List.pair_sublist_mergeSort hp.trans hp.total hba h'
  rw [← he] at hs'
  exact not_both_orders ((List.mergeSort_perm l le).nodup_iff.mpr hd) hs hs'

end Go.StableSort
