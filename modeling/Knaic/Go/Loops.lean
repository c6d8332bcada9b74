import Mathlib.Data.List.Induction
import Knaic.Go.Sort

namespace Go

variable {α κ ν : Type} [LinearOrder κ] [LinearOrder ν] {l : List α} {a b p q : α}

-- What has the least rank in a list.
structure Least (rank : α → κ) (l : List α) (a : α) : Prop where
  mem   : a ∈ l
  least : ∀ b ∈ l, rank a ≤ rank b

theorem Least.rank_eq {k : α → κ} (ha : Least k l a) (hb : Least k l b) : k a = k b :=
  le_antisymm (ha.least b hb.mem) (hb.least a ha.mem)

-- `sort.Slice` puts it in front where the ranks tell everything apart.
theorem head_sort_iff {less : α → α → Bool} {rank : α → κ} (hr : ∀ a b, less a b ↔ rank a < rank b)
    (hi : ∀ a ∈ l, ∀ b ∈ l, rank a = rank b → a = b) :
    (l.insertionSort fun a b => !less b a).head? = some a ↔ Least rank l a := by
  have := total_of_rank hr
  have := trans_of_rank hr
  have hs := List.pairwise_insertionSort (fun a b => (!less b a) = true) l
  have hm : ∀ b, b ∈ l.insertionSort (fun a b => (!less b a) = true) ↔ b ∈ l :=
    fun b => (List.perm_insertionSort _ l).mem_iff
  have hf : ∀ c, (l.insertionSort fun a b => (!less b a) = true).head? = some c → Least rank l c := by
    intro c hc
    obtain ⟨t, ht⟩ := List.head?_eq_some_iff.mp hc
    rw [ht] at hs hm
    refine ⟨(hm c).mp (.head _), fun b hb => ?_⟩
    cases List.mem_cons.mp ((hm b).mpr hb)
    case inl he => rw [he]
    case inr hb => exact (not_less_iff hr c b).mp ((List.pairwise_cons.mp hs).left b hb)
  constructor
  case mp  => exact hf a
  case mpr =>
    intro ha
    cases hc : (l.insertionSort fun a b => (!less b a) = true).head?
    case none   =>
      have he := (hm a).mpr ha.mem
      rw [List.head?_eq_none_iff.mp hc] at he
      cases he
    case some c =>
      have hl := hf c hc
      rw [hi c hl.mem a ha.mem (hl.rank_eq ha)]

section Refined

variable {k : α → κ} {r : α → Bool} {n : α → ν}

-- What has a flag goes before what has not.
def flagged (r : α → Bool) (n : α → ν) (a : α) : Boolᵒᵈ ×ₗ ν :=
  toLex (OrderDual.toDual (r a), n a)

def refined (k : α → κ) (n : α → ν) (a : α) : κ ×ₗ ν :=
  toLex (k a, n a)

theorem flagged_le_iff :
    flagged r n a ≤ flagged r n b ↔ (r b = true → r a = true) ∧ (r a = r b → n a ≤ n b) := by
  simp only [flagged, Prod.Lex.toLex_le_toLex, OrderDual.toDual_lt_toDual, OrderDual.toDual_inj]
  cases r a <;> cases r b <;> simp

theorem Least.refined_iff : Least (refined k n) l a ↔ Least k l a ∧ ∀ b, Least k l b → n a ≤ n b := by
  constructor
  case mp =>
    intro h
    have hle : ∀ b ∈ l, k a < k b ∨ k a = k b ∧ n a ≤ n b :=
      fun b hb => Prod.Lex.toLex_le_toLex.mp (h.least b hb)
    have hk : Least k l a := ⟨h.mem, fun b hb => (hle b hb).elim le_of_lt fun h => h.left.le⟩
    refine ⟨hk, fun b hb => ?_⟩
    cases hle b hb.mem
    case inl hlt => exact absurd (hk.rank_eq hb) hlt.ne
    case inr h   => exact h.right
  case mpr =>
    rintro ⟨hk, hn⟩
    refine ⟨hk.mem, fun b hb => Prod.Lex.toLex_le_toLex.mpr ?_⟩
    cases (hk.least b hb).lt_or_eq
    case inl hlt => exact .inl hlt
    case inr he  =>
      have hb' : Least k l b := ⟨hb, fun c hc => he ▸ hk.least c hc⟩
      exact .inr ⟨he, hn b hb'⟩

-- A flag that is looked at between two ranks makes no difference to what is least if and only if nothing that is least
-- by the first rank has it, or something has it that comes before all that have it not.
theorem least_flagged_iff (hi : ∀ a ∈ l, ∀ b ∈ l, n a = n b → a = b) (ha : Least (refined k (flagged r n)) l a)
    (hb : Least (refined k n) l b) :
    a = b ↔ ((∃ p, Least k l p ∧ r p = true) →
      ∃ p, Least k l p ∧ r p = true ∧ ∀ q, Least k l q → r q = false → n p < n q) := by
  obtain ⟨hka, hna⟩ := Least.refined_iff.mp ha
  obtain ⟨hkb, hnb⟩ := Least.refined_iff.mp hb
  simp only [flagged_le_iff] at hna
  constructor
  case mp =>
    rintro rfl ⟨p, hp, hr⟩
    have hra := (hna p hp).left hr
    refine ⟨a, hka, hra, fun q hq hrq => lt_of_le_of_ne (hnb q hq) fun he => ?_⟩
    rw [hi a ha.mem q hq.mem he, hrq] at hra
    cases hra
  case mpr =>
    intro h
    -- They have the flag both or not at all, and nothing but the second rank is left to decide.
    have hr : r a = r b := by
      cases hra : r a
      case false =>
        cases hrb : r b
        case false => rfl
        case true  => exact hra.symm.trans ((hna b hkb).left hrb)
      case true =>
        obtain ⟨p, hp, hrp, hlt⟩ := h ⟨a, hka, hra⟩
        cases hrb : r b
        case false => exact absurd (hnb p hp) (not_le_of_gt (hlt b hkb hrb))
        case true  => rfl
    exact hi a ha.mem b hb.mem (le_antisymm ((hna b hkb).right hr) (hnb a hka))

end Refined
end Go

namespace Go

-- A loop over a list that overwrites its result wherever an element has a verdict.
def scan {α β : Type} (verdict : α → Option β) (b : β) (l : List α) : β :=
  l.foldl (fun b a => (verdict a).getD b) b

namespace Scan

variable {α β : Type} {verdict : α → Option β} {b u v : β} {l l' : List α} {a : α}

theorem append (verdict : α → Option β) (b : β) (l l' : List α) :
    scan verdict b (l ++ l') = scan verdict (scan verdict b l) l' :=
  List.foldl_append

-- The last word counts.
theorem concat (h : verdict a = some u) : scan verdict b (l ++ [a]) = u := by
  rw [append]
  simp [scan, h]

-- What comes out was there before, or some element has it for its verdict.
theorem cases (verdict : α → Option β) (b : β) (l : List α) :
    scan verdict b l = b ∧ (∀ a ∈ l, verdict a = none) ∨ ∃ a ∈ l, verdict a = some (scan verdict b l) := by
  induction l using List.reverseRecOn
  case nil                     => simp [scan]
  case append_singleton l a hi =>
    cases ha : verdict a
    case some u => exact .inr ⟨a, by simp, by rw [concat ha, ha]⟩
    case none   =>
      have hs : scan verdict b (l ++ [a]) = scan verdict b l := by
        rw [append]
        simp [scan, ha]
      rw [hs]
      cases hi
      case inl hi =>
        refine .inl ⟨hi.left, fun a' hm => ?_⟩
        cases List.mem_append.mp hm
        case inl hm => exact hi.right a' hm
        case inr hm => rw [List.mem_singleton.mp hm, ha]
      case inr hi =>
        obtain ⟨a', hm, hu⟩ := hi
        exact .inr ⟨a', List.mem_append_left _ hm, hu⟩

-- All verdicts are the same.
def Unanimous (verdict : α → Option β) (l : List α) : Prop :=
  ∀ a ∈ l, ∀ a' ∈ l, ∀ u v, verdict a = some u → verdict a' = some v → u = v

theorem Unanimous.eq (h : Unanimous verdict l) (hm : a ∈ l) (ha : verdict a = some u) : scan verdict b l = u := by
  cases cases verdict b l
  case inl hn =>
    rw [hn.right a hm] at ha
    cases ha
  case inr hs =>
    obtain ⟨a', hm', ha'⟩ := hs
    exact h a' hm' a hm _ u ha' ha

theorem Unanimous.perm (h : Unanimous verdict l) (hp : l'.Perm l) : Unanimous verdict l' :=
  fun a hm a' hm' => h a (hp.mem_iff.mp hm) a' (hp.mem_iff.mp hm')

-- Any element may have the last word.
theorem exists_perm (hm : a ∈ l) (ha : verdict a = some u) : ∃ l', l'.Perm l ∧ scan verdict b l' = u := by
  obtain ⟨s, t, rfl⟩ := List.append_of_mem hm
  have hp : (s ++ t ++ [a]).Perm (s ++ a :: t) := by
    rw [List.append_assoc]
    exact List.Perm.append_left s List.perm_append_comm
  exact ⟨s ++ t ++ [a], hp, concat ha⟩

-- The order is irrelevant if and only if there is nothing to decide by it.
theorem perm_iff : (∀ l', l'.Perm l → scan verdict b l' = scan verdict b l) ↔ Unanimous verdict l := by
  constructor
  case mp =>
    intro h a hm a' hm' u v ha ha'
    obtain ⟨l₁, hp₁, hs₁⟩ := exists_perm (b := b) hm ha
    obtain ⟨l₂, hp₂, hs₂⟩ := exists_perm (b := b) hm' ha'
    calc
      u = scan verdict b l₁ := hs₁.symm
      _ = scan verdict b l  := h l₁ hp₁
      _ = scan verdict b l₂ := (h l₂ hp₂).symm
      _ = v              := hs₂
  case mpr =>
    intro h l' hp
    cases cases verdict b l'
    case inr hs =>
      obtain ⟨a, hm, ha⟩ := hs
      exact (h.eq (hp.mem_iff.mp hm) ha).symm
    case inl hn =>
      cases cases verdict b l
      case inl hn' => rw [hn.left, hn'.left]
      case inr hs  =>
        obtain ⟨a, hm, ha⟩ := hs
        rw [hn.right a (hp.mem_iff.mpr hm)] at ha
        cases ha

end Scan
end Go
