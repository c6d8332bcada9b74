import Mathlib.Data.List.Infix

namespace Js

variable {α : Type} [BEq α]

-- The text around the first occurrence of `sep`, as `indexOf` and two calls of `slice` give it.
def cut (sep : List α) : List α → Option (List α × List α)
  | []     => none
  | c :: s =>
    if sep.isPrefixOf (c :: s) then
      some ([], (c :: s).drop sep.length)
    else
      (cut sep s).map fun r => (c :: r.1, r.2)

theorem cut_length {sep s : List α} {r : List α × List α} (h : cut sep s = some r) (hs : sep ≠ []) :
    r.2.length < s.length := by
  induction s generalizing r
  case nil => cases h
  case cons c s hi =>
    rw [cut] at h
    split at h
    case isTrue =>
      have hl := List.length_pos_of_ne_nil hs
      cases h
      simp
      omega
    case isFalse =>
      obtain ⟨q, hq, he⟩ := Option.map_eq_some_iff.mp h
      have hlt := hi hq
      cases he
      simp only [List.length_cons]
      omega

variable [LawfulBEq α]

theorem cut_eq_none {sep s : List α} (hs : sep ≠ []) : cut sep s = none ↔ ¬sep <:+: s := by
  induction s
  case nil => simp [cut, hs]
  case cons c s hi =>
    rw [cut, List.infix_cons_iff]
    by_cases hp : sep <+: c :: s
    case pos => simp [hp]
    case neg => simp [hp, hi]

omit [BEq α] [LawfulBEq α] in
theorem front_of_cut (f sep s : List α) : f ++ sep.dropLast <+: f ++ sep ++ s := by
  obtain ⟨w, hw⟩ := List.dropLast_prefix sep
  refine ⟨w ++ s, ?_⟩
  rw [← List.append_assoc, List.append_assoc f, hw]

-- The first occurrence is not before `f` ends, if `f` and a part of `sep` make none.
theorem cut_append {sep f : List α} (hs : sep ≠ []) (hf : ¬sep <:+: f ++ sep.dropLast) (s : List α) :
    cut sep (f ++ sep ++ s) = some (f, s) := by
  induction f
  case nil =>
    cases sep
    case nil          => exact absurd rfl hs
    case cons c sep   => simp [cut]
  case cons c f hi =>
    have hn : ¬sep <+: c :: (f ++ sep ++ s) := by
      intro hp
      have hw : c :: f ++ sep.dropLast <+: c :: (f ++ sep ++ s) := front_of_cut (c :: f) sep s
      have hl := List.length_pos_of_ne_nil hs
      have hin := List.prefix_of_prefix_length_le hp hw (by simp; omega)
      exact hf hin.isInfix
    have hf' : ¬sep <:+: f ++ sep.dropLast := by
      intro h
      exact hf (h.trans (List.suffix_cons c _).isInfix)
    rw [List.cons_append, List.cons_append, cut, if_neg (by simpa using hn), hi hf']
    rfl

-- What is received of a text before its rest `q` has the first cut of the text, or none yet.
theorem cut_received {sep f s p q : List α} (hs : sep ≠ []) (hf : ¬sep <:+: f ++ sep.dropLast)
    (h : p ++ q = f ++ sep ++ s) :
    cut sep p = none ∨ ∃ r, cut sep p = some (f, r) ∧ r ++ q = s := by
  by_cases hl : p.length < (f ++ sep).length
  case pos =>
    refine .inl ((cut_eq_none hs).mpr fun hi => hf (hi.trans (List.IsPrefix.isInfix ?_)))
    have hp : p <+: f ++ sep ++ s := ⟨q, h⟩
    refine List.prefix_of_prefix_length_le hp (front_of_cut f sep s) ?_
    simp only [List.length_append, List.length_dropLast] at hl ⊢
    omega
  case neg =>
    have hp : f ++ sep <+: p :=
      List.prefix_of_prefix_length_le ⟨s, rfl⟩ ⟨q, h⟩ (Nat.le_of_not_lt hl)
    obtain ⟨r, hr⟩ := hp
    subst hr
    rw [List.append_assoc, List.append_cancel_left_eq] at h
    exact .inr ⟨r, cut_append hs hf r, h⟩

end Js
