import Mathlib.Data.List.Infix
import Knaic.Go.Basic

namespace Go

-- The arguments of `strings.NewReplacer` by pairs, of what is replaced and what stands for it then.
-- Here nothing is put in where nothing is taken out.
structure Replacer where
  pairs  : List (Str × Str)
  ne_nil : ∀ p ∈ pairs, p.1 ≠ []

namespace Replacer

variable (r : Replacer)

-- The first of the pairs that can be used at the front of a text.
def lookup (s : Str) : Option (Str × Str) :=
  r.pairs.find? fun p => p.1.isPrefixOf s

-- What is written for each pair can depend on the text from its place on. The first argument counts the
-- bytes that were replaced already.
def replaceFrom (out : Str × Str → Str → Str) : Nat → Str → Str
  | _, []         => []
  | n + 1, _ :: s => replaceFrom out n s
  | 0, b :: s     =>
    match r.lookup (b :: s) with
    | some p => out p (b :: s) ++ replaceFrom out (p.1.length - 1) s
    | none   => b :: replaceFrom out 0 s

def replaceBy (out : Str × Str → Str → Str) (s : Str) : Str :=
  r.replaceFrom out 0 s

def replace (s : Str) : Str :=
  r.replaceBy (fun p _ => p.2) s

-- The pairs that are used, each with the text from its place on.
def hitsFrom : Nat → Str → List ((Str × Str) × Str)
  | _, []         => []
  | n + 1, _ :: s => hitsFrom n s
  | 0, b :: s     =>
    match r.lookup (b :: s) with
    | some p => (p, b :: s) :: hitsFrom (p.1.length - 1) s
    | none   => hitsFrom 0 s

def hits (s : Str) : List ((Str × Str) × Str) :=
  r.hitsFrom 0 s

variable {r : Replacer} {p : Str × Str} {out out' : Str × Str → Str → Str} {n : Nat} {s : Str}

theorem lookup_some (h : r.lookup s = some p) : p ∈ r.pairs ∧ p.1 <+: s :=
  ⟨List.mem_of_find?_eq_some h,
    List.isPrefixOf_iff_prefix.mp (List.find?_some (p := fun p : Str × Str => p.1.isPrefixOf s) h)⟩

theorem lookup_none : r.lookup s = none ↔ ∀ p ∈ r.pairs, ¬p.1 <+: s := by
  simp [lookup, List.find?_eq_none, List.isPrefixOf_iff_prefix]

theorem hits_mem (h : (p, s) ∈ r.hitsFrom n t) : p ∈ r.pairs ∧ p.1 <+: s := by
  fun_induction hitsFrom r n t
  case case1         => cases h
  case case2 hi      => exact hi h
  case case3 hl hi   =>
    cases List.mem_cons.mp h
    case inl he =>
      cases he
      exact lookup_some hl
    case inr hm => exact hi hm
  case case4 hi      => exact hi h

-- Where every pair is left as it is, the text is.
theorem replaceFrom_old (n : Nat) (s : Str) : r.replaceFrom (fun p _ => p.1) n s = s.drop n := by
  fun_induction replaceFrom r (fun p _ => p.1) n s
  case case1       => simp
  case case2 hi    => simpa using hi
  case case3 p hl hi =>
    have ⟨hm, t, ht⟩ := lookup_some hl
    have ⟨c, w, hw⟩ := List.exists_cons_of_ne_nil (r.ne_nil p hm)
    rw [hw, List.cons_append, List.cons.injEq] at ht
    rw [hi, hw, ← ht.right]
    simp [ht.left]
  case case4 hi    => rw [hi, List.drop_zero, List.drop_zero]

-- One way to write is never longer than the other, and only as long where they agree.
section Compare

variable (h : ∀ p ∈ r.pairs, ∀ s, out p s = out' p s ∨ (out p s).length < (out' p s).length)

include h

theorem replaceFrom_length (n : Nat) (s : Str) :
    (r.replaceFrom out n s).length ≤ (r.replaceFrom out' n s).length := by
  fun_induction replaceFrom r out n s
  case case1         => simp [replaceFrom]
  case case2 hi      => simpa [replaceFrom] using hi
  case case3 hl hi   =>
    rw [replaceFrom, hl]
    simp only [List.length_append]
    rcases h _ (lookup_some hl).left _ with he | he
    · rw [he]
      omega
    · omega
  case case4 hl hi   =>
    rw [replaceFrom, hl]
    simpa using hi

theorem replaceFrom_eq_iff (n : Nat) (s : Str) : r.replaceFrom out n s = r.replaceFrom out' n s ↔
    ∀ e ∈ r.hitsFrom n s, out e.1 e.2 = out' e.1 e.2 := by
  fun_induction hitsFrom r n s
  case case1       => simp [replaceFrom]
  case case2 hi    => simpa [replaceFrom] using hi
  case case3 b s p hl hi =>
    simp only [replaceFrom, hl, List.forall_mem_cons]
    rcases h p (lookup_some hl).left (b :: s) with he | he
    · rw [he, List.append_cancel_left_eq, hi]
      simp
    · refine iff_of_false (fun hx => ?_) fun hx => ?_
      · have hlen := congrArg List.length hx
        have hle := replaceFrom_length h (p.1.length - 1) s
        simp only [List.length_append] at hlen
        omega
      · rw [hx.left] at he
        exact Nat.lt_irrefl _ he
  case case4 hl hi => simpa [replaceFrom, hl] using hi

end Compare

-- A text is used nowhere where none of the texts to replace is in it.
theorem hits_eq_nil_iff : r.hits s = [] ↔ ∀ p ∈ r.pairs, ¬p.1 <:+: s := by
  unfold hits
  induction s
  case nil         => simpa [hitsFrom] using fun a b hp => r.ne_nil (a, b) hp
  case cons b s hi =>
    rw [hitsFrom]
    cases hl : r.lookup (b :: s)
    case some p =>
      have ⟨hm, hp⟩ := lookup_some hl
      exact iff_of_false (by simp) fun h => h p hm hp.isInfix
    case none =>
      have hn := lookup_none.mp hl
      rw [hi]
      refine forall₂_congr fun p hp => not_congr ?_
      rw [List.infix_cons_iff]
      exact ⟨.inr, fun hi => hi.resolve_left (hn p hp)⟩

theorem replaceFrom_hit (h : (p, t) ∈ r.hitsFrom n s) : p.2 <:+: r.replaceFrom (fun p _ => p.2) n s := by
  fun_induction hitsFrom r n s
  case case1       => cases h
  case case2 hi    => exact hi h
  case case3 b s q hl hi =>
    rw [replaceFrom, hl]
    cases List.mem_cons.mp h
    case inl he =>
      cases he
      exact (List.prefix_append ..).isInfix
    case inr hm => exact (hi hm).trans (List.suffix_append ..).isInfix
  case case4 hl hi =>
    rw [replaceFrom, hl]
    exact (hi h).trans (List.suffix_cons ..).isInfix

-- A replacer whose every result is longer and holds a text that is replaced again.
structure Feeds (r : Replacer) : Prop where
  longer : ∀ p ∈ r.pairs, p.1.length < p.2.length
  again  : ∀ p ∈ r.pairs, ∃ q ∈ r.pairs, q.1 <:+: p.2

theorem Feeds.replace_eq_iff (h : r.Feeds) (s : Str) : r.replace s = s ↔ r.hits s = [] := by
  have hl : ∀ p ∈ r.pairs, ∀ _ : Str, p.1 = p.2 ∨ p.1.length < p.2.length :=
    fun p hp _ => .inr (h.longer p hp)
  have hc := replaceFrom_eq_iff hl 0 s
  rw [replaceFrom_old, List.drop_zero, eq_comm] at hc
  refine hc.trans ⟨fun he => ?_, fun he => ?_⟩
  · refine List.eq_nil_iff_forall_not_mem.mpr fun (p, t) hm => ?_
    have hl := h.longer p (hits_mem hm).left
    rw [he (p, t) hm] at hl
    exact Nat.lt_irrefl _ hl
  · rw [hits] at he
    simp [he]

-- It comes to rest only where there is nothing to do.
theorem Feeds.replace_twice_iff (h : r.Feeds) (s : Str) :
    r.replace (r.replace s) = r.replace s ↔ r.hits s = [] := by
  rw [h.replace_eq_iff]
  constructor
  · intro hn
    refine List.eq_nil_iff_forall_not_mem.mpr fun (p, t) hm => ?_
    have ⟨q, hq, hi⟩ := h.again p (hits_mem hm).left
    exact hits_eq_nil_iff.mp hn q hq (hi.trans (replaceFrom_hit hm))
  · intro hn
    rw [(h.replace_eq_iff s).mpr hn, hn]

end Replacer
end Go
