import Mathlib.Computability.RegularExpressions
import Knaic.Go.Basic

open RegularExpression

namespace Go.Pattern

-- One byte, whatever it is. The names that are matched are ASCII and on one line.
def any : RegularExpression UInt8 :=
  ((List.finRange 256).map fun i => char (UInt8.ofFin i)).sum

def atom (b : UInt8) : Option (RegularExpression UInt8) :=
  if b = 0x2e then some any
  else if 97 ≤ b ∧ b ≤ 122 ∨ 48 ≤ b ∧ b ≤ 57 ∨ b = 0x2d then some (char b)
  else none

-- A regular expression of lower case letters, digits and hyphens, of dots, and of stars behind these.
def parse : Str → Option (RegularExpression UInt8)
  | []     => some 1
  | b :: s =>
    match s with
    | 0x2a :: s => do return (← atom b).star * (← parse s)
    | s         => do return (← atom b) * (← parse s)

-- What a byte of a pattern stands for.
def Fits (p b : UInt8) : Prop :=
  p = 0x2e ∨ p = b

theorem mem_any {w : Str} : w ∈ any.matches' ↔ ∃ b, w = [b] := by
  have hs (l : List (Fin 256)) : w ∈ ((l.map fun i => char (UInt8.ofFin i)).sum).matches' ↔
      ∃ i ∈ l, w = [UInt8.ofFin i] := by
    induction l
    case nil         => simp
    case cons i l hi => simp [Language.mem_add, hi]; rfl
  rw [any, hs]
  constructor
  case mp  => rintro ⟨i, _, h⟩; exact ⟨_, h⟩
  case mpr => rintro ⟨b, h⟩; exact ⟨b.toFin, List.mem_finRange _, h⟩

theorem mem_char {b : UInt8} {w : Str} : w ∈ (char b).matches' ↔ w = [b] := by
  rw [matches'_char]
  rfl

-- The bytes of names, of which only the dot stands for others.
def NameByte (b : UInt8) : Prop :=
  b = 0x2e ∨ (97 ≤ b ∧ b ≤ 122 ∨ 48 ≤ b ∧ b ≤ 57 ∨ b = 0x2d)

instance : DecidablePred NameByte :=
  fun b => inferInstanceAs (Decidable (b = 0x2e ∨ _))

theorem NameByte.not_star {b : UInt8} (h : NameByte b) : b ≠ 0x2a := by
  rintro rfl
  exact absurd h (by decide)

theorem atom_name {b : UInt8} (h : NameByte b) :
    ∃ r, atom b = some r ∧ ∀ w, w ∈ r.matches' ↔ ∃ c, Fits b c ∧ w = [c] := by
  unfold atom
  by_cases hd : b = 0x2e
  case pos => exact ⟨any, if_pos hd, fun w => by simp [mem_any, Fits, hd]⟩
  case neg =>
    refine ⟨char b, by rw [if_neg hd, if_pos (h.resolve_left hd)], fun w => ?_⟩
    rw [mem_char]
    simp [Fits, hd]

theorem parse_cons {b : UInt8} {s : Str} (h : s.head? ≠ some 0x2a) :
    parse (b :: s) = (atom b).bind fun r => (parse s).map (r * ·) := by
  rw [parse.eq_def]
  split
  case h_1 => cases ‹_›
  case h_2 he =>
    cases he
    split
    case h_1 => exact absurd rfl h
    case h_2 => cases atom b <;> cases parse s <;> rfl

-- A name in front of a pattern.
theorem parse_name {w s : Str} {r : RegularExpression UInt8} (hw : ∀ b ∈ w, NameByte b) (hs : s.head? ≠ some 0x2a)
    (hr : parse s = some r) : ∃ r', parse (w ++ s) = some r' ∧
      ∀ x, x ∈ r'.matches' ↔ ∃ u v, x = u ++ v ∧ List.Forall₂ Fits w u ∧ v ∈ r.matches' := by
  induction w
  case nil         => exact ⟨r, hr, fun x => by simp⟩
  case cons b w hi =>
    have hw' := fun c hc => hw c (List.mem_cons_of_mem _ hc)
    obtain ⟨r', hr', hm⟩ := hi hw'
    obtain ⟨a, ha, hma⟩ := atom_name (hw b List.mem_cons_self)
    have hn : (w ++ s).head? ≠ some 0x2a := by
      cases w
      case nil      => exact hs
      case cons c w => exact fun h => (hw' c List.mem_cons_self).not_star (Option.some.inj h)
    refine ⟨a * r', by rw [List.cons_append, parse_cons hn, ha, hr']; rfl, fun x => ?_⟩
    rw [matches'_mul, Language.mem_mul]
    constructor
    case mp =>
      rintro ⟨p, hp, q, hq, rfl⟩
      obtain ⟨c, hc, rfl⟩ := (hma p).mp hp
      obtain ⟨u, v, rfl, hu, hv⟩ := (hm q).mp hq
      exact ⟨c :: u, v, rfl, .cons hc hu, hv⟩
    case mpr =>
      rintro ⟨u, v, rfl, hu, hv⟩
      cases hu
      case cons c u hc hu => exact ⟨[c], (hma _).mpr ⟨c, hc, rfl⟩, u ++ v, (hm _).mpr ⟨u, v, rfl, hu, hv⟩, rfl⟩

-- A hyphen, and anything behind it.
theorem parse_rest : ∃ r, parse (str "-.*") = some r ∧ ∀ x, x ∈ r.matches' ↔ ∃ v, x = 0x2d :: v := by
  refine ⟨char 0x2d * (any.star * 1), rfl, fun x => ?_⟩
  simp only [matches'_mul, matches'_star, matches'_epsilon, mul_one, Language.mem_mul, mem_char]
  constructor
  case mp  => rintro ⟨_, rfl, v, _, rfl⟩; exact ⟨v, rfl⟩
  case mpr =>
    rintro ⟨v, rfl⟩
    refine ⟨_, rfl, v, Language.mem_kstar.mpr ⟨v.map ([·]), (List.flatMap_singleton' v).symm, fun y hy => ?_⟩, rfl⟩
    obtain ⟨b, _, rfl⟩ := List.mem_map.mp hy
    exact mem_any.mpr ⟨b, rfl⟩

end Go.Pattern
