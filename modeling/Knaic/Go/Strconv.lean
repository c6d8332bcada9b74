import Mathlib.Algebra.Group.Int.Defs
import Mathlib.Algebra.Group.Nat.Defs
import Mathlib.Tactic.Ring
import Mathlib.Tactic.Tauto
import Knaic.Go.Basic
import Knaic.Go.Sort

namespace Go.Strconv

def errSyntax : Error :=
  .sentinel "strconv" "invalid syntax"

def errRange : Error :=
  .sentinel "strconv" "value out of range"

def isDigit (b : UInt8) : Bool :=
  48 ≤ b && b ≤ 57

-- The value of digits.
def value (ds : Str) : Nat :=
  ds.foldl (fun v b => v * 10 + (b.toNat - 48)) 0

def parseDigits (neg : Bool) (ds : Str) : Int × Option Error :=
  if ds = [] ∨ !ds.all isDigit then
    (0, some errSyntax)
  else if neg then
    if value ds ≤ 2 ^ 63 then (-(value ds : Int), none) else (-2 ^ 63, some errRange)
  else
    if value ds < 2 ^ 63 then (value ds, none) else (2 ^ 63 - 1, some errRange)

-- `ParseInt` in base 10 and for 64 bits, which is also what `Atoi` computes. A number that does not
-- fit comes back as the nearest one that does, beside the error.
def parseInt : Str → Int × Option Error
  | 43 :: ds => parseDigits false ds
  | 45 :: ds => parseDigits true ds
  | ds       => parseDigits false ds

-- `Itoa`
def itoa (n : Int) : Str :=
  if n < 0 then 45 :: decimal n.natAbs else decimal n.natAbs

theorem isDigit_decimal (n : Nat) : (decimal n).all isDigit := by
  rw [List.all_eq_true]
  intro b hb
  simpa [isDigit] using decimal_digits b hb

theorem char_byte : ∀ b : UInt8, (Char.ofNat b.toNat).toNat = b.toNat := by
  decide +kernel

theorem value_decimal (n : Nat) : value (decimal n) = n := by
  have h (ds : Str) (hd : ∀ b ∈ ds, 48 ≤ b ∧ b ≤ 57) (v : Nat) :
      ds.foldl (fun v b => v * 10 + (b.toNat - 48)) v =
      Nat.ofDigitChars 10 (ds.map fun b => Char.ofNat b.toNat) v := by
    induction ds generalizing v
    case nil          => rfl
    case cons b ds hi =>
      have hb : (Char.ofNat b.toNat).toNat = b.toNat := char_byte b
      rw [List.foldl_cons, hi fun c hc => hd c (List.mem_cons_of_mem _ hc), List.map_cons,
        Nat.ofDigitChars_cons, hb, Nat.mul_comm]
      rfl
  rw [value, h _ decimal_digits, digits_of_decimal, Nat.ofDigitChars_ten_toDigits]

theorem parseInt_decimal {n : Nat} (h : n < 2 ^ 63) : parseInt (decimal n) = ((n : Int), none) := by
  have hd := isDigit_decimal n
  have hf : ∀ b ds, decimal n = b :: ds → 48 ≤ b :=
    fun b _ he => (decimal_digits (n := n) b (by simp [he])).left
  unfold parseInt
  split
  case h_1 ds he => exact absurd (hf _ _ he) (by decide)
  case h_2 ds he => exact absurd (hf _ _ he) (by decide)
  case h_3       =>
    rw [parseDigits, value_decimal, if_neg (by simp [decimal_ne_nil, hd]), if_neg (by decide), if_pos h]

end Go.Strconv

-- Decimals in the order of texts.
namespace Go.Strconv

variable {a p q ds : Str} {b c : UInt8} {m n : Nat}

theorem foldl_value (v : Nat) (ds : Str) :
    ds.foldl (fun v b => v * 10 + (b.toNat - 48)) v = v * 10 ^ ds.length + value ds := by
  unfold value
  induction ds generalizing v
  case nil          => simp
  case cons b ds hi =>
    rw [List.foldl_cons, List.foldl_cons, hi, hi (0 * 10 + _), List.length_cons, Nat.pow_succ]
    ring

theorem value_append (p q : Str) : value (p ++ q) = value p * 10 ^ q.length + value q := by
  rw [value, List.foldl_append, foldl_value]
  rfl

theorem value_cons (b : UInt8) (ds : Str) : value (b :: ds) = (b.toNat - 48) * 10 ^ ds.length + value ds := by
  rw [value, List.foldl_cons, foldl_value]
  simp

def Digits (ds : Str) : Prop :=
  ∀ b ∈ ds, 48 ≤ b.toNat ∧ b.toNat ≤ 57

theorem value_lt (h : Digits ds) : value ds < 10 ^ ds.length := by
  induction ds
  case nil          => decide
  case cons b ds hi =>
    have hb := h b (.head _)
    have hd := hi fun c hc => h c (.tail _ hc)
    have hp : (b.toNat - 48) * 10 ^ ds.length ≤ 9 * 10 ^ ds.length := Nat.mul_le_mul_right _ (by omega)
    rw [value_cons, List.length_cons, Nat.pow_succ]
    omega

-- What comes in front counts first.
theorem mul_add_lt_iff {i j k u v : Nat} (hu : u < k) (hv : v < k) : i * k + u < j * k + v ↔ i < j ∨ i = j ∧ u < v := by
  rcases Nat.lt_trichotomy i j with h | rfl | h
  case inl     =>
    have hm : (i + 1) * k ≤ j * k := Nat.mul_le_mul_right k h
    rw [Nat.succ_mul] at hm
    omega
  case inr.inl => omega
  case inr.inr =>
    have hm : (j + 1) * k ≤ i * k := Nat.mul_le_mul_right k h
    rw [Nat.succ_mul] at hm
    omega

-- Texts of the same length are in the order of their values.
theorem lt_iff_value (hl : a.length = p.length) (ha : Digits a) (hp : Digits p) : a < p ↔ value a < value p := by
  induction a generalizing p
  case nil         =>
    cases p
    case nil  => simp
    case cons => simp at hl
  case cons b a hi =>
    cases p
    case nil      => simp at hl
    case cons c p =>
      have hb := ha b (.head _)
      have hc := hp c (.head _)
      have hl := Nat.succ.inj hl
      have hva := value_lt fun d hd => ha d (.tail _ hd)
      have hvp := value_lt fun d hd => hp d (.tail _ hd)
      rw [hl] at hva
      rw [List.cons_lt_cons_iff, value_cons, value_cons, hl, mul_add_lt_iff hva hvp, UInt8.lt_iff_toNat_lt,
        hi hl (fun d hd => ha d (.tail _ hd)) fun d hd => hp d (.tail _ hd), ← UInt8.toNat_inj]
      omega

theorem value_inj (hl : a.length = p.length) (ha : Digits a) (hp : Digits p) : value a = value p ↔ a = p := by
  constructor
  case mpr => exact congrArg value
  case mp  =>
    intro h
    rcases lt_trichotomy a p with hlt | he | hgt
    case inl     => exact absurd h ((lt_iff_value hl ha hp).mp hlt).ne
    case inr.inl => exact he
    case inr.inr => exact absurd h.symm ((lt_iff_value hl.symm hp ha).mp hgt).ne

-- A text stands before another if and only if it stands before its front, or is its front.
theorem lt_append_iff (hl : a.length = p.length) : a < p ++ q ↔ a < p ∨ a = p ∧ q ≠ [] := by
  induction a generalizing p
  case nil         =>
    cases p
    case nil  => cases q <;> simp
    case cons => simp at hl
  case cons b a hi =>
    cases p
    case nil      => simp at hl
    case cons c p =>
      rw [List.cons_append, List.cons_lt_cons_iff, List.cons_lt_cons_iff, hi (Nat.succ.inj hl), List.cons.injEq]
      tauto

theorem decimal_Digits (n : Nat) : Digits (decimal n) :=
  fun b hb => by simpa [UInt8.le_iff_toNat_le] using decimal_digits b hb

theorem decimal_length_le (h : m ≤ n) : (decimal m).length ≤ (decimal n).length := by
  simp only [decimal, List.length_map]
  rw [Nat.length_toDigits_le_iff (by decide) Nat.length_toDigits_pos]
  exact Nat.lt_of_le_of_lt h ((Nat.length_toDigits_le_iff (by decide) Nat.length_toDigits_pos).mp (Nat.le_refl _))

-- Of two numbers the less stands first if and only if it is at most what the first digits of the greater make, as many
-- as it has itself.
theorem decimal_lt_iff (h : m < n) :
    decimal m < decimal n ↔ m ≤ n / 10 ^ ((decimal n).length - (decimal m).length) := by
  have hl := decimal_length_le h.le
  obtain ⟨p, q, hpq, hp⟩ : ∃ p q, decimal n = p ++ q ∧ p.length = (decimal m).length :=
    ⟨_, _, (List.take_append_drop (decimal m).length (decimal n)).symm, by simp [hl]⟩
  have hd : Digits p ∧ Digits q := by
    constructor
    all_goals
      intro b hb
      exact decimal_Digits n b (by simp [hpq, hb])
  have hn : n = value p * 10 ^ q.length + value q := by rw [← value_append, ← hpq, value_decimal]
  have hk : (decimal n).length - (decimal m).length = q.length := by
    rw [hpq, List.length_append, hp, Nat.add_sub_cancel_left]
  have hdiv : n / 10 ^ q.length = value p := by
    rw [hn]
    apply Nat.div_eq_of_lt_le
    case lo => exact Nat.le_add_right ..
    case hi =>
      rw [Nat.succ_mul]
      exact Nat.add_lt_add_left (value_lt hd.right) _
  have he : decimal m = p ↔ m = value p := by
    rw [← value_inj hp.symm (decimal_Digits m) hd.left, value_decimal]
  -- Without further digits the two would be the same number.
  have hq : m = value p → q ≠ [] := by
    rintro hv rfl
    simp only [List.length_nil, pow_zero, mul_one] at hn
    have hz : value [] = 0 := rfl
    omega
  rw [hk, hdiv, hpq, lt_append_iff hp.symm, lt_iff_value hp.symm (decimal_Digits m) hd.left, value_decimal, he]
  constructor
  case mp  => omega
  case mpr =>
    intro hle
    rcases hle.lt_or_eq with hlt | heq
    case inl => exact .inl hlt
    case inr => exact .inr ⟨heq, hq heq⟩

end Go.Strconv
