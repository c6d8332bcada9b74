import Mathlib.Algebra.Order.Field.Rat
import Mathlib.Data.List.TakeWhile
import Mathlib.Data.Rat.Floor
import Mathlib.RingTheory.Coprime.Lemmas
import Mathlib.Tactic.FieldSimp
import Mathlib.Tactic.Linarith
import Mathlib.Tactic.Positivity
import Mathlib.Tactic.Ring
import Knaic.Go.Strconv

open Go

-- What the text of a quantity stands for: a decimal number of any size and a suffix that scales it.
namespace Kube.Quantity

def isDigit (b : UInt8) : Bool :=
  48 ≤ b && b ≤ 57

def number (ds : Str) : Nat :=
  ds.foldl (fun v b => v * 10 + (b.toNat - 48)) 0

-- Whether a minus is in front, and what is behind the sign.
def signed : Str → Bool × Str
  | 43 :: r => (false, r)
  | 45 :: r => (true, r)
  | r       => (false, r)

def units : List (Str × ℚ) :=
  [(str "n", 1 / 10 ^ 9), (str "u", 1 / 10 ^ 6), (str "m", 1 / 10 ^ 3), (str "k", 10 ^ 3), (str "M", 10 ^ 6),
    (str "G", 10 ^ 9), (str "T", 10 ^ 12), (str "P", 10 ^ 15), (str "E", 10 ^ 18), (str "Ki", 2 ^ 10),
    (str "Mi", 2 ^ 20), (str "Gi", 2 ^ 30), (str "Ti", 2 ^ 40), (str "Pi", 2 ^ 50), (str "Ei", 2 ^ 60)]

def exponent (r : Str) : Option ℚ :=
  let ds := (signed r).2
  if ds ≠ [] ∧ ds.all isDigit then
    some (if (signed r).1 then 1 / 10 ^ number ds else 10 ^ number ds)
  else
    none

def multiplier (suffix : Str) : Option ℚ :=
  match suffix, units.find? (·.1 = suffix) with
  | [], _          => some 1
  | _, some u      => some u.2
  | e :: r, none   => if e = 101 ∨ e = 69 then exponent r else none

-- The digits in front, those behind the point, and what is left.
def whole (s : Str) : Str :=
  s.takeWhile isDigit

def fraction (s : Str) : Str :=
  match s.dropWhile isDigit with
  | 46 :: r => r.takeWhile isDigit
  | _       => []

def suffix (s : Str) : Str :=
  match s.dropWhile isDigit with
  | 46 :: r => r.dropWhile isDigit
  | r       => r

def magnitude (s : Str) : ℚ :=
  number (whole s) + number (fraction s) / 10 ^ (fraction s).length

def value (s : Str) : Option ℚ :=
  let r := (signed s).2
  if whole r = [] ∧ fraction r = [] then none
  else (multiplier (suffix r)).map fun m => (if (signed s).1 then -1 else 1) * magnitude r * m

-- A suffix that scales nothing.
def Neutral (suffix : Str) : Prop :=
  suffix = [] ∨ ∃ e r, suffix = e :: r ∧ (e = 101 ∨ e = 69) ∧ (signed r).2 ≠ [] ∧ ∀ b ∈ (signed r).2, b = 48

-- The text of a positive integer of 64 bits, but for zeros behind the point and an exponent of zero.
structure Plain (s : Str) : Prop where
  positive : 0 < number (whole s)
  bounded  : number (whole s) < 2 ^ 63
  fraction : ∀ b ∈ fraction s, b = 48
  suffix   : Neutral (suffix s)

section Number

variable {ds : Str} {b : UInt8}

theorem number_append (ds : Str) (b : UInt8) : number (ds ++ [b]) = number ds * 10 + (b.toNat - 48) := by
  simp [number, List.foldl_append]

theorem digit_toNat (h : isDigit b) : 48 ≤ b.toNat ∧ b.toNat ≤ 57 := by
  simpa [isDigit, UInt8.le_iff_toNat_le] using h

theorem number_lt (h : ∀ b ∈ ds, isDigit b) : number ds < 10 ^ ds.length := by
  induction ds using List.reverseRecOn
  case nil                    => simp [number]
  case append_singleton ds b hi =>
    have hd := digit_toNat (h b (by simp))
    have hl := hi fun c hc => h c (List.mem_append_left _ hc)
    rw [number_append, List.length_append, List.length_singleton, pow_succ]
    omega

theorem number_eq_zero (h : ∀ b ∈ ds, isDigit b) : number ds = 0 ↔ ∀ b ∈ ds, b = 48 := by
  induction ds using List.reverseRecOn
  case nil                    => simp [number]
  case append_singleton ds b hi =>
    have hd := digit_toNat (h b (by simp))
    have hl := hi fun c hc => h c (List.mem_append_left _ hc)
    have hb : b.toNat - 48 = 0 ↔ b = 48 := by
      constructor
      case mp  => exact fun he => UInt8.toNat_inj.mp (by simp; omega)
      case mpr => rintro rfl; rfl
    rw [number_append, Nat.add_eq_zero_iff, Nat.mul_eq_zero, hb, hl, List.forall_mem_append]
    simp

theorem whole_digits (s : Str) : ∀ b ∈ whole s, isDigit b :=
  fun _ hb => by simpa using List.mem_takeWhile_imp hb

theorem fraction_digits (s : Str) : ∀ b ∈ fraction s, isDigit b := by
  unfold fraction
  split
  case h_1 => exact fun _ hb => by simpa using List.mem_takeWhile_imp hb
  case h_2 => exact fun _ hb => by cases hb

end Number
section Multiplier

variable {r : Str} {m : ℚ}

theorem unit_cases : ∀ u ∈ units, 2 ≤ u.2 ∨ ∃ a, 0 < a ∧ u.2 * 10 ^ a = 1 := by
  simp only [units, List.forall_mem_cons, List.not_mem_nil, false_implies, implies_true, and_true]
  refine ⟨.inr ⟨9, ?_⟩, .inr ⟨6, ?_⟩, .inr ⟨3, ?_⟩, ?_⟩ <;> norm_num

-- No unit looks like an exponent of zero.
theorem unit_not_neutral : ∀ u ∈ units, ¬Neutral u.1 := by
  rintro u hu (hn | ⟨e, r, he, hc, hr, hz⟩)
  · revert u
    decide +kernel
  · have hall : ∀ u ∈ units, u.1.head? ≠ some 101 ∧ (u.1.head? = some 69 → u.1.tail = [] ∨ u.1.tail = [105]) := by
      decide +kernel
    have hu := hall u hu
    rw [he] at hu
    obtain rfl | rfl := hc
    case inl => exact hu.left rfl
    case inr =>
      obtain rfl | rfl : r = [] ∨ r = [105] := hu.right rfl
      case inl => exact hr rfl
      case inr => exact absurd (hz 105 (.head _)) (by decide)

theorem exponent_cases (h : exponent r = some m) :
    (m = 1 ∧ (signed r).2 ≠ [] ∧ ∀ b ∈ (signed r).2, b = 48) ∨
    (¬(∀ b ∈ (signed r).2, b = 48) ∧ (2 ≤ m ∨ ∃ a, 0 < a ∧ m * 10 ^ a = 1)) := by
  simp only [exponent] at h
  split at h
  case isFalse => cases h
  case isTrue hd =>
    have hz := number_eq_zero (List.all_eq_true.mp hd.right)
    by_cases hn : number (signed r).2 = 0
    case pos =>
      refine .inl ⟨?_, hd.left, hz.mp hn⟩
      rw [hn] at h
      cases h
      simp
    case neg =>
      refine .inr ⟨fun hall => hn (hz.mpr hall), ?_⟩
      have hp := Nat.pos_of_ne_zero hn
      cases h
      split
      case isTrue  =>
        refine .inr ⟨_, hp, ?_⟩
        field_simp
      case isFalse =>
        left
        calc (2 : ℚ) ≤ 10 ^ 1 := by norm_num
          _ ≤ 10 ^ number (signed r).2 := pow_le_pow_right₀ (by norm_num) hp

-- A suffix leaves the number as it is, or it scales it by two at least or by a negative power of ten.
theorem multiplier_cases (h : multiplier r = some m) :
    (m = 1 ∧ Neutral r) ∨ (¬Neutral r ∧ (2 ≤ m ∨ ∃ a, 0 < a ∧ m * 10 ^ a = 1)) := by
  unfold multiplier at h
  split at h
  case h_1 =>
    cases h
    exact .inl ⟨rfl, .inl rfl⟩
  case h_2 r _ _ u _ hu =>
    cases h
    have hm := List.mem_of_find?_eq_some hu
    have he : u.1 = r := by simpa using List.find?_some hu
    exact .inr ⟨he ▸ unit_not_neutral u hm, unit_cases u hm⟩
  case h_3 e r' _ =>
    split at h
    case isFalse => cases h
    case isTrue hc =>
      obtain ⟨hm, hne, hz⟩ | ⟨hz, hm⟩ := exponent_cases h
      case inl => exact .inl ⟨hm, .inr ⟨e, r', rfl, hc, hne, hz⟩⟩
      case inr =>
        refine .inr ⟨?_, hm⟩
        rintro (hn | ⟨e', r'', he, -, -, hz'⟩)
        · cases hn
        · cases he
          exact hz hz'

end Multiplier
section Integer

variable {d : Nat} {c : Int} {f m : ℚ}

-- The number that 64 bits have room for is not greater than the one that it is made of.
theorem bmod_le (hc : c = (d : Int).bmod (2 ^ 64)) : c ≤ d := by
  rw [hc, Int.bmod_def]
  split <;> omega

theorem bmod_dvd (hc : c = (d : Int).bmod (2 ^ 64)) : (2 ^ 64 : Int) ∣ d - c := by
  rw [hc, Int.bmod_def]
  split <;> omega

-- A number that is scaled down is not what is left of it in 64 bits.
theorem scaled_ne (hc : c = (d : Int).bmod (2 ^ 64)) (hp : 0 < c) (hb : c < 2 ^ 63) (hf : 0 ≤ f) (hf1 : f < 1)
    {a : Nat} (ha : 0 < a) (hm : m * 10 ^ a = 1) : (c : ℚ) ≠ (d + f) * m := by
  intro he
  have hd : (c : ℚ) * 10 ^ a = d + f := by
    rw [he, mul_assoc, hm, mul_one]
  -- The fraction is an integer, so there is none.
  have hi : f = ((c * 10 ^ a - d : Int) : ℚ) := by
    push_cast
    linarith
  have hz : c * 10 ^ a - d = 0 := by
    rw [hi] at hf hf1
    have h0 : (0 : Int) ≤ c * 10 ^ a - d := by exact_mod_cast hf
    have h1 : c * 10 ^ a - d < 1 := by exact_mod_cast hf1
    omega
  have hdvd : (2 ^ 64 : Int) ∣ c * (10 ^ a - 1) := by
    have h := bmod_dvd hc
    have heq : (d : Int) - c = c * (10 ^ a - 1) := by
      rw [mul_sub, mul_one]
      omega
    rwa [heq] at h
  have hodd : IsCoprime (2 ^ 64 : Int) (10 ^ a - 1) := by
    obtain ⟨b, rfl⟩ := Nat.exists_eq_succ_of_ne_zero (Nat.pos_iff_ne_zero.mp ha)
    have h2 : IsCoprime (2 : Int) (10 ^ (b + 1) - 1) := ⟨5 * 10 ^ b, -1, by ring⟩
    exact h2.pow_left
  have hle := Int.le_of_dvd hp (hodd.dvd_of_dvd_mul_right hdvd)
  omega

-- A number that is scaled up is greater than what is left of it.
theorem scaled_up_ne (hc : c = (d : Int).bmod (2 ^ 64)) (hp : 0 < c) (hf : 0 ≤ f) (hm : 2 ≤ m) :
    (c : ℚ) ≠ (d + f) * m := by
  have hle : (c : ℚ) ≤ d := by exact_mod_cast bmod_le hc
  have hpos : (0 : ℚ) < c := by exact_mod_cast hp
  have hlt : (d : ℚ) < (d + f) * m := by nlinarith
  intro he
  linarith

-- A number that is not scaled is what is left of it if there is room for it and nothing behind the point.
theorem unscaled_iff (hc : c = (d : Int).bmod (2 ^ 64)) (hp : 0 < c) (hb : c < 2 ^ 63) (hf : 0 ≤ f) (hf1 : f < 1) :
    (c : ℚ) = d + f ↔ d < 2 ^ 63 ∧ f = 0 := by
  have hle := bmod_le hc
  constructor
  case mp =>
    intro he
    have hcd : (d : ℚ) ≤ c := by linarith
    have hcd : (d : Int) ≤ c := by exact_mod_cast hcd
    have heq : c = d := le_antisymm hle hcd
    refine ⟨by omega, ?_⟩
    rw [heq] at he
    push_cast at he
    linarith
  case mpr =>
    rintro ⟨hlt, rfl⟩
    have heq : c = d := by
      rw [hc, Int.bmod_eq_of_le (by omega) (by omega)]
    rw [heq]
    push_cast
    ring

end Integer
section Text

variable {s : Str} {q : ℚ}

-- The digits in front as 64 bits have room for them.
def leading (s : Str) : Int :=
  (number (whole s) : Int).bmod (2 ^ 64)

theorem leading_lt (s : Str) : leading s < 2 ^ 63 := by
  have hlt := Int.bmod_lt (x := (number (whole s) : Int)) (m := 2 ^ 64) (by norm_num)
  have he : (((2 ^ 64 : Nat) : Int) + 1) / 2 = 2 ^ 63 := by norm_num
  rwa [he] at hlt

theorem leading_of_lt (h : number (whole s) < 2 ^ 63) : leading s = number (whole s) := by
  unfold leading
  generalize number (whole s) = n at *
  exact Int.bmod_eq_of_le (by omega) (by omega)

theorem number_pos (h : 0 < leading s) : 0 < number (whole s) := by
  have hle : leading s ≤ number (whole s) := bmod_le rfl
  omega

-- With a digit in front there is no sign.
theorem signed_of_leading (h : 0 < leading s) : signed s = (false, s) := by
  have hp := number_pos h
  unfold signed
  split
  case h_1 => simp [whole, isDigit, number] at hp
  case h_2 => simp [whole, isDigit, number] at hp
  case h_3 => rfl

theorem fraction_bounds (s : Str) :
    (0 : ℚ) ≤ number (fraction s) / 10 ^ (fraction s).length ∧
    (number (fraction s) / 10 ^ (fraction s).length : ℚ) < 1 := by
  have hl : (number (fraction s) : ℚ) < 10 ^ (fraction s).length := by
    exact_mod_cast number_lt (fraction_digits s)
  exact ⟨by positivity, (div_lt_one (by positivity)).mpr hl⟩

theorem fraction_eq_zero (s : Str) :
    (number (fraction s) / 10 ^ (fraction s).length : ℚ) = 0 ↔ ∀ b ∈ fraction s, b = 48 := by
  rw [← number_eq_zero (fraction_digits s), div_eq_zero_iff]
  simp

theorem value_of_leading (hv : value s = some q) (hc : 0 < leading s) :
    ∃ m, multiplier (suffix s) = some m ∧ q = magnitude s * m := by
  simp only [value, signed_of_leading hc] at hv
  split at hv
  case isTrue  => cases hv
  case isFalse =>
    obtain ⟨m, hm, rfl⟩ := Option.map_eq_some_iff.mp hv
    exact ⟨m, hm, by simp⟩

-- The digits in front are what a text stands for if and only if it is plain.
theorem leading_eq_iff (hv : value s = some q) (hc : 0 < leading s) : (leading s : ℚ) = q ↔ Plain s := by
  obtain ⟨m, hm, rfl⟩ := value_of_leading hv hc
  have ⟨hf, hf1⟩ := fraction_bounds s
  have hb := leading_lt s
  rw [magnitude]
  obtain ⟨rfl, hn⟩ | ⟨hn, hm⟩ := multiplier_cases hm
  case inl =>
    rw [mul_one, unscaled_iff (c := leading s) rfl hc hb hf hf1, fraction_eq_zero]
    exact ⟨fun h => ⟨number_pos hc, h.left, h.right, hn⟩, fun h => ⟨h.bounded, h.fraction⟩⟩
  case inr =>
    refine iff_of_false ?_ fun h => hn h.suffix
    obtain hm | ⟨a, ha, hm⟩ := hm
    case inl => exact scaled_up_ne rfl hc hf hm
    case inr => exact scaled_ne rfl hc hb hf hf1 ha hm

-- A plain text has its number in front.
theorem Plain.leading_pos (h : Plain s) : 0 < leading s := by
  rw [leading_of_lt h.bounded]
  exact_mod_cast h.positive

end Text

-- The greatest amount that a quantity takes.
def limit : ℚ :=
  2 ^ 63 - 1

-- What is finer than a billionth is rounded up, and what is beyond the limit is brought back to it.
def held (q : ℚ) : ℚ :=
  min (⌈q * 10 ^ 9⌉ / 10 ^ 9) limit

-- `ParseQuantity`
def parse (s : Str) : Option ℚ :=
  (value s).map fun q => if q < 0 then -held (-q) else held q

-- `Value`, which rounds up
def toInt64 (q : ℚ) : Int64 :=
  Int64.ofInt (if q < 0 then -⌈-q⌉ else ⌈q⌉)

section Held

theorem held_nat (n : Nat) : held n = ((min n (2 ^ 63 - 1) : Nat) : ℚ) := by
  have hc : (⌈(n : ℚ) * 10 ^ 9⌉ : ℚ) = n * 10 ^ 9 := by
    have he : (n : ℚ) * 10 ^ 9 = ((n * 10 ^ 9 : Nat) : ℚ) := by push_cast; rfl
    rw [he, Int.ceil_natCast]
    rfl
  have hl : limit = ((2 ^ 63 - 1 : Nat) : ℚ) := by norm_num [limit]
  rw [held, hc, mul_div_cancel_right₀ _ (by norm_num), hl, Nat.cast_min]

theorem toInt64_nat (n : Nat) : toInt64 n = Int64.ofNat n := by
  have hn : ¬(n : ℚ) < 0 := not_lt.mpr (Nat.cast_nonneg n)
  rw [toInt64, if_neg hn, Int.ceil_natCast]
  rfl

variable {n : Nat} {r : Str} {m : Nat}

theorem number_decimal (n : Nat) : number (decimal n) = n :=
  Go.Strconv.value_decimal n

theorem digits_front (n : Nat) (h : ∀ b ∈ r.head?, isDigit b = false) :
    whole (decimal n ++ r) = decimal n ∧ (decimal n ++ r).dropWhile isDigit = r := by
  have hd : ∀ b ∈ decimal n, isDigit b = true := fun b hb => by simpa [isDigit] using decimal_digits b hb
  constructor
  case left  =>
    rw [whole, List.takeWhile_append_of_pos hd]
    cases r
    case nil      => simp
    case cons b r => simp [h b rfl]
  case right =>
    rw [List.dropWhile_append_of_pos hd]
    cases r
    case nil      => rfl
    case cons b r => simp [h b rfl]

theorem signed_decimal (n : Nat) (r : Str) : signed (decimal n ++ r) = (false, decimal n ++ r) := by
  have ⟨b, t, ht⟩ := List.exists_cons_of_ne_nil (decimal_ne_nil n)
  have hd := decimal_digits b (ht ▸ List.mem_cons_self)
  rw [ht, List.cons_append]
  unfold signed
  split
  case h_1 he => cases he; exact absurd hd (by decide)
  case h_2 he => cases he; exact absurd hd (by decide)
  case h_3    => rfl

-- A number in decimal with a suffix.
theorem value_decimal (h : ∀ b ∈ r.head?, isDigit b = false ∧ b ≠ 46) (hm : multiplier r = some (m : ℚ)) :
    value (decimal n ++ r) = some ((n * m : Nat) : ℚ) := by
  have ⟨hw, hd⟩ := digits_front n fun b hb => (h b hb).left
  have hf : fraction (decimal n ++ r) = [] ∧ suffix (decimal n ++ r) = r := by
    rw [fraction, suffix, hd]
    cases r
    case nil      => exact ⟨rfl, rfl⟩
    case cons b r =>
      have hb := (h b rfl).right
      constructor
      all_goals split <;> simp_all
  have hz : number [] = 0 := rfl
  simp [value, signed_decimal, hw, hf, decimal_ne_nil, hm, magnitude, number_decimal, hz]

theorem parse_decimal (h : ∀ b ∈ r.head?, isDigit b = false ∧ b ≠ 46) (hm : multiplier r = some (m : ℚ)) :
    parse (decimal n ++ r) = some ((min (n * m) (2 ^ 63 - 1) : Nat) : ℚ) := by
  rw [parse, value_decimal h hm, Option.map_some, if_neg (not_lt.mpr (Nat.cast_nonneg _)), held_nat]

end Held
end Kube.Quantity
