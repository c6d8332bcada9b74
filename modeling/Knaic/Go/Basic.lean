namespace Go

-- A Go string is any sequence of bytes.
abbrev Str :=
  List UInt8

-- Whether a text is one of some texts.
instance Str.lawful : LawfulBEq (List UInt8) :=
  inferInstance

-- What is said of every byte can be checked byte by byte.
instance decidableForallByte {P : UInt8 → Prop} [DecidablePred P] : Decidable (∀ b, P b) :=
  decidable_of_iff (∀ i : Fin 256, P ⟨⟨i⟩⟩) ⟨fun h b => h b.toBitVec.toFin, fun h _ => h _⟩

-- The bytes of a literal.
def str (s : String) : Str :=
  s.toList.flatMap String.utf8EncodeChar

-- A floating point number by its bits. Nothing here computes with one.
abbrev Float64 :=
  UInt64

namespace Str

def hasPrefix (s p : Str) : Bool :=
  p.isPrefixOf s

def hasSuffix (s p : Str) : Bool :=
  p.isSuffixOf s

-- `strings.Contains`
def hasInfix : Str → Str → Bool
  | [], p     => p.isEmpty
  | b :: s, p => p.isPrefixOf (b :: s) || hasInfix s p

def trimPrefix (s p : Str) : Str :=
  if s.hasPrefix p then s.drop p.length else s

def trimSuffix (s p : Str) : Str :=
  if s.hasSuffix p then s.take (s.length - p.length) else s

-- `strings.TrimRight` and `strings.TrimLeft` for a cutset of one byte.
def trimRight (s : Str) (b : UInt8) : Str :=
  (s.reverse.dropWhile (· == b)).reverse

def trimLeft (s : Str) (b : UInt8) : Str :=
  s.dropWhile (· == b)

def trim (s : Str) (b : UInt8) : Str :=
  (s.trimLeft b).trimRight b

-- `strings.ToLower` and `strings.ToUpper` on ASCII text
def toLower (s : Str) : Str :=
  s.map fun b => if 65 ≤ b ∧ b ≤ 90 then b + 32 else b

def toUpper (s : Str) : Str :=
  s.map fun b => if 97 ≤ b ∧ b ≤ 122 then b - 32 else b

theorem hasPrefix_iff {s p : Str} : s.hasPrefix p ↔ p <+: s :=
  List.isPrefixOf_iff_prefix

theorem hasPrefix_append (p s : Str) : hasPrefix (p ++ s) p :=
  hasPrefix_iff.mpr (List.prefix_append ..)

theorem trimPrefix_append (p s : Str) : trimPrefix (p ++ s) p = s := by
  rw [trimPrefix, if_pos (hasPrefix_append p s), List.drop_left]

end Str

def hexDigit (n : UInt8) : UInt8 :=
  if n < 10 then 48 + n else 87 + n

-- `hex.EncodeToString`
def hex (bs : List UInt8) : Str :=
  bs.flatMap fun b => [hexDigit (b / 16), hexDigit (b % 16)]

-- A number in decimal, and padded with zeros as `%0d` does with a width.
def decimal (n : Nat) : Str :=
  (Nat.toDigits 10 n).map fun c => UInt8.ofNat c.toNat

def zeroPadded (width n : Nat) : Str :=
  List.replicate (width - (decimal n).length) 48 ++ decimal n

theorem digits_of_decimal (n : Nat) :
    (decimal n).map (fun b => Char.ofNat b.toNat) = Nat.toDigits 10 n := by
  have h : ∀ c ∈ Nat.toDigits 10 n, Char.ofNat (UInt8.ofNat c.toNat).toNat = c := by
    intro c hc
    have hd := Nat.isDigit_of_mem_toDigits (by decide) (by decide) hc
    have hb : c.toNat < 256 := by
      have hle := (Char.isDigit_iff_toNat.mp hd).right
      simp only [Char.reduceToNat] at hle
      omega
    simp [Nat.mod_eq_of_lt hb]
  rw [decimal, List.map_map]
  exact (List.map_congr_left h).trans (List.map_id _)

theorem decimal_digits {n : Nat} : ∀ b ∈ decimal n, 48 ≤ b ∧ b ≤ 57 := by
  intro b hb
  have ⟨c, hc, he⟩ := List.mem_map.mp hb
  have hd := Char.isDigit_iff_toNat.mp (Nat.isDigit_of_mem_toDigits (by decide) (by decide) hc)
  subst he
  simp only [Char.reduceToNat] at hd
  simp only [UInt8.le_iff_toNat_le, UInt8.toNat_ofNat', UInt8.reduceToNat]
  omega

theorem decimal_inj {m n : Nat} : decimal m = decimal n ↔ m = n := by
  refine ⟨fun h => ?_, fun h => h ▸ rfl⟩
  have hd : Nat.toDigits 10 m = Nat.toDigits 10 n := by
    rw [← digits_of_decimal, h, digits_of_decimal]
  rw [← Nat.ofDigitChars_ten_toDigits (n := m), hd, Nat.ofDigitChars_ten_toDigits]

theorem zeroPadded_inj {w m n : Nat} : zeroPadded w m = zeroPadded w n ↔ m = n := by
  have hv (n : Nat) :
      Nat.ofDigitChars 10 ((zeroPadded w n).map fun b => Char.ofNat b.toNat) 0 = n := by
    rw [zeroPadded, List.map_append, List.map_replicate, digits_of_decimal]
    show Nat.ofDigitChars 10 (List.replicate _ '0' ++ _) 0 = n
    rw [Nat.ofDigitChars_append, Nat.ofDigitChars_replicate_zero, Nat.mul_zero,
      Nat.ofDigitChars_ten_toDigits]
  refine ⟨fun h => ?_, fun h => h ▸ rfl⟩
  rw [← hv m, h, hv]

theorem decimal_ne_nil (n : Nat) : decimal n ≠ [] := by
  simp [decimal]

-- An error is told from others by the package variable that holds it, or it is put together from a
-- format and its arguments, or it wraps another one, or it comes from code outside the repository.
inductive Error
  | sentinel (pkg text : String)
  | errorf (format : String) (args : List Str)
  | wrap (context : String) (cause : Error)
  | foreign (text : Str)
deriving DecidableEq

namespace Error

def new (text : String) : Error :=
  errorf text []

-- `errors.Is`
def is (target : Error) : Error → Bool
  | wrap c e => wrap c e == target || is target e
  | e        => e == target

end Error

end Go
