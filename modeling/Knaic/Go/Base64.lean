import Mathlib.Algebra.Group.Int.Defs
import Mathlib.Algebra.Group.Nat.Defs
import Knaic.Go.Basic

-- `base64.RawURLEncoding`, which has no padding.
namespace Go.Base64

def digit (n : Nat) : UInt8 :=
  UInt8.ofNat (if n < 26 then 65 + n else if n < 52 then 71 + n else if n < 62 then n - 4 else if n = 62 then 45 else 95)

def value? (b : UInt8) : Option Nat :=
  if 65 ≤ b ∧ b ≤ 90 then some (b.toNat - 65)
  else if 97 ≤ b ∧ b ≤ 122 then some (b.toNat - 71)
  else if 48 ≤ b ∧ b ≤ 57 then some (b.toNat + 4)
  else if b = 45 then some 62
  else if b = 95 then some 63
  else none

-- Three bytes make four digits of six bits each. What is left at the end makes as many as it takes.
def sextets : Str → List Nat
  | a :: b :: c :: s =>
    a.toNat / 4 :: (a.toNat % 4 * 16 + b.toNat / 16) :: (b.toNat % 16 * 4 + c.toNat / 64) :: c.toNat % 64 :: sextets s
  | [a, b]           => [a.toNat / 4, a.toNat % 4 * 16 + b.toNat / 16, b.toNat % 16 * 4]
  | [a]              => [a.toNat / 4, a.toNat % 4 * 16]
  | []               => []

def encode (s : Str) : Str :=
  (sextets s).map digit

-- Bits that are left over at the end are not looked at.
def octets : List Nat → Option Str
  | i :: j :: k :: l :: v => do
    let s ← octets v
    return UInt8.ofNat (i * 4 + j / 16) :: UInt8.ofNat (j % 16 * 16 + k / 4) :: UInt8.ofNat (k % 4 * 64 + l) :: s
  | [i, j, k]             => some [UInt8.ofNat (i * 4 + j / 16), UInt8.ofNat (j % 16 * 16 + k / 4)]
  | [i, j]                => some [UInt8.ofNat (i * 4 + j / 16)]
  | [_]                   => none
  | []                    => some []

-- Ends of lines do not count.
def decode (s : Str) : Option Str :=
  ((s.filter fun b => b ≠ 13 ∧ b ≠ 10).mapM value?).bind octets

theorem value?_digit : ∀ n < 64, value? (digit n) = some n := by
  decide

theorem digit_word : ∀ n < 64, digit n ≠ 13 ∧ digit n ≠ 10 ∧ digit n ≠ 46 := by
  decide

theorem sextets_lt (s : Str) : ∀ n ∈ sextets s, n < 64 := by
  fun_induction sextets s
  case case1 a b c s hi =>
    have ha := a.toNat_lt
    have hb := b.toNat_lt
    have hc := c.toNat_lt
    simp only [List.forall_mem_cons]
    exact ⟨by omega, by omega, by omega, by omega, hi⟩
  case case2 a b        =>
    have ha := a.toNat_lt
    have hb := b.toNat_lt
    simp only [List.forall_mem_cons]
    exact ⟨by omega, by omega, by omega, List.forall_mem_nil _⟩
  case case3 a          =>
    have ha := a.toNat_lt
    simp only [List.forall_mem_cons]
    exact ⟨by omega, by omega, List.forall_mem_nil _⟩
  case case4            => exact List.forall_mem_nil _

theorem byte_eq {b : UInt8} {n : Nat} (h : n = b.toNat) : UInt8.ofNat n = b := by
  rw [h, UInt8.ofNat_toNat]

theorem octets_sextets (s : Str) : octets (sextets s) = some s := by
  fun_induction sextets s
  case case1 a b c s hi =>
    have ha := a.toNat_lt
    have hb := b.toNat_lt
    have hc := c.toNat_lt
    simp only [octets, hi, Option.bind_eq_bind, Option.bind_some, Option.pure_def]
    rw [byte_eq (b := a) (by omega), byte_eq (b := b) (by omega), byte_eq (b := c) (by omega)]
  case case2 a b        =>
    have ha := a.toNat_lt
    have hb := b.toNat_lt
    rw [octets, byte_eq (b := a) (by omega), byte_eq (b := b) (by omega)]
  case case3 a          =>
    have ha := a.toNat_lt
    rw [octets, byte_eq (b := a) (by omega)]
  case case4            => rfl

-- What is encoded is made of the digits alone.
theorem mem_encode {s : Str} {b : UInt8} (h : b ∈ encode s) : ∃ n < 64, b = digit n := by
  obtain ⟨n, hn, rfl⟩ := List.mem_map.mp h
  exact ⟨n, sextets_lt s n hn, rfl⟩

theorem decode_encode (s : Str) : decode (encode s) = some s := by
  have hf : (encode s).filter (fun b => b ≠ 13 ∧ b ≠ 10) = encode s := by
    refine List.filter_eq_self.mpr fun b hb => ?_
    obtain ⟨n, hn, rfl⟩ := mem_encode hb
    have hd := digit_word n hn
    exact decide_eq_true ⟨hd.left, hd.right.left⟩
  have hm (ns : List Nat) (hn : ∀ n ∈ ns, n < 64) : (ns.map digit).mapM value? = some ns := by
    induction ns
    case nil          => rfl
    case cons n ns hi =>
      rw [List.map_cons, List.mapM_cons, value?_digit n (hn n (.head _)), hi fun m hm => hn m (.tail _ hm)]
      rfl
  rw [decode, hf, encode, hm _ (sextets_lt s), Option.bind_some, octets_sextets]

theorem dot_not_mem_encode (s : Str) : 46 ∉ encode s := by
  intro h
  obtain ⟨n, hn, he⟩ := mem_encode h
  exact (digit_word n hn).right.right he.symm

end Go.Base64
