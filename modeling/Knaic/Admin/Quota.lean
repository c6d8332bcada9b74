import Knaic.Go.Dict
import Knaic.Kube.Quantity

open Go

namespace Admin

structure Quota where
  cpu      : Int64
  memoryGi : Int64
  gpu      : Int64
  pods     : Int64
deriving DecidableEq

-- What is read back of the quota of a namespace.
namespace Quota

open Kube.Quantity (parse toInt64)

-- Quantities by the names of resources.
abbrev ResourceList :=
  Entries ℚ

-- A field that is not positive sets no limit. Nothing comes of a text that `MustParse` panics at.
def limited (names : List String) (n : Int64) (unit : String) (hard : ResourceList) : Option ResourceList :=
  if 0 < n then
    (parse (Strconv.itoa n.toInt ++ str unit)).map fun q => names.foldl (fun hard name => hard.set (str name) q) hard
  else
    some hard

def quotaToResourceList (q : Quota) : Option ResourceList := do
  let hard ← limited ["requests.cpu", "limits.cpu"] q.cpu "" []
  let hard ← limited ["requests.memory", "limits.memory"] q.memoryGi "Gi" hard
  let hard ← limited ["requests.nvidia.com/gpu"] q.gpu "" hard
  limited ["pods"] q.pods "" hard

-- A resource that is missing counts as zero.
def quantityValue (hard : ResourceList) (name : String) : Int64 :=
  toInt64 ((hard.get (str name)).getD 0)

def quotaFromResourceQuota (hard : ResourceList) : Quota where
  cpu      := quantityValue hard "requests.cpu"
  memoryGi := quantityValue hard "requests.memory" / (1024 * 1024 * 1024)
  gpu      := quantityValue hard "requests.nvidia.com/gpu"
  pods     := quantityValue hard "pods"

structure Nonnegative (q : Quota) : Prop where
  cpu      : 0 ≤ q.cpu
  memoryGi : 0 ≤ q.memoryGi
  gpu      : 0 ≤ q.gpu
  pods     : 0 ≤ q.pods

-- What a quantity holds of `n` times `m`.
def held (n : Int64) (m : Nat) : Nat :=
  min (n.toNatClampNeg * m) (2 ^ 63 - 1)

section Limited

variable {names : List String} {n : Int64} {unit : String} {m : Nat} {hard hard' : ResourceList} {name : String}

theorem itoa_nonneg (hn : 0 ≤ n) : Strconv.itoa n.toInt = decimal n.toNatClampNeg := by
  have hi : 0 ≤ n.toInt := Int64.le_iff_toInt_le.mp hn
  rw [Strconv.itoa, if_neg (by omega), Int64.toNatClampNeg]
  congr 1
  omega

theorem get_setAll (q : ℚ) (hard : ResourceList) (name : String) :
    (names.foldl (fun hard name => hard.set (str name) q) hard).get (str name) =
    if name ∈ names then some q else hard.get (str name) := by
  induction names generalizing hard
  case nil           => rfl
  case cons k ks hi =>
    rw [List.foldl_cons, hi, Entries.get_set]
    by_cases hk : name = k <;> simp [hk]

-- A limit is set under each of its names and under no other.
theorem limited_ok (names : List String) (hard : ResourceList) (hn : 0 ≤ n) (hu : ∀ b ∈ (str unit).head?, Kube.Quantity.isDigit b = false ∧ b ≠ 46)
    (hm : Kube.Quantity.multiplier (str unit) = some (m : ℚ)) : ∃ hard', limited names n unit hard = some hard' ∧
    ∀ name, hard'.get (str name) = if 0 < n ∧ name ∈ names then some (held n m : ℚ) else hard.get (str name) := by
  unfold limited
  split
  case isTrue h  =>
    rw [itoa_nonneg hn, Kube.Quantity.parse_decimal hu hm]
    exact ⟨_, rfl, fun name => by rw [get_setAll]; simp [h, held]⟩
  case isFalse h => exact ⟨hard, rfl, fun name => by simp [h]⟩

-- What is not set because there is nothing to set is zero, too.
theorem toInt64_held (n : Int64) (m : Nat) :
    toInt64 ((if 0 < n then some (held n m : ℚ) else none).getD 0) = Int64.ofNat (held n m) := by
  by_cases h : 0 < n
  case pos => rw [if_pos h, Option.getD_some, Kube.Quantity.toInt64_nat]
  case neg =>
    have hz : n.toNatClampNeg = 0 := by
      have hi := mt Int64.lt_iff_toInt_lt.mpr h
      rw [Int64.toInt_zero] at hi
      rw [Int64.toNatClampNeg]
      omega
    rw [if_neg h, Option.getD_none, held, hz]
    simpa using Kube.Quantity.toInt64_nat 0

-- A count fits.
theorem ofNat_held (hn : 0 ≤ n) : Int64.ofNat (held n 1) = n := by
  have hi : 0 ≤ n.toInt := Int64.le_iff_toInt_le.mp hn
  have hlt := n.toInt_lt
  have hv : held n 1 = n.toInt.toNat := by
    rw [held, Int64.toNatClampNeg]
    omega
  rw [hv, ← Int64.toInt_inj, Int64.toInt_ofNat_of_lt (by omega)]
  omega

-- Memory fits while its bytes do.
theorem memory_held_iff (hn : 0 ≤ n) :
    Int64.ofNat (held n (2 ^ 30)) / (1024 * 1024 * 1024) = n ↔ n < 2 ^ 33 := by
  have hi : 0 ≤ n.toInt := Int64.le_iff_toInt_le.mp hn
  have hlt := n.toInt_lt
  have hd : (1024 * 1024 * 1024 : Int64).toInt = 2 ^ 30 := by decide
  have hb : (2 ^ 33 : Int64).toInt = 2 ^ 33 := by decide
  have hv : held n (2 ^ 30) = min (n.toInt.toNat * 2 ^ 30) (2 ^ 63 - 1) := rfl
  rw [← Int64.toInt_inj, Int64.lt_iff_toInt_lt, hb, Int64.toInt_div_of_ne_right _ _ (by decide), hd,
    Int64.toInt_ofNat_of_lt (by omega), hv, Int.tdiv_eq_ediv_of_nonneg (by omega)]
  omega

end Limited

-- What is read back of each field.
theorem quota_read_back (q : Quota) (h : Nonnegative q) :
    (quotaToResourceList q).map quotaFromResourceQuota = some {
      cpu      := q.cpu
      memoryGi := Int64.ofNat (held q.memoryGi (2 ^ 30)) / (1024 * 1024 * 1024)
      gpu      := q.gpu
      pods     := q.pods
    } := by
  have plain : ∀ b ∈ (str "").head?, Kube.Quantity.isDigit b = false ∧ b ≠ 46 := nofun
  have gigs : ∀ b ∈ (str "Gi").head?, Kube.Quantity.isDigit b = false ∧ b ≠ 46 := by
    rintro b ⟨⟩
    decide
  have one : Kube.Quantity.multiplier (str "") = some ((1 : Nat) : ℚ) := by decide +kernel
  have gi : Kube.Quantity.multiplier (str "Gi") = some ((2 ^ 30 : Nat) : ℚ) := by decide +kernel
  have ⟨h₁, e₁, g₁⟩ := limited_ok ["requests.cpu", "limits.cpu"] [] h.cpu plain one
  have ⟨h₂, e₂, g₂⟩ := limited_ok ["requests.memory", "limits.memory"] h₁ h.memoryGi gigs gi
  have ⟨h₃, e₃, g₃⟩ := limited_ok ["requests.nvidia.com/gpu"] h₂ h.gpu plain one
  have ⟨h₄, e₄, g₄⟩ := limited_ok ["pods"] h₃ h.pods plain one
  have he : quotaToResourceList q = some h₄ := by simp [quotaToResourceList, e₁, e₂, e₃, e₄]
  rw [he, Option.map_some, quotaFromResourceQuota]
  simp [quantityValue, g₄, g₃, g₂, g₁, toInt64_held, ofNat_held, h.cpu, h.gpu, h.pods]

-- A quota is read back as it was set exactly if its memory is less than 2 ^ 33 Gi.
theorem quota_read_back_iff (q : Quota) (h : Nonnegative q) :
    (quotaToResourceList q).map quotaFromResourceQuota = some q ↔ q.memoryGi < 2 ^ 33 := by
  rw [quota_read_back q h, ← memory_held_iff h.memoryGi]
  constructor
  case mp  => exact fun he => congrArg memoryGi (Option.some.inj he)
  case mpr => exact fun he => by rw [he]

def roomy : Quota where
  cpu      := Int64.maxValue
  memoryGi := 2 ^ 33 - 1
  gpu      := 8
  pods     := 0

theorem roomy_read_back : (quotaToResourceList roomy).map quotaFromResourceQuota = some roomy ↔
    roomy.memoryGi < 2 ^ 33 :=
  quota_read_back_iff roomy ⟨by decide, by decide, by decide, by decide⟩

theorem memory_cut : ¬∀ q : Quota, Nonnegative q →
    (quotaToResourceList q).map quotaFromResourceQuota = some q := by
  intro h
  have hn : Nonnegative { roomy with memoryGi := 2 ^ 33 } := ⟨by decide, by decide, by decide, by decide⟩
  have he := (quota_read_back _ hn).symm.trans (h _ hn)
  exact absurd (congrArg memoryGi (Option.some.inj he)) (by decide)

end Quota
end Admin
