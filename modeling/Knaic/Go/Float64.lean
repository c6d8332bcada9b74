import Mathlib.Algebra.Group.Int.Defs
import Mathlib.Algebra.Group.Nat.Defs
import Knaic.Go.Basic

namespace Go.Float64

def exponent (f : Float64) : Nat :=
  (f >>> 52 &&& 0x7ff).toNat

-- The digits after the leading one, which only numbers below the least normal one do without.
def mantissa (f : Float64) : Nat :=
  (f &&& 0xfffffffffffff).toNat

def magnitude (f : Float64) : Nat :=
  if f.exponent = 0 then 0
  else if 1075 ≤ f.exponent then (2 ^ 52 + f.mantissa) * 2 ^ (f.exponent - 1075)
  else (2 ^ 52 + f.mantissa) / 2 ^ (1075 - f.exponent)

def toward (f : Float64) : Int :=
  if f >>> 63 = 1 then -f.magnitude else f.magnitude

-- Whether the number is greater than zero, which one that is not a number is not.
def positive (f : Float64) : Bool :=
  f >>> 63 = 0 && f ≠ 0 && !(f.exponent = 0x7ff && f.mantissa ≠ 0)

-- The conversion to `int64`. What does not fit becomes the least integer, as amd64 has it.
def trunc (f : Float64) : Int :=
  if f.exponent = 0x7ff || f.toward < -2 ^ 63 || 2 ^ 63 ≤ f.toward then -2 ^ 63 else f.toward

-- Whether the number is the same after that conversion and back.
def integral (f : Float64) : Bool :=
  f.exponent ≠ 0x7ff && -2 ^ 63 ≤ f.toward && f.toward < 2 ^ 63 &&
    if f.exponent = 0 then f.mantissa = 0
    else 1075 ≤ f.exponent || (2 ^ 52 + f.mantissa) % 2 ^ (1075 - f.exponent) = 0

end Go.Float64
