import Knaic.Go.Basic

namespace Go

instance nanoseconds : @NeZero Nat Zero.ofOfNat0 1000000000 :=
  ⟨by decide⟩

-- An instant as Go keeps it: seconds since the start of year 1, and nanoseconds within the second.
structure Time where
  sec  : Int64
  nsec : Fin 1000000000
deriving DecidableEq

abbrev Duration :=
  Int64

namespace Time

def zero : Time :=
  ⟨0, 0⟩

def isZero (t : Time) : Bool :=
  t == zero

def before (t u : Time) : Bool :=
  t.sec < u.sec || (t.sec == u.sec && t.nsec < u.nsec)

-- The number of nanoseconds from `u` to `t`, or the closest duration that there is.
def sub (t u : Time) : Duration :=
  let d := (t.sec.toInt - u.sec.toInt) * 1000000000 + ((t.nsec : Int) - (u.nsec : Int))
  if d < Int64.minValue.toInt then Int64.minValue
  else if Int64.maxValue.toInt < d then Int64.maxValue
  else Int64.ofInt d

-- Seconds are not added past the ends of what there is.
def addSec (s : Int64) (d : Int) : Int64 :=
  let sum := s.toInt + d
  if Int64.maxValue.toInt < sum then Int64.maxValue
  else if sum < Int64.minValue.toInt then -Int64.maxValue
  else Int64.ofInt sum

def add (t : Time) (d : Duration) : Time :=
  let total := (t.nsec : Int) + d.toInt
  ⟨addSec t.sec (total / 1000000000), ⟨(total % 1000000000).toNat, by omega⟩⟩

end Time

-- `time.Second` and `time.Minute`
def second : Duration :=
  1000000000

def minute : Duration :=
  60 * second

end Go
