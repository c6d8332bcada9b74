import Knaic.Go.Dict

namespace Go

-- What JSON decodes to as an `any`.
inductive Json
  | null
  | bool (b : Bool)
  | number (f : Float64)
  | string (s : Str)
  | array (l : List Json)
  | object (fields : List (Str × Json))

namespace Json

-- The type assertions `v.(string)`, `v.(float64)` and `v.(bool)`.
def string? : Json → Option Str
  | string s => some s
  | _        => none

def number? : Json → Option Float64
  | number f => some f
  | _        => none

def bool? : Json → Option Bool
  | bool b => some b
  | _      => none

-- A map literal.
def ofFields (l : List (String × Json)) : Json :=
  object (l.foldl (fun o e => Entries.set o (str e.1) e.2) [])

end Json
end Go
