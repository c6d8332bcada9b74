import Knaic.Go.Basic

open Go

namespace Auth

structure User where
  subject         : Str
  email           : Str
  name            : Str
  groups          : List Str
  isPlatformAdmin : Bool
deriving DecidableEq

end Auth
