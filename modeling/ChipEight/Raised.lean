/-!
Errors that come from outside. Of an error only two things matter: the families that its class derives
from, by which it is told apart, and its text.
-/

namespace ChipEight

/-- The families of errors that are told apart. -/
inductive Family
  | missing
  | system
  | value
  | unimplemented
  | runtime
  | importing
deriving DecidableEq, Repr

/-- Whether the errors of one family belong to another. -/
def Family.within : Family → Family → Bool
  | missing, system | unimplemented, runtime => true
  | f, g => f = g

structure Raised where
  families : List Family
  text : String
deriving DecidableEq

def Raised.belongs (r : Raised) (f : Family) : Bool := r.families.any (·.within f)

end ChipEight
