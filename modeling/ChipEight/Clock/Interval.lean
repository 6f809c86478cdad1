import ChipEight.Binary64
import ChipEight.Refusal

/-!
Intervals of real time, counted in whole microseconds. An interval given in seconds is multiplied
by a million as a binary64 number and then rounded, a tie to the even integer; what is negative or
no number counts as nothing.
-/

namespace ChipEight.Interval

def microsPerSecond : Nat := 1000000

def ofSeconds (seconds : Binary64) : Except Refusal Nat :=
  match seconds.value with
  | .nan | .infinite true | .finite true _ _ => .ok 0
  | .infinite false => .error .intervalInfinite
  | .finite false mantissa exponent =>
    let (num, den) := Binary64.quotient mantissa exponent
    match (Binary64.ofQuotient (num * microsPerSecond) den).map Binary64.value with
    | some (.finite _ mantissa exponent) =>
      let (num, den) := Binary64.quotient mantissa exponent
      .ok (roundHalfEven num den)
    | _ => .error .intervalInfinite

/-- A number of milliseconds as seconds: first the number itself, then its thousandth, are rounded
to binary64. -/
def secondsOfMillis (millis : Nat) : Option Binary64 :=
  match (Binary64.ofQuotient millis 1).map Binary64.value with
  | some (.finite _ mantissa exponent) =>
    let (num, den) := Binary64.quotient mantissa exponent
    Binary64.ofQuotient num (den * 1000)
  | _ => none

/-- The microseconds of an interval given in milliseconds. A clock that runs backwards counts as
standing still, but how far it runs has to be a binary64 number in either direction. -/
def ofMillis (millis : Int) : Except Refusal Nat :=
  match secondsOfMillis millis.natAbs with
  | none => .error .intervalTooLarge
  | some seconds => if millis < 0 then .ok 0 else ofSeconds seconds

end ChipEight.Interval
