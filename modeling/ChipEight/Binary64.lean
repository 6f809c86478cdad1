/-!
Binary64 numbers in exact arithmetic. A number is read as an integer times a power of two, and a
quotient of integers is rounded to the nearest number of the format, a tie to the even one. No
floating-point operation is used, so everything here computes inside the logic.
-/

namespace ChipEight

/-- The quotient rounded to the nearest integer, a tie to the even one. -/
def roundHalfEven (num den : Nat) : Nat :=
  let q := num / den
  let r := num % den
  if 2 * r < den then q else if den < 2 * r then q + 1 else q + q % 2

/-- A number of the format, by its bits: sign, eleven of exponent, fifty-two of fraction. -/
structure Binary64 where
  bits : BitVec 64
deriving DecidableEq

namespace Binary64

inductive Value
  | nan
  | infinite (negative : Bool)
  /-- The number `mantissa * 2 ^ exponent`, or its opposite. -/
  | finite (negative : Bool) (mantissa : Nat) (exponent : Int)
deriving DecidableEq

def value (x : Binary64) : Value :=
  let negative := x.bits.msb
  let exponent := (x.bits.extractLsb' 52 11).toNat
  let fraction := (x.bits.extractLsb' 0 52).toNat
  if exponent = 0x7FF then
    if fraction = 0 then .infinite negative else .nan
  else if exponent = 0 then .finite negative fraction (-1074)
  else .finite negative (fraction + 1 <<< 52) (exponent - 1075)

/-- The quotient of integers that equals `mantissa * 2 ^ exponent`. -/
def quotient (mantissa : Nat) (exponent : Int) : Nat × Nat :=
  if 0 ≤ exponent then (mantissa <<< exponent.toNat, 1) else (mantissa, 1 <<< (-exponent).toNat)

/-- The exponent of the grid on which `num / den` is rounded: the quotient has fifty-three bits on
it, or fewer at the bottom of the range. -/
def gridExponent (num den : Nat) : Int :=
  let guess : Int := (num.log2 : Int) - den.log2
  let (a, b) := quotient den guess
  let floorLog := if a ≤ num * b then guess else guess - 1
  max (floorLog - 52) (-1074)

/-- The number nearest to `num / den`; nothing if that lies beyond the largest number. Counting
grid points from zero, through all exponents, gives the bits. -/
def ofQuotient (num den : Nat) : Option Binary64 :=
  if num = 0 then some ⟨0⟩
  else
    let e := gridExponent num den
    let (a, b) := quotient den e
    let count := (e + 1074).toNat <<< 52 + roundHalfEven (num * b) a
    if count < 0x7FF <<< 52 then some ⟨BitVec.ofNat 64 count⟩ else none

end Binary64

end ChipEight
