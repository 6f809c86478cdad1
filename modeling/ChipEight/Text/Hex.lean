import ChipEight.Word

/-!
Upper-case hexadecimal text with leading zeros. A number longer than the width is written in full;
the sign of a negative number comes first and counts as one of the characters.
-/

namespace ChipEight.Hex

/-- The hexadecimal digits of `n`, most significant first, without leading zeros. -/
def digits (n : Nat) : List Char := (Nat.toDigits 16 n).map Char.toUpper

/-- `n` in at least `width` hexadecimal digits. -/
def padded (width n : Nat) : String := String.ofList ((digits n).leftpad width '0')

/-- `i` in at least `width` characters, the sign included. -/
def signed (width : Nat) : Int → String
  | .ofNat n => padded width n
  | .negSucc n => "-" ++ padded (width - 1) (n + 1)

def byte (b : Byte) : String := padded 2 b.toNat

def word (w : Word) : String := padded 4 w.toNat

/-- An address or a pointer: three digits, or four when it lies above the address space. -/
def pointer {w : Nat} (a : BitVec w) : String := padded 3 a.toNat

def nibble (n : Nibble) : String := padded 1 n.toNat

end ChipEight.Hex
