import ChipEight.Text.Printable

/-!
Quoted text, as error messages show a value. Single quotes are used unless the text holds a single
quote and no double one. A backslash and the quote in use are escaped, as are the line controls; a
character that cannot be printed is given by its code point in two, four or eight digits.
-/

namespace ChipEight.Text

def singleQuote : Char := '\x27'

def doubleQuote : Char := '\x22'

/-- The code point of a character in at least `width` lower-case hexadecimal digits. -/
def codePoint (width : Nat) (c : Char) : List Char :=
  (Nat.toDigits 16 c.toNat).leftpad width '0'

/-- One character between the quotes `quote`. -/
def escape (quote : Char) (c : Char) : List Char :=
  if c = '\\' ∨ c = quote then ['\\', c]
  else if c = '\n' then ['\\', 'n']
  else if c = '\r' then ['\\', 'r']
  else if c = '\t' then ['\\', 't']
  else if isPrintable c then [c]
  else if c.toNat < 0x100 then '\\' :: 'x' :: codePoint 2 c
  else if c.toNat < 0x10000 then '\\' :: 'u' :: codePoint 4 c
  else '\\' :: 'U' :: codePoint 8 c

def quoted (s : String) : String :=
  let chars := s.toList
  let quote := if singleQuote ∈ chars ∧ doubleQuote ∉ chars then doubleQuote else singleQuote
  String.ofList (quote :: chars.flatMap (escape quote) ++ [quote])

end ChipEight.Text
