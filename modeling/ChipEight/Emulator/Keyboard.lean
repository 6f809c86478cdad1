import ChipEight.Word

/-!
The keyboard of the host. The left four columns of a QWERTY keyboard stand for the sixteen keys as
they are laid out on the machine:

    1 2 3 4      1 2 3 C
    q w e r      4 5 6 D
    a s d f      7 8 9 E
    z x c v      A 0 B F

A letter or digit has its ASCII code. The escape key closes the window and F5 starts the program
again.
-/

namespace ChipEight.Keyboard

/-- The characters of the keyboard with the keys they stand for, ascending by code. -/
def layout : List (Char × Nibble) :=
  [('1', 0x1), ('2', 0x2), ('3', 0x3), ('4', 0xC),
   ('a', 0x7), ('c', 0xB), ('d', 0x9), ('e', 0x6), ('f', 0xE), ('q', 0x4), ('r', 0xD), ('s', 0x8),
   ('v', 0xF), ('w', 0x5), ('x', 0x0), ('z', 0xA)]

def keyMap : List (Int × Nibble) := layout.map fun (c, k) => (c.toNat, k)

def escape : Int := 27

def restart : Int := 1073741886

def key? (code : Int) : Option Nibble := (keyMap.find? fun (c, _) => c == code).map (·.2)

/-- What the host's window system reports. -/
inductive Input
  | quit
  | keyDown (code : Int)
  | keyUp (code : Int)
  /-- Anything the emulator takes no notice of. -/
  | other
deriving DecidableEq

end ChipEight.Keyboard
