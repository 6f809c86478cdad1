import ChipEight.Answer
import ChipEight.Table
import ChipEight.Refusal

/-!
The 4096 bytes of memory. The glyphs of the sixteen hexadecimal digits lie at the bottom and
programs start at `programStart`. An address is reduced to twelve bits, so every access meets a
cell, and an access that runs past the last cell goes on at the first.
-/

namespace ChipEight

abbrev Memory := Table 12 Byte

namespace Memory

def size : Nat := 0x1000

def programStart : Nat := 0x200

/-- The longest program that fits above `programStart`. -/
def programCapacity : Nat := size - programStart

/-- The glyphs of the digits 0 to F, four pixels wide and five rows high. -/
def font : List Byte :=
  [0xF0, 0x90, 0x90, 0x90, 0xF0,
   0x20, 0x60, 0x20, 0x20, 0x70,
   0xF0, 0x10, 0xF0, 0x80, 0xF0,
   0xF0, 0x10, 0xF0, 0x10, 0xF0,
   0x90, 0x90, 0xF0, 0x10, 0x10,
   0xF0, 0x80, 0xF0, 0x10, 0xF0,
   0xF0, 0x80, 0xF0, 0x90, 0xF0,
   0xF0, 0x10, 0x20, 0x40, 0x40,
   0xF0, 0x90, 0xF0, 0x90, 0xF0,
   0xF0, 0x90, 0xF0, 0x10, 0xF0,
   0xF0, 0x90, 0xF0, 0x90, 0x90,
   0xE0, 0x90, 0xE0, 0x90, 0xE0,
   0xF0, 0x80, 0x80, 0x80, 0xF0,
   0xE0, 0x90, 0x90, 0x90, 0xE0,
   0xF0, 0x80, 0xF0, 0x80, 0xF0,
   0xF0, 0x80, 0xF0, 0x80, 0x80]

def glyph (digit : Nibble) : Address := 5 * digit.setWidth 12

def loadFont (m : Memory) : Memory := m.write 0 font

/-- Memory as it is when the machine is switched on: the glyphs, and zero above them. -/
def fresh : Memory := loadFont (Table.fill 12 0)

/-- Writes zero to every cell, and the glyphs again. -/
def reset (m : Memory) : Memory := loadFont { m with cells := Vector.replicate size 0 }

theorem reset_eq_fresh (m : Memory) : m.reset = fresh := rfl

def wordAt (m : Memory) (a : Address) : Word := Word.ofBytes (m.get a) (m.get (a + 1))

def readByte (m : Memory) (a : Int) : Byte := m.get (BitVec.ofInt 12 a)

def readWord (m : Memory) (a : Int) : Word := Word.ofBytes (m.readByte a) (m.readByte (a + 1))

/-- The bytes from `a` on; none if `length` is not positive. -/
def readBlock (m : Memory) (a length : Int) : List Byte :=
  (List.range length.toNat).map fun (k : Nat) => m.readByte (a + k)

/-- Stores the low byte of `value` at any integer address. -/
def writeByte (m : Memory) (a value : Int) : Memory :=
  m.set (BitVec.ofInt 12 a) (BitVec.ofInt 8 value)

/-- Copies an image to the cells from `start` on. An image that would run past the last cell is
refused, and memory stays as it was. -/
def load (m : Memory) (data : List Byte) (start : Int) : Except Refusal Memory :=
  let capacity := (size : Int) - start
  if (data.length : Int) > capacity then .error (.imageTooLarge data.length capacity)
  else .ok (m.write (BitVec.ofInt 12 start) data)

inductive Call
  | readByte (a : Int)
  | readWord (a : Int)
  | readBlock (a length : Int)
  | writeByte (a value : Int)
  | load (data : List Byte) (start : Int)
  | reset
  | dump
deriving DecidableEq

/-- Memory after a call, and the answer. A refused call changes nothing. -/
def perform (m : Memory) : Call → Memory × Except Refusal Answer
  | .readByte a => (m, .ok (.number (m.readByte a).toNat))
  | .readWord a => (m, .ok (.number (m.readWord a).toNat))
  | .readBlock a length => (m, .ok (.bytes (m.readBlock a length)))
  | .writeByte a value => (m.writeByte a value, .ok .done)
  | .load data start =>
    match m.load data start with
    | .ok m' => (m', .ok .done)
    | .error e => (m, .error e)
  | .reset => (m.reset, .ok .done)
  | .dump => (m, .ok (.bytes m.toList))

end Memory

end ChipEight
