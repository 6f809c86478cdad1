import ChipEight.Answer
import ChipEight.Table
import ChipEight.Text.Hex

/-!
The register bank: sixteen byte registers, of which the last doubles as the flag, the index `I`, the
program counter and the stack with its pointer. Slot 0 of the stack is never used: a call moves the
pointer up before it stores, so fifteen calls can be open at once.
-/

namespace ChipEight

structure Registers where
  v : Table 4 Byte := Table.fill 4 0
  /-- The index. Memory is addressed by its low twelve bits. -/
  i : Word := 0
  pc : Word := 0x200
  /-- The number of open calls. It is a plain number: whoever sets it answers for its range. -/
  sp : Int := 0
  /-- The addresses of the open calls, the first one in slot 1. -/
  stack : Table 4 Word := Table.fill 4 0
deriving DecidableEq

namespace Registers

def fresh : Registers := {}

def reset (r : Registers) : Registers :=
  { r with v := Table.fill 4 0, i := 0, pc := 0x200, sp := 0, stack := Table.fill 4 0 }

theorem reset_eq_fresh (r : Registers) : r.reset = fresh := rfl

def maxDepth : Int := 15

/-- The register that receives carries, borrows and collisions. -/
def flag : Nibble := 0xF

def get (r : Registers) (x : Nibble) : Byte := r.v.get x

def set (r : Registers) (x : Nibble) (b : Byte) : Registers := { r with v := r.v.set x b }

def setFlag (r : Registers) (b : Bool) : Registers := r.set flag (if b then 1 else 0)

/-- Moves the program counter on, wrapping at sixteen bits. -/
def advance (r : Registers) (amount : Word) : Registers := { r with pc := r.pc + amount }

/-- The stack slot that a stack pointer designates. -/
def slot (sp : Int) : Nibble := BitVec.ofInt 4 sp

/-- Opens a call: the address of the calling instruction goes to the next slot. -/
def push (r : Registers) (target : Address) : Registers :=
  { r with
    sp := r.sp + 1
    stack := r.stack.set (slot (r.sp + 1)) r.pc
    pc := target.setWidth 16 }

/-- Closes a call: the program counter is that of the calling instruction again, and the slot is
cleared. -/
def pop (r : Registers) : Registers :=
  { r with
    sp := r.sp - 1
    stack := r.stack.set (slot r.sp) 0
    pc := r.stack.get (slot r.sp) }

def upTo (r : Registers) (x : Nibble) : List Byte := r.v.read 0 (x.toNat + 1)

/-- The bank with the listed bytes in `V0`, `V1`, and so on. -/
def putFront (r : Registers) (bytes : List Byte) : Registers := { r with v := r.v.write 0 bytes }

/-- One line that shows the bank, the stack slots apart. -/
def describe (r : Registers) : String :=
  let cells := r.v.toList.zipIdx.map fun (b, k) => "V" ++ Hex.padded 1 k ++ "=" ++ Hex.byte b
  "Registers(PC=0x" ++ Hex.pointer r.pc ++ " I=0x" ++ Hex.pointer r.i ++ " SP=" ++ toString r.sp ++
    " " ++ " ".intercalate cells ++ ")"

/-- What can be asked of the bank. Integers are reduced to the width of the register. -/
inductive Call
  | setV (x value : Int)
  | getV (x : Int)
  | setFlag (b : Bool)
  | getFlag
  | setI (value : Int)
  | getI
  | setPc (value : Int)
  | getPc
  | advance (amount : Int)
  | getSp
  | setSp (value : Int)
  | reset
  | describe
deriving DecidableEq

def perform (r : Registers) : Call → Registers × Answer
  | .setV x value => (r.set (BitVec.ofInt 4 x) (BitVec.ofInt 8 value), .done)
  | .getV x => (r, .number (r.get (BitVec.ofInt 4 x)).toNat)
  | .setFlag b => (r.setFlag b, .done)
  | .getFlag => (r, .number (r.get flag).toNat)
  | .setI value => ({ r with i := BitVec.ofInt 16 value }, .done)
  | .getI => (r, .number r.i.toNat)
  | .setPc value => ({ r with pc := BitVec.ofInt 16 value }, .done)
  | .getPc => (r, .number r.pc.toNat)
  | .advance amount => (r.advance (BitVec.ofInt 16 amount), .done)
  | .getSp => (r, .number r.sp)
  | .setSp value => ({ r with sp := value }, .done)
  | .reset => (r.reset, .done)
  | .describe => (r, .text r.describe)

end Registers

end ChipEight
