import ChipEight.Word

/-!
The instruction set. `Instruction.decode` sends each of the 65536 words to one instruction; an
operand that has no effect (the second register of a shift) is not kept, so two words that decode
alike do the same. Words outside the table decode to `data` and are executed as "do nothing", as
are the calls of the host's own routines (`sys`).
-/

namespace ChipEight

/-- The two-operand operations between registers that write the first one. -/
inductive Arith
  | copy | or | and | xor | add | sub | subFrom
deriving DecidableEq, Repr

inductive Instruction
  | clear
  | ret
  /-- A call of a routine of the host processor, ignored. -/
  | sys (target : Address)
  | jump (target : Address)
  | call (target : Address)
  | skipIfByte (x : Nibble) (value : Byte)
  | skipUnlessByte (x : Nibble) (value : Byte)
  | skipIfEqual (x y : Nibble)
  | skipUnlessEqual (x y : Nibble)
  | loadByte (x : Nibble) (value : Byte)
  /-- `Vx := Vx + value`, without carry. -/
  | addByte (x : Nibble) (value : Byte)
  /-- `Vx := Vx op Vy`. -/
  | arith (op : Arith) (x y : Nibble)
  | shiftRight (x : Nibble)
  | shiftLeft (x : Nibble)
  | loadIndex (target : Address)
  /-- Continue at `target + V0`. -/
  | jumpOffset (target : Address)
  | random (x : Nibble) (mask : Byte)
  /-- Draw `height` rows from `I` at `(Vx, Vy)`. -/
  | draw (x y height : Nibble)
  | skipIfKey (x : Nibble)
  | skipUnlessKey (x : Nibble)
  | readDelay (x : Nibble)
  /-- Suspend until a key goes down, then put it into `Vx`. -/
  | awaitKey (x : Nibble)
  | setDelay (x : Nibble)
  | setSound (x : Nibble)
  /-- `I := I + Vx` in twelve bits. -/
  | addIndex (x : Nibble)
  /-- `I :=` the glyph of the digit in `Vx`. -/
  | glyph (x : Nibble)
  | decimal (x : Nibble)
  | store (x : Nibble)
  | load (x : Nibble)
  /-- A word that is no instruction. -/
  | data (word : Word)
deriving DecidableEq, Repr

namespace Instruction

/-- Class 8: the low nibble selects the operation between registers. -/
def decodeArith (w : Word) : Instruction :=
  match w.n.toNat with
  | 0x0 => arith .copy w.x w.y
  | 0x1 => arith .or w.x w.y
  | 0x2 => arith .and w.x w.y
  | 0x3 => arith .xor w.x w.y
  | 0x4 => arith .add w.x w.y
  | 0x5 => arith .sub w.x w.y
  | 0x6 => shiftRight w.x
  | 0x7 => arith .subFrom w.x w.y
  | 0xE => shiftLeft w.x
  | _ => data w

/-- Class F: the low byte selects the operation on timers, keys, index or memory. -/
def decodeMisc (w : Word) : Instruction :=
  match w.kk.toNat with
  | 0x07 => readDelay w.x
  | 0x0A => awaitKey w.x
  | 0x15 => setDelay w.x
  | 0x18 => setSound w.x
  | 0x1E => addIndex w.x
  | 0x29 => glyph w.x
  | 0x33 => decimal w.x
  | 0x55 => store w.x
  | 0x65 => load w.x
  | _ => data w

def decode (w : Word) : Instruction :=
  match w.opClass.toNat with
  | 0x0 => if w = 0x00E0#16 then clear else if w = 0x00EE#16 then ret else sys w.nnn
  | 0x1 => jump w.nnn
  | 0x2 => call w.nnn
  | 0x3 => skipIfByte w.x w.kk
  | 0x4 => skipUnlessByte w.x w.kk
  | 0x5 => if w.n = 0 then skipIfEqual w.x w.y else data w
  | 0x6 => loadByte w.x w.kk
  | 0x7 => addByte w.x w.kk
  | 0x8 => decodeArith w
  | 0x9 => if w.n = 0 then skipUnlessEqual w.x w.y else data w
  | 0xA => loadIndex w.nnn
  | 0xB => jumpOffset w.nnn
  | 0xC => random w.x w.kk
  | 0xD => draw w.x w.y w.n
  | 0xE =>
    if w.kk = 0x9E then skipIfKey w.x else if w.kk = 0xA1 then skipUnlessKey w.x else data w
  | _ => decodeMisc w

end Instruction

end ChipEight
