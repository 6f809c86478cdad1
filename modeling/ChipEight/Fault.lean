import ChipEight.Text.Hex

/-!
Faults of the running program. The only thing that can go wrong is the stack: a call when it is
full, or a return when it is empty.
-/

namespace ChipEight

inductive FaultCause
  | stackOverflow
  | stackUnderflow
deriving DecidableEq, Repr

/-- A fault, with the place and the word of the instruction that caused it. -/
structure Fault where
  cause : FaultCause
  pc : Word
  opcode : Word
deriving DecidableEq, Repr

namespace Fault

def reason : FaultCause → String
  | .stackOverflow => "CALL con la pila llena (15 llamadas anidadas)"
  | .stackUnderflow => "RET con la pila vacía"

def message (f : Fault) : String :=
  reason f.cause ++ " (PC=0x" ++ Hex.pointer f.pc ++ ", opcode=0x" ++ Hex.word f.opcode ++ ")"

end Fault

end ChipEight
