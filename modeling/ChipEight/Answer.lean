import ChipEight.Binary64
import ChipEight.Word

/-!
What a call answers. Every part of the machine is driven by calls (`Memory.Call`, `Machine.Call` and
so on), and all of them answer with a value of this one type.
-/

namespace ChipEight

/-- The outcome of one step of the machine. -/
inductive StepResult
  | ok
  | waiting
  | fault
deriving DecidableEq, Repr

/-- The value that a call returns. -/
inductive Answer
  | done
  | flag (b : Bool)
  | flags (bs : List Bool)
  | number (n : Int)
  | numbers (ns : List Nat)
  | bytes (data : List Byte)
  | key (k : Option Nibble)
  | text (s : String)
  /-- A picture: the rows from the top, each from the left. -/
  | frame (rows : List (List Bool))
  | result (r : StepResult)
  | results (rs : List StepResult)
  | ratio (x : Binary64)
  /-- Which key of the machine each key code of the host stands for. -/
  | keyMap (entries : List (Int × Nibble))
deriving DecidableEq

end ChipEight
