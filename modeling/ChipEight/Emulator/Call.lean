import ChipEight.Emulator.Run
import ChipEight.Machine.Call

/-!
The calls that an emulator without a window answers: those of its machine, and those of the host.
-/

namespace ChipEight.Emulator

inductive Call
  | machine (call : Machine.Call)
  /-- Load the program file at a path, where `found` lies. -/
  | loadRom (path : String) (found : Entry)
  | restart
  | run (maxFrames : Int)
  | handle (input : Keyboard.Input)
  | keyMap
deriving DecidableEq

/-- The emulator after a call, and the answer. A refused call changes nothing. -/
def perform (e : Emulator) : Call → Emulator × Except Refusal Answer
  | .machine call =>
    let (monitor, answer) := Board.perform e.monitor call
    ({ e with monitor }, answer)
  | .loadRom path found =>
    match e.loadRom path found with
    | .ok e => (e, .ok .done)
    | .error refusal => (e, .error refusal)
  | .restart => (e.restart, .ok .done)
  | .run maxFrames =>
    match e.run maxFrames with
    | .ok e => (e, .ok .done)
    | .error refusal => (e, .error refusal)
  | .handle input =>
    let (e, goesOn) := e.handle input
    (e, .ok (.flag goesOn))
  | .keyMap => (e, .ok (.keyMap e.keyMap))

end ChipEight.Emulator
