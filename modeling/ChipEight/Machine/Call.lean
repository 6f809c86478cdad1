import ChipEight.Machine.Board

/-!
The calls that a machine answers: its operation, its inspection, and the direct writes of memory and
registers that a debugger makes. Integers are reduced to the width of what they are written to; only
a key has to be in range.
-/

namespace ChipEight

inductive Machine.Call
  | reset
  | load (data : List Byte)
  | step
  | steps (n : Nat)
  | run (n : Int)
  | tick
  | ticks (n : Nat)
  | press (k : Int)
  | release (k : Int)
  | isDown (k : Int)
  | frame
  | look
  | read (a length : Int)
  | fetch
  | litCount
  | poke (a value : Int)
  | setV (x value : Int)
  | setI (value : Int)
  | setPc (value : Int)
  | setDelay (value : Int)
  | setSound (value : Int)
  | describe
deriving DecidableEq

namespace Board

variable {σ : Type} [Board σ]

/-- The board after a key went down or up, if there is such a key. -/
def withKey (b : σ) (k : Int) (act : σ → Nibble → σ) : σ × Except Refusal Answer :=
  match Keypad.key k with
  | .ok k => (act b k, .ok .done)
  | .error e => (b, .error e)

/-- Writes the sound timer, which may switch the tone. -/
def writeSound (b : σ) (value : Byte) : σ := follow b ((machine b).setSoundTold value)

theorem writeSound_eq (b : σ) (value : Byte) :
    writeSound b value = update b
      { machine b with timers := (machine b).timers.setSound value }
      ((machine b).timers.switching ((machine b).timers.setSound value)) := by
  rw [writeSound, Machine.setSoundTold_eq]
  rfl

/-- The board after a call, and the answer. A refused call changes nothing. -/
def perform (b : σ) : Machine.Call → σ × Except Refusal Answer
  | .reset => (reset b, .ok .done)
  | .load data =>
    match load b data with
    | .ok b => (b, .ok .done)
    | .error e => (b, .error e)
  | .step =>
    let (b, result) := step b
    (b, .ok (.result result))
  | .steps n =>
    let (b, results) := steps b n
    (b, .ok (.results results))
  | .run n =>
    let (b, result) := run b n.toNat
    (b, .ok (.result result))
  | .tick =>
    let (b, tone) := tick b
    (b, .ok (.flag tone))
  | .ticks n =>
    let (b, tones) := ticks b n
    (b, .ok (.flags tones))
  | .press k => withKey b k press
  | .release k => withKey b k release
  | .isDown k => (b, .ok (.flag ((machine b).keypad.isDown (BitVec.ofInt 4 k))))
  | .frame => (b, .ok (.frame (machine b).display.frame))
  | .look =>
    let (b, dirty) := look b
    (b, .ok (.flag dirty))
  | .read a length => (b, .ok (.bytes ((machine b).memory.readBlock a length)))
  | .fetch => (b, .ok (.number (machine b).fetch.toNat))
  | .litCount => (b, .ok (.number (machine b).display.litCount))
  | .poke a value =>
    (adjust b fun m => { m with memory := m.memory.writeByte a value }, .ok .done)
  | .setV x value =>
    let write (r : Registers) := r.set (BitVec.ofInt 4 x) (BitVec.ofInt 8 value)
    (adjust b fun m => { m with registers := write m.registers }, .ok .done)
  | .setI value =>
    (adjust b fun m => { m with registers := { m.registers with i := BitVec.ofInt 16 value } },
      .ok .done)
  | .setPc value =>
    (adjust b fun m => { m with registers := { m.registers with pc := BitVec.ofInt 16 value } },
      .ok .done)
  | .setDelay value =>
    (adjust b fun m => { m with timers := m.timers.setDelay (BitVec.ofInt 8 value) }, .ok .done)
  | .setSound value => (writeSound b (BitVec.ofInt 8 value), .ok .done)
  | .describe => (b, .ok (.text (machine b).registers.describe))

theorem writeSound_machine (m : Machine) (value : Byte) :
    writeSound m value = { m with timers := m.timers.setSound value } := writeSound_eq m value

end Board

end ChipEight
