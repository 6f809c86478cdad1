import ChipEight.Instruction.Dispatch
import ChipEight.Machine.Basic

/-!
The execution of instructions. `Instruction.execute` says what an instruction does to the machine
and how far the program counter moves afterwards; `Machine.step` is one turn of the cycle. The two
instructions that can fail are tested before they change anything, so a fault changes nothing but
what is recorded of it.
-/

namespace ChipEight

/-- How far the program counter moves after an instruction. -/
inductive Advance
  | next
  | skip
  /-- Not at all: the instruction has set it, or waits. -/
  | hold
deriving DecidableEq, Repr

namespace Advance

def amount : Advance → Word
  | next => 2
  | skip => 4
  | hold => 0

def skipIf (condition : Bool) : Advance := if condition then skip else next

end Advance

/-- The result of an operation between registers, and the flag if the operation has one. A
comparison that decides the flag is strict: equal operands leave it at 0. -/
def Arith.apply (a b : Byte) : Arith → Byte × Option Bool
  | .copy => (b, none)
  | .or => (a ||| b, none)
  | .and => (a &&& b, none)
  | .xor => (a ^^^ b, none)
  | .add => (a + b, some (a.toNat + b.toNat > 255))
  | .sub => (a - b, some (b < a))
  | .subFrom => (b - a, some (a < b))

/-- The hundreds, tens and units of a byte. -/
def Byte.decimals (b : Byte) : List Byte := [b / 100, b / 10 % 10, b % 10]

namespace Registers

/-- Writes a result and then its flag, which therefore wins if the result goes to the flag
register. -/
def put (r : Registers) (x : Nibble) (result : Byte) : Option Bool → Registers
  | none => r.set x result
  | some flag => (r.set x result).setFlag flag

end Registers

namespace Instruction

def fault? (r : Registers) : Instruction → Option FaultCause
  | ret => if r.sp = 0 then some .stackUnderflow else none
  | call _ => if r.sp ≥ Registers.maxDepth then some .stackOverflow else none
  | _ => none

/-- The registers after an instruction that reads and writes nothing else. -/
def executeRegisters (r : Registers) : Instruction → Registers
  | ret => r.pop
  | jump target => { r with pc := target.setWidth 16 }
  | call target => r.push target
  | loadByte x b => r.set x b
  | addByte x b => r.set x (r.get x + b)
  | arith op x y =>
    let (result, flag) := op.apply (r.get x) (r.get y)
    r.put x result flag
  | shiftRight x => r.put x (r.get x >>> 1) (some ((r.get x).getLsbD 0))
  | shiftLeft x => r.put x (r.get x <<< 1) (some (r.get x).msb)
  | loadIndex target => { r with i := target.setWidth 16 }
  | jumpOffset target => { r with pc := (target + (r.get 0).setWidth 12).setWidth 16 }
  | addIndex x => { r with i := (r.i + (r.get x).setWidth 16).address.setWidth 16 }
  | glyph x => { r with i := (Memory.glyph (r.get x).nibble).setWidth 16 }
  | _ => r

/-- Draws the sprite at `I` and leaves the collision in the flag. -/
def executeDraw (m : Machine) (x y height : Nibble) : Machine :=
  let r := m.registers
  let sprite := m.memory.read r.i.address height.toNat
  let (display, collision) := m.display.draw (r.get x).toNat (r.get y).toNat sprite
  { m with display, registers := r.setFlag collision }

/-- What an instruction that causes no fault does, and how the program counter moves then. -/
def execute (m : Machine) (i : Instruction) : Machine × Advance :=
  let r := m.registers
  match i with
  | clear => ({ m with display := m.display.clear }, .next)
  | jump _ | call _ | jumpOffset _ => ({ m with registers := executeRegisters r i }, .hold)
  | skipIfByte x b => (m, .skipIf (r.get x = b))
  | skipUnlessByte x b => (m, .skipIf (r.get x ≠ b))
  | skipIfEqual x y => (m, .skipIf (r.get x = r.get y))
  | skipUnlessEqual x y => (m, .skipIf (r.get x ≠ r.get y))
  | random x mask =>
    let (b, rest) := m.random.byte
    ({ m with random := rest, registers := r.set x (b &&& mask) }, .next)
  | draw x y height => (executeDraw m x y height, .next)
  | skipIfKey x => (m, .skipIf (m.keypad.isDown (r.get x).nibble))
  | skipUnlessKey x => (m, .skipIf (!m.keypad.isDown (r.get x).nibble))
  | readDelay x => ({ m with registers := r.set x m.timers.delay }, .next)
  | awaitKey x =>
    ({ m with keypad := m.keypad.arm, isWaiting := true, waitRegister := x }, .hold)
  | setDelay x => ({ m with timers := m.timers.setDelay (r.get x) }, .next)
  | setSound x => ({ m with timers := m.timers.setSound (r.get x) }, .next)
  | decimal x => ({ m with memory := m.memory.write r.i.address (r.get x).decimals }, .next)
  | store x => ({ m with memory := m.memory.write r.i.address (r.upTo x) }, .next)
  | load x =>
    ({ m with registers := r.putFront (m.memory.read r.i.address (x.toNat + 1)) }, .next)
  | _ => ({ m with registers := executeRegisters r i }, .next)

theorem fault?_dispatched (w : Word) (r : Registers) :
    w.dispatched.fault? r = (decode w).fault? r := by
  rcases w.dispatched_eq with same | ⟨sys, data⟩
  · rw [same]
  · rw [sys, data]
    rfl

theorem execute_dispatched (w : Word) (m : Machine) :
    w.dispatched.execute m = (decode w).execute m := by
  rcases w.dispatched_eq with same | ⟨sys, data⟩
  · rw [same]
  · rw [sys, data]
    rfl

end Instruction

namespace Machine

/-- Counts an executed instruction and moves the program counter. -/
def complete (m : Machine) (advance : Advance) : Machine :=
  { m with registers := m.registers.advance advance.amount, executed := m.executed + 1 }

def outcome (m : Machine) : StepResult := if m.isWaiting then .waiting else .ok

/-- Executes a word that was fetched at the program counter. -/
def dispatch (m : Machine) (w : Word) : Machine × StepResult :=
  let i := w.dispatched
  match i.fault? m.registers with
  | some cause => ({ m with fault := some ⟨cause, m.registers.pc, w⟩ }, .fault)
  | none =>
    let (after, advance) := i.execute m
    let after := after.complete advance
    (after, after.outcome)

/-- Ends the wait for a key if one is held: it goes to the register that waits for it, and the program
goes on. -/
def resume (m : Machine) : Machine × StepResult :=
  match m.keypad.take with
  | (keypad, some key) =>
    let registers := m.registers.set m.waitRegister (key.setWidth 8)
    (complete { m with keypad, registers, isWaiting := false } .next, .ok)
  | (_, none) => (m, .waiting)

def step (m : Machine) : Machine × StepResult :=
  if m.fault.isSome then (m, .fault)
  else if m.isWaiting then m.resume
  else m.dispatch m.fetch

theorem step_eq (m : Machine) : m.step = match m.mode with
    | .halted _ => (m, .fault)
    | .awaiting _ => m.resume
    | .running => m.dispatch m.fetch := by
  unfold step mode
  cases m.fault <;> cases m.isWaiting <;> rfl

end Machine

end ChipEight
