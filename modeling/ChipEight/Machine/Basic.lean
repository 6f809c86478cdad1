import ChipEight.Display
import ChipEight.Fault
import ChipEight.Instruction.Basic
import ChipEight.Keypad
import ChipEight.Memory
import ChipEight.Random
import ChipEight.Registers
import ChipEight.Timers

/-!
The state of the machine, and the operations on it that execute no instruction. The machine never
acts by itself: whoever owns it decides when it steps and when its timers tick.
-/

namespace ChipEight

/-- Everything that a program, its inputs and its timers can change. -/
structure Machine where
  memory : Memory
  registers : Registers
  display : Display
  keypad : Keypad
  timers : Timers
  random : Generator
  isWaiting : Bool
  /-- The register for the key, while the machine waits; what it was for the last wait otherwise. -/
  waitRegister : Nibble
  fault : Option Fault
  executed : Nat
  /-- The number of bytes of the program that was loaded, 0 if none was. -/
  programSize : Nat
deriving DecidableEq

/-- What the next step will do: execute an instruction, put the next key that goes down into `Vx`, or
nothing. -/
inductive Mode
  | running
  | awaiting (x : Nibble)
  | halted (fault : Fault)
deriving DecidableEq

namespace Machine

/-- A fault counts for more than a wait. -/
def mode (m : Machine) : Mode :=
  match m.fault with
  | some f => .halted f
  | none => if m.isWaiting then .awaiting m.waitRegister else .running

theorem mode_eq_halted_iff {m : Machine} {f : Fault} : m.mode = .halted f ↔ m.fault = some f := by
  unfold mode
  cases m.fault <;> cases m.isWaiting <;> simp

theorem mode_eq_awaiting_iff {m : Machine} {x : Nibble} :
    m.mode = .awaiting x ↔ m.fault = none ∧ m.isWaiting = true ∧ m.waitRegister = x := by
  unfold mode
  cases m.fault <;> cases m.isWaiting <;> simp

theorem mode_eq_running_iff {m : Machine} :
    m.mode = .running ↔ m.fault = none ∧ m.isWaiting = false := by
  unfold mode
  cases m.fault <;> cases m.isWaiting <;> simp

def fresh (random : Generator) : Machine where
  memory := Memory.fresh
  registers := Registers.fresh
  display := Display.fresh
  keypad := Keypad.fresh
  timers := Timers.fresh
  random := random
  isWaiting := false
  waitRegister := 0
  fault := none
  executed := 0
  programSize := 0

/-- Puts the processor back to its first state: a pending wait or fault is dropped, and the count starts
again. -/
def resetProcessor (m : Machine) : Machine :=
  { m with
    registers := m.registers.reset
    isWaiting := false
    waitRegister := 0
    fault := none
    executed := 0 }

/-- Resets one part after the other, and forgets the program. The source of random bytes runs on. -/
def reset (m : Machine) : Machine :=
  let m := { m with memory := m.memory.reset }
  let m := m.resetProcessor
  let m := { m with display := m.display.clear }
  let m := { m with keypad := m.keypad.reset }
  let m := { m with timers := m.timers.reset }
  { m with programSize := 0 }

theorem reset_eq_fresh (m : Machine) : m.reset = fresh m.random := by
  simp only [reset, resetProcessor, fresh, Memory.reset_eq_fresh, Registers.reset_eq_fresh,
    Display.clear_eq_fresh, Keypad.reset_eq_fresh, Timers.reset_eq_fresh]

/-- Resets the machine and loads a program. One that does not fit is refused before anything
changes. -/
def load (m : Machine) (data : List Byte) : Except Refusal Machine :=
  if data.length > Memory.programCapacity then
    .error (.imageTooLarge data.length Memory.programCapacity)
  else
    let m := m.reset
    .ok { m with
      memory := m.memory.write (BitVec.ofNat 12 Memory.programStart) data
      programSize := data.length }

def fetch (m : Machine) : Word := m.memory.wordAt m.registers.pc.address

def tick (m : Machine) : Machine := { m with timers := m.timers.tick }

def press (m : Machine) (k : Nibble) : Machine := { m with keypad := m.keypad.press k }

def release (m : Machine) (k : Nibble) : Machine := { m with keypad := m.keypad.release k }

/-- Looks at the screen: whether it may have changed since the last look. -/
def look (m : Machine) : Machine × Bool :=
  ({ m with display := { m.display with dirty := false } }, m.display.dirty)

end Machine

end ChipEight
