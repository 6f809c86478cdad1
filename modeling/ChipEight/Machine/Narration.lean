import ChipEight.Journal.Event
import ChipEight.Machine.Step

/-!
What the machine reports when it is operated, in the order in which it does: an operation is told as a
sequence of changes with the reports in between (`stepTold` tells `step`). What is told leads to the same
state as the bare operation, and its events can be read off the state before (`Machine.stepTold_eq` and
its siblings).
-/

namespace ChipEight

/-- What an operation leads to, and what it reports on the way. -/
structure Told (α : Type) where
  outcome : α
  events : List Event

namespace Told

instance : Monad Told where
  pure a := ⟨a, []⟩
  bind t f := ⟨(f t.outcome).outcome, t.events ++ (f t.outcome).events⟩

variable {α β : Type}

@[simp] theorem pure_eq (a : α) : (pure a : Told α) = ⟨a, []⟩ := rfl

@[simp] theorem bind_eq (t : Told α) (f : α → Told β) :
    t >>= f = ⟨(f t.outcome).outcome, t.events ++ (f t.outcome).events⟩ := rfl

end Told

def tell (e : Event) : Told Unit := ⟨(), [e]⟩

/-! ## Timers and keypad -/

namespace Timers

/-- The switching of the tone generator between two states of the timers. -/
def switching (before after : Timers) : List Event :=
  if before.tone = after.tone then [] else [.toneSwitched after.tone after.sound]

def settleTold (t : Timers) : Told Timers := do
  let tone : Bool := t.sound ≠ 0
  if tone ≠ t.tone then tell (.toneSwitched tone t.sound)
  return { t with tone }

def tickTold (t : Timers) : Told Timers :=
  settleTold { t with delay := countDown t.delay, sound := countDown t.sound }

def setSoundTold (t : Timers) (b : Byte) : Told Timers := settleTold { t with sound := b }

theorem settleTold_eq (t : Timers) : t.settleTold = ⟨t.settle, t.switching t.settle⟩ := by
  unfold settleTold settle switching
  generalize decide (t.sound ≠ 0) = tone
  by_cases same : tone = t.tone
  · simp [same]
  · simp [same, Ne.symm same, tell]

theorem tickTold_eq (t : Timers) : t.tickTold = ⟨t.tick, t.switching t.tick⟩ := settleTold_eq _

theorem setSoundTold_eq (t : Timers) (b : Byte) :
    t.setSoundTold b = ⟨t.setSound b, t.switching (t.setSound b)⟩ := settleTold_eq _

end Timers

namespace Keypad

/-- What a key going down makes the keypad report. -/
def pressEvents (p : Keypad) (k : Nibble) : List Event :=
  match p.latch with
  | .armed => [.keyHeld k, .keyDown k]
  | _ => [.keyDown k]

theorem pressEvents_of_not_armed {p : Keypad} (other : p.latch ≠ .armed) (k : Nibble) :
    p.pressEvents k = [.keyDown k] := by
  unfold pressEvents
  split
  · contradiction
  · rfl

def pressTold (p : Keypad) (k : Nibble) : Told Keypad := do
  let mut p := { p with down := p.down.set k true }
  if p.armed ∧ p.latched = none then
    p := { p with latched := some k }
    tell (.keyHeld k)
  tell (.keyDown k)
  return p

def releaseTold (p : Keypad) (k : Nibble) : Told Keypad := do
  let p := p.release k
  tell (.keyUp k)
  return p

theorem pressTold_eq (p : Keypad) (k : Nibble) : p.pressTold k = ⟨p.press k, p.pressEvents k⟩ := by
  unfold pressTold
  by_cases armed : p.latch = .armed
  · rw [press_of_armed armed, pressEvents, armed]
    simp [latch_eq_armed_iff.mp armed, tell]
  · have unarmed : ¬ (p.armed = true ∧ p.latched = none) := fun h => armed (latch_eq_armed_iff.mpr h)
    rw [press_of_not_armed armed, pressEvents_of_not_armed armed]
    simp [unarmed, tell]

end Keypad

/-! ## Instructions -/

namespace Instruction

/-- What an instruction reports besides being executed. -/
def events (m : Machine) (opcode : Word) : Instruction → List Event
  | sys _ | data _ => [.ignored m.registers.pc opcode]
  | awaitKey x => [.waitStarted x]
  | setSound x => m.timers.switching (m.timers.setSound (m.registers.get x))
  | _ => []

/-- `execute`, as it is told. -/
def executeTold (m : Machine) (opcode : Word) : Instruction → Told (Machine × Advance)
  | sys _ | data _ => do
    tell (.ignored m.registers.pc opcode)
    return (m, .next)
  | awaitKey x => do
    let m := { m with keypad := m.keypad.arm, isWaiting := true, waitRegister := x }
    tell (.waitStarted x)
    return (m, .hold)
  | setSound x => do
    let timers ← m.timers.setSoundTold (m.registers.get x)
    return ({ m with timers }, .next)
  | i => return i.execute m

theorem executeTold_eq (m : Machine) (opcode : Word) (i : Instruction) :
    i.executeTold m opcode = ⟨i.execute m, i.events m opcode⟩ := by
  cases i with
  | setSound x =>
    rw [executeTold, Timers.setSoundTold_eq]
    simp [execute, events]
  | _ => rfl

theorem events_dispatched (m : Machine) (opcode w : Word) :
    w.dispatched.events m opcode = (decode w).events m opcode := by
  rcases w.dispatched_eq with same | ⟨sys, data⟩
  · rw [same]
  · rw [sys, data]
    rfl

end Instruction

/-! ## The machine -/

namespace Machine

/-- Making the parts of a machine. -/
def partsEvents : List Event := [.keypadReady, .timersReady]

/-- Making a machine. -/
def creationEvents : List Event := partsEvents ++ [.machineReady]

def resetEvents : List Event := [.memoryReset, .machineReset]

def loadEvents (size : Nat) : List Event :=
  resetEvents ++ [.imageCopied size, .programLoaded size]

def tickEvents (m : Machine) : List Event := m.timers.switching m.timers.tick

/-- Executing a word that was fetched at the program counter. -/
def dispatchEvents (m : Machine) (w : Word) : List Event :=
  let i := w.dispatched
  .executing m.registers.pc w ::
    match i.fault? m.registers with
    | some cause => [.faulted ⟨cause, m.registers.pc, w⟩]
    | none => i.events m w

/-- Looking for a key that ends the wait. -/
def resumeEvents (m : Machine) : List Event :=
  match m.keypad.take.2 with
  | some key => [.waitEnded m.waitRegister key]
  | none => []

def stepEvents (m : Machine) : List Event :=
  match m.mode with
  | .halted _ => []
  | .awaiting _ => m.resumeEvents
  | .running => m.dispatchEvents m.fetch

def resetTold (m : Machine) : Told Machine := do
  let m := { m with memory := m.memory.reset }
  tell .memoryReset
  let m := m.resetProcessor
  let m := { m with display := m.display.clear }
  let m := { m with keypad := m.keypad.reset }
  let m := { m with timers := m.timers.reset }
  let m := { m with programSize := 0 }
  tell .machineReset
  return m

def loadTold (m : Machine) (data : List Byte) : Except Refusal (Told Machine) :=
  if data.length > Memory.programCapacity then
    .error (.imageTooLarge data.length Memory.programCapacity)
  else .ok do
    let m ← m.resetTold
    let start := BitVec.ofNat 12 Memory.programStart
    let m := { m with memory := m.memory.write start data }
    tell (.imageCopied data.length)
    let m := { m with programSize := data.length }
    tell (.programLoaded data.length)
    return m

def tickTold (m : Machine) : Told Machine := do
  let timers ← m.timers.tickTold
  return { m with timers }

def pressTold (m : Machine) (k : Nibble) : Told Machine := do
  let keypad ← m.keypad.pressTold k
  return { m with keypad }

def releaseTold (m : Machine) (k : Nibble) : Told Machine := do
  let keypad ← m.keypad.releaseTold k
  return { m with keypad }

def setSoundTold (m : Machine) (b : Byte) : Told Machine := do
  let timers ← m.timers.setSoundTold b
  return { m with timers }

def dispatchTold (m : Machine) (w : Word) : Told (Machine × StepResult) := do
  let pc := m.registers.pc
  tell (.executing pc w)
  let i := w.dispatched
  match i.fault? m.registers with
  | some cause =>
    let m := { m with fault := some ⟨cause, pc, w⟩ }
    tell (.faulted ⟨cause, pc, w⟩)
    return (m, .fault)
  | none =>
    let (m, advance) ← i.executeTold m w
    let m := m.complete advance
    return (m, m.outcome)

def resumeTold (m : Machine) : Told (Machine × StepResult) :=
  match m.keypad.take with
  | (keypad, some key) => do
    let registers := m.registers.set m.waitRegister (key.setWidth 8)
    let m := complete { m with keypad, registers, isWaiting := false } .next
    tell (.waitEnded m.waitRegister key)
    return (m, .ok)
  | (_, none) => return (m, .waiting)

def stepTold (m : Machine) : Told (Machine × StepResult) :=
  if m.fault.isSome then return (m, .fault)
  else if m.isWaiting then m.resumeTold
  else m.dispatchTold m.fetch

theorem resetTold_eq (m : Machine) : m.resetTold = ⟨m.reset, resetEvents⟩ := rfl

theorem loadTold_eq (m : Machine) (data : List Byte) :
    m.loadTold data = (m.load data).map fun loaded => ⟨loaded, loadEvents data.length⟩ := by
  unfold loadTold load
  split <;> rfl

theorem tickTold_eq (m : Machine) : m.tickTold = ⟨m.tick, m.tickEvents⟩ := by
  rw [tickTold, Timers.tickTold_eq]
  simp [tick, tickEvents]

theorem pressTold_eq (m : Machine) (k : Nibble) :
    m.pressTold k = ⟨m.press k, m.keypad.pressEvents k⟩ := by
  rw [pressTold, Keypad.pressTold_eq]
  simp [press]

theorem releaseTold_eq (m : Machine) (k : Nibble) : m.releaseTold k = ⟨m.release k, [.keyUp k]⟩ := rfl

theorem setSoundTold_eq (m : Machine) (b : Byte) :
    m.setSoundTold b = ⟨{ m with timers := m.timers.setSound b },
      m.timers.switching (m.timers.setSound b)⟩ := by
  rw [setSoundTold, Timers.setSoundTold_eq]
  simp

theorem dispatchTold_eq (m : Machine) (w : Word) :
    m.dispatchTold w = ⟨m.dispatch w, m.dispatchEvents w⟩ := by
  simp only [dispatchTold, dispatch, dispatchEvents]
  cases w.dispatched.fault? m.registers with
  | some cause => rfl
  | none =>
    rw [Instruction.executeTold_eq]
    simp [tell]

theorem resumeTold_eq (m : Machine) : m.resumeTold = ⟨m.resume, m.resumeEvents⟩ := by
  unfold resumeTold resume resumeEvents
  rcases m.keypad.take with ⟨keypad, none | key⟩ <;> rfl

/-- A step that is told leads where a step leads, and reports what can be read off the state before. -/
theorem stepTold_eq (m : Machine) : m.stepTold = ⟨m.step, m.stepEvents⟩ := by
  rw [step_eq]
  unfold stepTold stepEvents mode
  cases m.fault with
  | some f => rfl
  | none =>
    cases m.isWaiting with
    | true => exact resumeTold_eq m
    | false => exact dispatchTold_eq m m.fetch

end Machine

end ChipEight
