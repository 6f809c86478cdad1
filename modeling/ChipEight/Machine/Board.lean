import ChipEight.Answer
import ChipEight.Journal.Basic
import ChipEight.Machine.Narration

/-!
A board carries a machine and learns what the machine reports. The bare machine is a board that does
not listen; a monitor is a board that keeps a journal. All that drives a machine (the calls below,
the clock, the emulator) is written once for any board, so it does the same to the machine whether
somebody listens or not.
-/

namespace ChipEight

/-- What carries a machine. -/
class Board (σ : Type) where
  machine : σ → Machine
  /-- Puts the machine into a new state, with what it reported on the way. -/
  update : σ → Machine → List Event → σ

/-- What a lawful board reports back as its machine is what was last put there. -/
class LawfulBoard (σ : Type) [Board σ] : Prop where
  machine_update (b : σ) (m : Machine) (es : List Event) :
    Board.machine (Board.update b m es) = m

attribute [simp] LawfulBoard.machine_update

instance : Board Machine where
  machine m := m
  update _ m _ := m

instance : LawfulBoard Machine := ⟨fun _ _ _ => rfl⟩

/-- A machine and the journal of what it reported. -/
structure Monitor where
  machine : Machine
  journal : Journal
deriving DecidableEq

namespace Monitor

/-- A new machine, whose making is the first thing in the journal. -/
def fresh (random : Generator) : Monitor :=
  ⟨Machine.fresh random, Journal.empty.record Machine.creationEvents⟩

def note (b : Monitor) (e : Event) : Monitor := { b with journal := b.journal.record [e] }

def listening (b : Monitor) (threshold : Level) : Monitor :=
  { b with journal := b.journal.listening threshold }

end Monitor

instance : Board Monitor where
  machine b := b.machine
  update b m es := ⟨m, b.journal.record es⟩

instance : LawfulBoard Monitor := ⟨fun _ _ _ => rfl⟩

namespace Board

variable {σ : Type} [Board σ]

/-- Puts on the board what an operation of its machine leads to. -/
def follow (b : σ) (t : Told Machine) : σ := update b t.outcome t.events

def step (b : σ) : σ × StepResult :=
  let ⟨(after, result), events⟩ := (machine b).stepTold
  (update b after events, result)

theorem step_eq (b : σ) :
    step b = (update b (machine b).step.1 (machine b).stepEvents, (machine b).step.2) := by
  rw [step, Machine.stepTold_eq]

/-- Steps until `n` steps are made or one does not execute an instruction. The answer is the number
of steps that executed one, added to `executed`, and the result of the last step. -/
def burst (b : σ) (executed : Nat) : (n : Nat) → σ × Nat × StepResult
  | 0 => (b, executed, .ok)
  | n + 1 =>
    match step b with
    | (b, .ok) => burst b (executed + 1) n
    | (b, result) => (b, executed, result)

/-- At most `n` steps; it stops early when the machine waits or is halted. The answer is the result
of the last step, and `ok` if there was none. -/
def run (b : σ) (n : Nat) : σ × StepResult :=
  let (b, _, result) := burst b 0 n
  (b, result)

/-- Exactly `n` steps, with their results in front of `results`, the last one first. -/
def stepsOnto (results : List StepResult) (b : σ) : (n : Nat) → σ × List StepResult
  | 0 => (b, results)
  | n + 1 =>
    let (b, result) := step b
    stepsOnto (result :: results) b n

def steps (b : σ) (n : Nat) : σ × List StepResult :=
  let (b, results) := stepsOnto [] b n
  (b, results.reverse)

/-- One tick of the timers, and whether the tone sounds after it. -/
def tick (b : σ) : σ × Bool :=
  let ⟨after, events⟩ := (machine b).tickTold
  (update b after events, after.timers.tone)

theorem tick_eq (b : σ) : tick b =
    (update b (machine b).tick (machine b).tickEvents, (machine b).tick.timers.tone) := by
  rw [tick, Machine.tickTold_eq]

def ticks (b : σ) : (n : Nat) → σ × List Bool
  | 0 => (b, [])
  | n + 1 =>
    let (b, tone) := tick b
    let (b, tones) := ticks b n
    (b, tone :: tones)

def reset (b : σ) : σ := follow b (machine b).resetTold

theorem reset_eq (b : σ) : reset b = update b (machine b).reset Machine.resetEvents := by
  rw [reset, Machine.resetTold_eq]
  rfl

/-- Loads a program; one that does not fit is refused and changes nothing. -/
def load (b : σ) (data : List Byte) : Except Refusal σ :=
  match (machine b).loadTold data with
  | .ok t => .ok (follow b t)
  | .error e => .error e

theorem load_eq (b : σ) (data : List Byte) : load b data =
    ((machine b).load data).map fun m => update b m (Machine.loadEvents data.length) := by
  rw [load, Machine.loadTold_eq]
  cases (machine b).load data <;> rfl

theorem load_of_fits (b : σ) {data : List Byte} (fits : data.length ≤ Memory.programCapacity) :
    ∃ m, (machine b).load data = .ok m ∧
      load b data = .ok (update b m (Machine.loadEvents data.length)) := by
  have room : ¬ data.length > Memory.programCapacity := Nat.not_lt.mpr fits
  rw [load_eq, Machine.load, if_neg room]
  exact ⟨_, rfl, rfl⟩

def press (b : σ) (k : Nibble) : σ := follow b ((machine b).pressTold k)

theorem press_eq (b : σ) (k : Nibble) :
    press b k = update b ((machine b).press k) ((machine b).keypad.pressEvents k) := by
  rw [press, Machine.pressTold_eq]
  rfl

def release (b : σ) (k : Nibble) : σ := follow b ((machine b).releaseTold k)

theorem release_eq (b : σ) (k : Nibble) :
    release b k = update b ((machine b).release k) [.keyUp k] := rfl

/-- Whether the screen may have changed since the last look. -/
def look (b : σ) : σ × Bool :=
  let (m, dirty) := (machine b).look
  (update b m [], dirty)

/-- Puts the machine into a state it reports nothing about. -/
def adjust (b : σ) (f : Machine → Machine) : σ := update b (f (machine b)) []

/-! ## The bare machine

It does not listen, so what is told of an operation is the operation. -/

section Bare

variable (m : Machine)

theorem step_machine : step m = m.step := step_eq m

theorem tick_machine : tick m = (m.tick, m.tick.timers.tone) := tick_eq m

theorem reset_machine : reset m = m.reset := reset_eq m

theorem load_machine (data : List Byte) : load m data = m.load data := by
  rw [load_eq]
  cases m.load data <;> rfl

theorem press_machine (k : Nibble) : press m k = m.press k := press_eq m k

end Bare

end Board

end ChipEight
