import ChipEight.Clock.Basic
import ChipEight.Machine.Call

/-!
The calls that a clock with its machine answers: those of the machine, and those that let time pass.
-/

namespace ChipEight.Clock

inductive Call
  | machine (call : Machine.Call)
  | tickFrame
  | tickFrames (n : Nat)
  | advance (seconds : Binary64)
  | advances (seconds : Binary64) (n : Nat)
  | resetTotals
  | cpuHz
  | stepsPerTick
deriving DecidableEq

structure Rig (σ : Type) where
  clock : Clock
  board : σ

variable {σ : Type} [Board σ]

namespace Rig

/-- The rig after time has passed, and the steps that executed an instruction. -/
def ofProgress (p : Progress σ) : Rig σ × Nat := (⟨p.clock, p.board⟩, p.steps)

/-- Does the same `n` times and lists the numbers of steps in order. -/
def times (pass : Rig σ → Rig σ × Nat) (r : Rig σ) : (n : Nat) → Rig σ × List Nat
  | 0 => (r, [])
  | n + 1 =>
    let (r, steps) := pass r
    let (r, rest) := times pass r n
    (r, steps :: rest)

def frame (r : Rig σ) : Rig σ × Nat := ofProgress (r.clock.tickFrame r.board)

/-- The rig after a call, and the answer. A refused call changes nothing. -/
def perform (r : Rig σ) : Call → Rig σ × Except Refusal Answer
  | .machine call =>
    let (board, answer) := Board.perform r.board call
    ({ r with board }, answer)
  | .tickFrame =>
    let (r, steps) := r.frame
    (r, .ok (.number steps))
  | .tickFrames n =>
    let (r, steps) := times frame r n
    (r, .ok (.numbers steps))
  | .advance seconds =>
    match Interval.ofSeconds seconds with
    | .ok micros =>
      let (r, steps) := ofProgress (r.clock.advance r.board micros)
      (r, .ok (.number steps))
    | .error e => (r, .error e)
  | .advances seconds n =>
    match n, Interval.ofSeconds seconds with
    | 0, _ => (r, .ok (.numbers []))
    | n, .ok micros =>
      let (r, steps) := times (fun r => ofProgress (r.clock.advance r.board micros)) r n
      (r, .ok (.numbers steps))
    | _, .error e => (r, .error e)
  | .resetTotals => ({ r with clock := r.clock.resetTotals }, .ok .done)
  | .cpuHz => (r, .ok (.number r.clock.cpuHz))
  | .stepsPerTick => (r, r.clock.stepsPerTick.map .ratio)

end Rig

end ChipEight.Clock
