import ChipEight.Clock.Interval
import ChipEight.Machine.Board

/-!
The clock of the host shares real time out between instructions and timer ticks. Both shares are
kept in whole units: a frame adds `cpuHz` units to the budget of steps and a step costs `timerHz` of
them; a microsecond adds `timerHz` units to the budget of time and a frame costs a million. What is
left over is carried to the next frame or interval, so nothing is lost to rounding.
-/

namespace ChipEight

structure Clock where
  cpuHz : Nat
  timerHz : Nat
  timerHz_pos : 0 < timerHz
  /-- What is left of past frames, in units of which a step costs `timerHz`. -/
  stepBudget : Nat := 0
  /-- What is left of past intervals, in units of which a frame costs a million. -/
  timeBudget : Nat := 0
  totalSteps : Nat := 0
  totalTicks : Nat := 0
  lastResult : StepResult := .ok
deriving DecidableEq

namespace Clock

def defaultCpuHz : Int := 500

def standardTimerHz : Int := 60

/-- A clock at rest. Both frequencies have to be positive. -/
def create (cpuHz timerHz : Int) : Except Refusal Clock :=
  if h : 0 < cpuHz ∧ 0 < timerHz then
    .ok { cpuHz := cpuHz.toNat, timerHz := timerHz.toNat, timerHz_pos := by omega }
  else .error (.badFrequencies cpuHz timerHz)

/-- The steps per frame, as the nearest binary64 number. -/
def stepsPerTick (c : Clock) : Except Refusal Binary64 :=
  match Binary64.ofQuotient c.cpuHz c.timerHz with
  | some x => .ok x
  | none => .error .ratioTooLarge

def resetTotals (c : Clock) : Clock :=
  { c with stepBudget := 0, timeBudget := 0, totalSteps := 0, totalTicks := 0 }

variable {σ : Type} [Board σ]

/-- The clock and the board after a frame or an interval, and the steps that executed an
instruction. -/
structure Progress (σ : Type) where
  clock : Clock
  board : σ
  steps : Nat

/-- One frame: the steps that the budget pays for, then one tick of the timers. When a step executes
no instruction the rest of the budget is dropped, for nothing else would happen in this frame. -/
def tickFrame (c : Clock) (b : σ) : Progress σ :=
  let budget := c.stepBudget + c.cpuHz
  let due := budget / c.timerHz
  let (b, executed, result) := Board.burst b 0 due
  let (b, _) := Board.tick b
  { clock :=
      { c with
        stepBudget := if result = .ok then budget % c.timerHz else 0
        totalSteps := c.totalSteps + executed
        totalTicks := c.totalTicks + 1
        lastResult := if due = 0 then c.lastResult else result }
    board := b
    steps := executed }

/-- `n` frames; the steps are added to those of `p`. -/
def framesFrom (p : Progress σ) : (n : Nat) → Progress σ
  | 0 => p
  | n + 1 =>
    let q := p.clock.tickFrame p.board
    framesFrom { q with steps := p.steps + q.steps } n

/-- An interval of real time: the whole frames that fit into it together with the time left over
from before. The loop that lets them pass one by one is `catchUp`. -/
def advance (c : Clock) (b : σ) (micros : Nat) : Progress σ :=
  let time := c.timeBudget + micros * c.timerHz
  let c := { c with timeBudget := time % Interval.microsPerSecond }
  framesFrom ⟨c, b, 0⟩ (time / Interval.microsPerSecond)

/-- The loop over the budget of time: as long as it pays for a frame, a million of its units are taken
off and the frame passes. -/
def catchUp (c : Clock) (b : σ) (steps : Nat) : Progress σ :=
  if c.timeBudget < Interval.microsPerSecond then ⟨c, b, steps⟩
  else
    let q := tickFrame { c with timeBudget := c.timeBudget - Interval.microsPerSecond } b
    catchUp q.clock q.board (steps + q.steps)
termination_by c.timeBudget
decreasing_by
  have taken : q.clock.timeBudget = c.timeBudget - Interval.microsPerSecond := rfl
  rw [taken, Interval.microsPerSecond] at *
  omega

/-- No frame looks at the budget of time, so it can be settled before the first. -/
theorem catchUp_eq (c : Clock) (b : σ) (steps : Nat) : c.catchUp b steps =
    framesFrom ⟨{ c with timeBudget := c.timeBudget % Interval.microsPerSecond }, b, steps⟩
      (c.timeBudget / Interval.microsPerSecond) := by
  induction due : c.timeBudget / Interval.microsPerSecond generalizing c b steps with
  | zero =>
    have short : c.timeBudget < Interval.microsPerSecond :=
      (Nat.div_eq_zero_iff.mp due).resolve_left (by decide)
    rw [catchUp, if_pos short, Nat.mod_eq_of_lt short]
    rfl
  | succ n ih =>
    have million : Interval.microsPerSecond = 1000000 := rfl
    let q := tickFrame { c with timeBudget := c.timeBudget - Interval.microsPerSecond } b
    have taken : q.clock.timeBudget = c.timeBudget - Interval.microsPerSecond := rfl
    have pays : ¬ c.timeBudget < Interval.microsPerSecond := by
      rw [million] at due ⊢
      omega
    have left : q.clock.timeBudget / Interval.microsPerSecond = n := by
      rw [taken]
      rw [million] at due ⊢
      omega
    have rest : q.clock.timeBudget % Interval.microsPerSecond =
        c.timeBudget % Interval.microsPerSecond := by
      rw [taken]
      rw [million] at due ⊢
      omega
    have others := ih q.clock q.board (steps + q.steps) left
    have first : tickFrame { c with timeBudget := c.timeBudget % Interval.microsPerSecond } b =
        { q with clock := { q.clock with timeBudget := c.timeBudget % Interval.microsPerSecond } } :=
      rfl
    rw [rest] at others
    rw [catchUp, if_neg pays, framesFrom, first]
    exact others

theorem advance_eq_catchUp (c : Clock) (b : σ) (micros : Nat) : c.advance b micros =
    catchUp { c with timeBudget := c.timeBudget + micros * c.timerHz } b 0 := by
  rw [catchUp_eq]
  rfl

end Clock

end ChipEight
