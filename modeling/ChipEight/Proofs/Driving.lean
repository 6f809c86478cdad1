import ChipEight.Proofs.Boards
import ChipEight.Proofs.Cadence
import ChipEight.Proofs.History

/-! # What reaches the machine on a board

A board does to its machine what the calls do to a bare one, whatever it keeps beside
(`Board.machine_perform`). A clock makes two of these calls of its own accord, a step
and a tick: `Clock.Rig.moves` lists what the machine is called for in a history of the clock, and
the machine on the board is where that list leads (`Clock.Rig.machine_afterAll`). So what is known
of histories of a machine is known of a machine that is driven by a clock. -/
namespace ChipEight

namespace Machine

theorem answers_append (m : Machine) (cs ds : List Call) :
    m.answers (cs ++ ds) = m.answers cs ++ (m.afterAll cs).answers ds := by
  induction cs generalizing m with
  | nil => rfl
  | cons c cs ih => simp only [List.cons_append, answers, ih, afterAll_cons]

/-- The answer to a step. -/
def stepped (result : StepResult) : Except Refusal Answer := .ok (.result result)

theorem answers_replicate_step (m : Machine) (n : Nat) :
    m.answers (List.replicate n .step) = (Board.steps m n).2.map stepped := by
  induction n generalizing m with
  | zero => rfl
  | succ n ih =>
    rw [List.replicate_succ, answers, ih, Board.steps_succ]
    rfl

end Machine

namespace Board

variable {σ : Type} [Board σ] [LawfulBoard σ]

theorem carries_tick (b : σ) : Agree (machine · = ·) (tick b) (tick (machine b)) :=
  simulation_machine.tick rfl

theorem carries_steps (b : σ) (n : Nat) :
    Agree (machine · = ·) (steps b n) (steps (machine b) n) :=
  simulation_machine.steps rfl n

theorem machine_perform (b : σ) (c : Machine.Call) :
    machine (perform b c).1 = (machine b).after c :=
  (simulation_machine.perform rfl c).1

end Board

/-! ## What steps and ticks keep, time keeps -/

section Keeps

variable {σ : Type} [Board σ] {P : σ → Prop}

theorem Board.burst_keeps (steps : ∀ b, P b → P (step b).1) {b : σ} (h : P b) (executed n : Nat) :
    P (burst b executed n).1 := by
  induction n generalizing b executed with
  | zero => exact h
  | succ n ih =>
    have next := steps b h
    rw [burst]
    rcases first : step b with ⟨after, result⟩
    rw [first] at next
    cases result with
    | ok => exact ih next (executed + 1)
    | waiting => exact next
    | fault => exact next

namespace Clock

variable (steps : ∀ b, P b → P (Board.step b).1) (ticks : ∀ b, P b → P (Board.tick b).1)
include steps ticks

theorem tickFrame_keeps (c : Clock) {b : σ} (h : P b) : P (c.tickFrame b).board :=
  ticks _ (Board.burst_keeps steps h 0 _)

theorem framesFrom_keeps {p : Progress σ} (h : P p.board) (n : Nat) : P (framesFrom p n).board := by
  induction n generalizing p with
  | zero => exact h
  | succ n ih => exact ih (tickFrame_keeps steps ticks p.clock h)

theorem advance_keeps (c : Clock) {b : σ} (h : P b) (micros : Nat) : P (c.advance b micros).board :=
  framesFrom_keeps steps ticks (p := ⟨_, b, 0⟩) h _

end Clock

end Keeps

namespace Clock.Rig

variable {σ : Type} [Board σ]

/-- What the machine is called for in a frame. -/
def frameCalls (r : Rig σ) : List Machine.Call :=
  List.replicate r.results.length .step ++ [.tick]

/-- What the machine is called for in the next `n` frames. -/
def aheadCalls (r : Rig σ) : (n : Nat) → List Machine.Call
  | 0 => []
  | n + 1 => r.frameCalls ++ r.frame.1.aheadCalls n

/-- What the machine is called for in a call of the clock. -/
def calls (r : Rig σ) : Call → List Machine.Call
  | .machine c => [c]
  | c => r.aheadCalls (r.due c)

/-- What the machine is called for in a history of the clock. -/
def moves (r : Rig σ) : List Call → List Machine.Call
  | [] => []
  | c :: cs => r.calls c ++ (r.after c).moves cs

theorem mem_aheadCalls {r : Rig σ} {n : Nat} {c : Machine.Call} (h : c ∈ r.aheadCalls n) :
    c = .step ∨ c = .tick := by
  induction n generalizing r with
  | zero => cases h
  | succ n ih =>
    rcases List.mem_append.mp h with first | rest
    · rcases List.mem_append.mp first with step | tick
      · exact .inl (List.eq_of_mem_replicate step)
      · exact .inr (List.mem_singleton.mp tick)
    · exact ih rest

theorem calls_of_timed {r : Rig σ} {c : Call} (time : timed c = true) :
    r.calls c = r.aheadCalls (r.due c) := by
  cases c with
  | machine call => cases time
  | _ => rfl

variable [LawfulBoard σ] {r : Rig σ}

theorem machine_frame (r : Rig σ) :
    Board.machine r.frame.1.board = (Board.machine r.board).afterAll r.frameCalls := by
  have board : r.frame.1.board = (Board.tick (Board.steps r.board r.results.length).1).1 :=
    (frameLaw r).board
  rw [board, (Board.carries_tick _).1, frameCalls, Machine.afterAll_append]
  rw [(Board.carries_steps r.board r.results.length).1]
  exact congrArg (Machine.after · .tick) (Machine.stepsOnto_eq_afterAll _ [] _)

theorem machine_times (r : Rig σ) (n : Nat) :
    Board.machine (times frame r n).1.board = (Board.machine r.board).afterAll (r.aheadCalls n) := by
  induction n generalizing r with
  | zero => rfl
  | succ n ih =>
    rw [aheadCalls, Machine.afterAll_append, ← machine_frame]
    exact ih r.frame.1

theorem machine_cover (r : Rig σ) (n rest : Nat) :
    Board.machine (r.cover n rest).1.board = (Board.machine r.board).afterAll (r.aheadCalls n) :=
  machine_times r n

theorem machine_elapse (r : Rig σ) (micros : Nat) :
    Board.machine (r.elapse micros).1.board = (Board.machine r.board).afterAll
      (r.aheadCalls ((r.clock.timeBudget + micros * r.clock.timerHz) / 1000000)) := by
  rw [elapse_eq_cover, machine_cover]

theorem machine_after (bounded : r.clock.timeBudget < 1000000) (c : Call) :
    Board.machine (r.after c).board = (Board.machine r.board).afterAll (r.calls c) := by
  by_cases time : timed c = true
  · obtain ⟨rest, state⟩ := after_eq_cover bounded time
    rw [state, calls_of_timed time]
    exact machine_cover r _ rest
  · cases c with
    | machine call => exact Board.machine_perform r.board call
    | resetTotals => rfl
    | _ => exact absurd rfl time

/-- The machine on the board is where the calls that reached it lead. -/
theorem machine_afterAll {cpuHz timerHz : Nat} (h : r.clock.InBounds cpuHz timerHz) (cs : List Call) :
    Board.machine (r.afterAll cs).board = (Board.machine r.board).afterAll (r.moves cs) := by
  induction cs generalizing r with
  | nil => rfl
  | cons c cs ih =>
    rw [afterAll_cons, ih (after_inBounds h c), moves, Machine.afterAll_append, machine_after h.time]

end Clock.Rig

end ChipEight
