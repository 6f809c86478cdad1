import ChipEight.Proofs.Driving
import ChipEight.Proofs.Step

/-! # Stopping early leaves nothing out

A run and a frame make no step behind one that executed no instruction (`Board.burst_eq_steps`). Such
a step leaves a machine at rest: until something else reaches it, every further step finds it as it is
and gives the same result (`Machine.step_again`). So the steps that are left out would have changed
nothing, and a run can be taken for its steps, however many of them were really made. -/
namespace ChipEight

namespace StepResult

/-- The results up to the first step that executed no instruction, and with it. -/
def upToStop : List StepResult → List StepResult
  | [] => []
  | .ok :: results => .ok :: upToStop results
  | result :: _ => [result]

theorem upToStop_cons_of_stop {result : StepResult} (stop : result ≠ .ok)
    (results : List StepResult) : upToStop (result :: results) = [result] := by
  cases result with
  | ok => exact absurd rfl stop
  | waiting => rfl
  | fault => rfl

end StepResult

open StepResult (upToStop)

namespace Board

variable {σ : Type} [Board σ]

/-- A burst makes those of its steps that lie before the stop, and no others. -/
theorem burst_eq_steps (b : σ) (executed n : Nat) :
    burst b executed n =
      ((steps b (upToStop (steps b n).2).length).1,
        executed + (upToStop (steps b n).2).count .ok,
        (upToStop (steps b n).2).getLastD .ok) := by
  induction n generalizing b executed with
  | zero => rfl
  | succ n ih =>
    rw [burst, steps_succ]
    rcases made : step b with ⟨next, result⟩
    cases result with
    | ok =>
      simp only [upToStop, List.length_cons, steps_succ, made, ih, List.count_cons_self,
        List.getLastD_cons]
      rw [Nat.add_right_comm, Nat.add_assoc]
    | waiting => simp [upToStop, made, steps, stepsOnto]
    | fault => simp [upToStop, made, steps, stepsOnto]

end Board

namespace Machine

variable {m : Machine}

/-- A step that executes no instruction leaves the machine at rest. -/
theorem step_again (stopped : m.step.2 ≠ .ok) : m.step.1.step = m.step := by
  have turn := turn_step m
  generalize m.step = out at turn stopped ⊢
  cases turn with
  | halted mode => exact step_of_halted mode
  | waits mode empty => exact step_of_empty mode empty
  | resumes mode held => exact absurd rfl stopped
  | faults mode fault => exact step_of_halted rfl
  | suspends mode fetched => exact step_of_empty (suspend_mode mode _) nofun
  | executes mode sound fetched => exact absurd rfl stopped

theorem steps_of_rest {result : StepResult} (rest : m.step = (m, result)) (n : Nat) :
    Board.steps m n = (m, List.replicate n result) := by
  induction n with
  | zero => rfl
  | succ n ih =>
    rw [Board.steps_succ, Board.step_machine, rest, ih]
    rfl

/-- The steps behind the stop change nothing, and end with the result of the stop. -/
theorem steps_upToStop (m : Machine) (n : Nat) :
    (Board.steps m (upToStop (Board.steps m n).2).length).1 = (Board.steps m n).1 ∧
      (upToStop (Board.steps m n).2).getLastD .ok = (Board.steps m n).2.getLastD .ok := by
  induction n generalizing m with
  | zero => exact ⟨rfl, rfl⟩
  | succ n ih =>
    have first : Board.step m = m.step := Board.step_machine m
    rw [Board.steps_succ, first]
    by_cases stop : m.step.2 = .ok
    · simp only [stop, upToStop, List.length_cons, Board.steps_succ, first, List.getLastD_cons]
      exact ih m.step.1
    · have rest : Board.steps m.step.1 n = (m.step.1, List.replicate n m.step.2) :=
        steps_of_rest (step_again stop) n
      rw [rest, StepResult.upToStop_cons_of_stop stop, List.length_singleton, Board.steps_succ, first]
      refine ⟨rfl, ?_⟩
      rw [List.getLastD_cons, List.getLastD_cons, Clock.getLastD_replicate]
      rfl

/-- A run is its steps. -/
theorem burst_eq (m : Machine) (executed n : Nat) :
    (Board.burst m executed n).1 = (Board.steps m n).1 ∧
      (Board.burst m executed n).2.2 = (Board.steps m n).2.getLastD .ok := by
  rw [Board.burst_eq_steps]
  exact steps_upToStop m n

theorem after_run (m : Machine) (n : Nat) :
    m.after (.run n) = m.afterAll (List.replicate n .step) := by
  have state : m.after (.run n) = (Board.burst m 0 n).1 := rfl
  rw [state, (burst_eq m 0 n).1]
  exact stepsOnto_eq_afterAll m [] n

/-- A run that makes a step answers with the result of its last step. -/
theorem answer_run (m : Machine) (n : Nat) :
    (m.answers (List.replicate (n + 1) .step)).getLast? = some (m.answer (.run (n + 1))) := by
  have answer : m.answer (.run (n + 1)) = stepped (Board.burst m 0 (n + 1)).2.2 := rfl
  rw [answer, (burst_eq m 0 (n + 1)).2, answers_replicate_step, List.getLast?_map, Board.steps_succ,
    List.getLast?_cons, List.getLastD_cons, List.getLastD_eq_getLast?]
  rfl

/-- Two runs in a row are one. -/
theorem after_run_add (m : Machine) (a b : Nat) :
    (m.after (.run a)).after (.run b) = m.after (.run (a + b)) := by
  have sum : ((a : Int) + b) = ((a + b : Nat) : Int) := rfl
  rw [sum, after_run, after_run, after_run, ← afterAll_append, List.replicate_append_replicate]

end Machine

/-! ## Frames -/

namespace Clock.Rig

variable {σ : Type} [Board σ]

/-- The number of steps that the budget of the next frame is worth. -/
def worth (r : Rig σ) : Nat := (r.clock.stepBudget + r.clock.cpuHz) / r.clock.timerHz

/-- The steps that a frame makes. -/
theorem frame_eq_steps (r : Rig σ) :
    (r.after .tickFrame).board =
      (Board.tick (Board.steps r.board (upToStop (Board.steps r.board r.worth).2).length).1).1 := by
  have board : (r.after .tickFrame).board = (Board.tick (Board.burst r.board 0 r.worth).1).1 := rfl
  rw [board, Board.burst_eq_steps]

variable [LawfulBoard σ]

theorem machine_frame_eq (r : Rig σ) :
    Board.machine (r.after .tickFrame).board =
      ((Board.machine r.board).afterAll (List.replicate r.worth .step)).after .tick := by
  have board : (r.after .tickFrame).board = (Board.tick (Board.burst r.board 0 r.worth).1).1 := rfl
  have steps : Board.machine (Board.burst r.board 0 r.worth).1 =
      (Board.machine r.board).afterAll (List.replicate r.worth .step) := by
    rw [(Board.simulation_machine.burst rfl 0 r.worth).1, (Machine.burst_eq _ 0 r.worth).1]
    exact Machine.stepsOnto_eq_afterAll _ [] _
  rw [board, (Board.carries_tick _).1, steps]
  rfl

/-- **Stopping early changes nothing.** A run leaves the machine as its steps one by one would and
answers with the result of the last of them, so two runs in a row are one. A frame stops behind the
first of its steps that executes no instruction, and yet leaves the machine as if it had made all
the steps that its budget was worth. -/
theorem stopping_early_changes_nothing :
    (∀ (m : Machine) (n : Nat),
      m.after (.run n) = m.afterAll (List.replicate n .step) ∧
      (m.answers (List.replicate (n + 1) .step)).getLast? = some (m.answer (.run (n + 1)))) ∧
    (∀ (m : Machine) (a b : Nat), (m.after (.run a)).after (.run b) = m.after (.run (a + b))) ∧
    ∀ r : Rig σ,
      let n := (r.clock.stepBudget + r.clock.cpuHz) / r.clock.timerHz
      let made := upToStop (Board.steps r.board n).2
      (r.after .tickFrame).board = (Board.tick (Board.steps r.board made.length).1).1 ∧
      Board.machine (r.after .tickFrame).board =
        ((Board.machine r.board).afterAll (List.replicate n .step)).after .tick := by
  refine ⟨fun m n => ?_, Machine.after_run_add, fun r => ?_⟩
  · exact ⟨Machine.after_run m n, Machine.answer_run m n⟩
  · intro n made
    exact ⟨frame_eq_steps r, machine_frame_eq r⟩

/-- A run of nine steps that meets a wait at the second, with a key held down, and a frame worth five
steps whose second is a fault. -/
theorem stopping_early_at_wait_and_fault :
    let clock : Clock := { cpuHz := 300, timerHz := 60, timerHz_pos := by decide, stepBudget := 59 }
    let m := (Machine.fresh (Generator.ofSeed 0)).afterAll
      [.load [0x60, 0x05, 0xF1, 0x0A], .press 3]
    let b := (Board.perform (Monitor.fresh (Generator.ofSeed 0)) (.load [0xF0, 0x18, 0x00, 0xEE])).1
    let r := Rig.mk clock b
    let n := (r.clock.stepBudget + r.clock.cpuHz) / r.clock.timerHz
    (Board.steps m 9).2 = .ok :: List.replicate 8 .waiting ∧
      m.after (.run 9) = m.afterAll (List.replicate 9 .step) ∧
      (m.after (.run 4)).after (.run 5) = m.after (.run 9) ∧
      upToStop (Board.steps b n).2 = [.ok, .fault] ∧
      (r.after .tickFrame).board = (Board.tick (Board.steps b 2).1).1 ∧
      Board.machine (r.after .tickFrame).board =
        ((Board.machine b).afterAll (List.replicate 5 .step)).after .tick := by
  intro clock m b r n
  obtain ⟨runs, split, frames⟩ := stopping_early_changes_nothing (σ := Monitor)
  obtain ⟨made, state⟩ : (r.after .tickFrame).board =
      (Board.tick (Board.steps b (upToStop (Board.steps b n).2).length).1).1 ∧
      Board.machine (r.after .tickFrame).board =
        ((Board.machine b).afterAll (List.replicate n .step)).after .tick := frames r
  have waits : (Board.steps m 9).2 = .ok :: List.replicate 8 .waiting := by decide +kernel
  have stop : upToStop (Board.steps b n).2 = [.ok, .fault] := by decide +kernel
  have worth : n = 5 := by decide
  rw [stop] at made
  rw [worth] at state
  exact ⟨waits, (runs m 9).1, split m 4 5, stop, made, state⟩

end Clock.Rig

end ChipEight
