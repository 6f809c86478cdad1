import Mathlib.Data.List.Count
import ChipEight.Proofs.Host

/-! # Counting what is executed

A machine counts the instructions it has executed, and a clock the steps that answered with `ok`.
The two differ by the waits for a key: the step that begins one is counted by the machine although
it answers that it waits, and the step that ends it is counted by both. -/
namespace ChipEight

theorem Instruction.execute_executed (m : Machine) (i : Instruction) :
    (i.execute m).1.executed = m.executed := by
  cases i with
  | _ => rfl

namespace Machine

variable {m n : Machine}

/-! ## The count of the machine -/

/-- Whether the next step begins a wait for a key. -/
def atWait (m : Machine) : Bool :=
  m.mode = .running && m.fetch.opClass = 0xF && m.fetch.kk = 0x0A

theorem atWait_iff : m.atWait = true ↔
    m.mode = .running ∧ ∃ x, Instruction.decode m.fetch = .awaitKey x := by
  simp only [atWait, Bool.and_eq_true, decide_eq_true_eq, Instruction.decode_eq_awaitKey_iff]
  constructor
  · rintro ⟨⟨running, opClass⟩, kk⟩
    exact ⟨running, _, opClass, kk, rfl⟩
  · rintro ⟨running, x, opClass, kk, -⟩
    exact ⟨⟨running, opClass⟩, kk⟩

/-- The number of waits for a key that begin in a history. -/
def waitsBegun (m : Machine) : List Call → Nat
  | [] => 0
  | c :: cs => (if c = .step ∧ m.atWait then 1 else 0) + (m.after c).waitsBegun cs

theorem waitsBegun_eq_zero_iff {cs : List Call} : m.waitsBegun cs = 0 ↔
    ∀ j, cs[j]? = some .step → (m.afterAll (cs.take j)).atWait = false := by
  induction cs generalizing m with
  | nil =>
    refine ⟨fun _ j step => ?_, fun _ => rfl⟩
    cases step
  | cons c cs ih =>
    rw [waitsBegun, Nat.add_eq_zero_iff, ih]
    constructor
    · rintro ⟨first, others⟩ j step
      cases j with
      | zero =>
        obtain rfl : c = .step := Option.some.inj step
        simpa using first
      | succ j => exact others j step
    · intro none
      refine ⟨?_, fun j => none (j + 1)⟩
      by_cases step : c = .step
      · have first := none 0 (congrArg some step)
        rw [List.take_zero, afterAll_nil] at first
        rw [first, if_neg (by simp)]
      · rw [if_neg fun h => step h.1]

theorem executed_step (m : Machine) : m.step.1.executed =
    m.executed + (if m.step.2 = .ok then 1 else 0) + (if m.atWait then 1 else 0) := by
  have off (none : ¬ (m.mode = .running ∧ ∃ x, Instruction.decode m.fetch = .awaitKey x)) :
      m.atWait = false := Bool.eq_false_iff.mpr fun h => none (atWait_iff.mp h)
  have turn := turn_step m
  generalize m.step = out at turn ⊢
  cases turn with
  | halted mode =>
    rw [off fun h => nomatch mode.symm.trans h.1]
    rfl
  | waits mode empty =>
    rw [off fun h => nomatch mode.symm.trans h.1]
    rfl
  | resumes mode held =>
    rw [off fun h => nomatch mode.symm.trans h.1]
    rfl
  | faults mode fault =>
    have begins : m.atWait = false := off fun ⟨_, x, fetched⟩ => by
      rw [fetched] at fault
      cases fault
    rw [begins]
    rfl
  | suspends mode fetched =>
    rw [atWait_iff.mpr ⟨mode, _, fetched⟩]
    rfl
  | executes mode sound fetched =>
    rw [off fun ⟨_, x, h⟩ => fetched x h]
    exact congrArg (· + 1) (Instruction.execute_executed m _)

theorem stepped_injective : Function.Injective stepped :=
  fun _ _ same => Answer.result.inj (Except.ok.inj same)

theorem answer_withKey_ne (k : Int) (act : Machine → Nibble → Machine) (result : StepResult) :
    (Board.withKey m k act).2 ≠ stepped result := by
  unfold Board.withKey
  cases Keypad.key k with
  | ok n => exact nofun
  | error e => exact nofun

theorem answer_load_ne (data : List Byte) (result : StepResult) :
    m.answer (.load data) ≠ stepped result := by
  by_cases fits : data.length ≤ 3584
  · rw [answer, perform_load_of_fits fits]
    exact nofun
  · rw [answer, perform_load_of_too_large (Nat.lt_of_not_le fits)]
    exact nofun

/-- Only a step answers with the result of a step. -/
theorem answer_ne_stepped {c : Call} (single : c.single = true) (other : c ≠ .step)
    (result : StepResult) : m.answer c ≠ stepped result := by
  cases c
  case step => exact absurd rfl other
  case steps n => cases single
  case run n => cases single
  case ticks n => cases single
  case press k => exact answer_withKey_ne k Board.press result
  case release k => exact answer_withKey_ne k Board.release result
  case load data => exact answer_load_ne data result
  all_goals exact nofun

/-- A call that drives a machine but makes no step. -/
structure Call.Aside (c : Call) : Prop where
  single : c.single = true
  drives : c.kind = .drive
  other : c ≠ .step

theorem executed_aside {c : Call} (aside : c.Aside) : (m.after c).executed = m.executed := by
  have beside : Beside m (m.after c) := beside_after aside.single aside.drives aside.other
  generalize m.after c = n at beside ⊢
  cases beside with
  | _ => rfl

/-- What a machine executes is what its steps answer with `ok`, and the waits they begin. -/
theorem executed_afterAll {cs : List Call} (known : ∀ c ∈ cs, c = .step ∨ c.Aside) :
    (m.afterAll cs).executed =
      m.executed + (m.answers cs).count (stepped .ok) + m.waitsBegun cs := by
  induction cs generalizing m with
  | nil => rfl
  | cons c cs ih =>
    rw [afterAll_cons, ih fun d mem => known d (List.mem_cons_of_mem c mem), answers,
      List.count_cons, waitsBegun]
    rcases known c List.mem_cons_self with rfl | aside
    · have same : (m.answer .step == stepped .ok) = (m.step.2 == .ok) := by
        rw [Bool.eq_iff_iff, beq_iff_eq, beq_iff_eq, answer_step]
        exact stepped_injective.eq_iff
      rw [after_step, executed_step, same]
      simp
      omega
    · have other : ¬ (c = .step ∧ m.atWait = true) := fun h => aside.other h.1
      have answer : (m.answer c == stepped .ok) = false :=
        beq_eq_false_iff_ne.mpr (answer_ne_stepped aside.single aside.other .ok)
      rw [executed_aside aside, answer, if_neg other]
      simp

end Machine

/-! ## The count of the clock -/

namespace Clock.Rig

variable {σ : Type} [Board σ] {r : Rig σ}

open Machine (stepped)

/-- A call that lets time pass, or reaches the machine beside its clock. The totals are kept. -/
inductive Clocked : Call → Prop
  | timed {c : Call} (time : timed c = true) : Clocked c
  | machine {c : Machine.Call} (aside : c.Aside) : Clocked (.machine c)

theorem calls_clocked {c : Call} (clocked : Clocked c) :
    ∀ d ∈ r.calls c, d = .step ∨ d.Aside := by
  intro d mem
  cases clocked with
  | timed time =>
    rw [calls_of_timed time] at mem
    rcases mem_aheadCalls mem with step | rfl
    · exact .inl step
    · exact .inr ⟨rfl, rfl, nofun⟩
  | machine aside =>
    rw [List.mem_singleton.mp mem]
    exact .inr aside

theorem moves_clocked {cs : List Call} (clocked : ∀ c ∈ cs, Clocked c) :
    ∀ d ∈ r.moves cs, d = .step ∨ d.Aside := by
  induction cs generalizing r with
  | nil => exact nofun
  | cons c cs ih =>
    intro d mem
    rcases List.mem_append.mp mem with first | others
    · exact calls_clocked (clocked c List.mem_cons_self) d first
    · exact ih (fun c mem => clocked c (List.mem_cons_of_mem _ mem)) d others

variable [LawfulBoard σ]

/-- The number of `ok`s among the answers in a frame is that of its results. -/
theorem count_frameCalls (r : Rig σ) :
    ((Board.machine r.board).answers r.frameCalls).count (stepped .ok) = r.results.count .ok := by
  have made : (Board.steps (Board.machine r.board) r.results.length).2 = r.results := by
    rw [← (Board.carries_steps r.board r.results.length).2]
    exact (frameLaw r).made
  rw [frameCalls, Machine.answers_append, Machine.answers_replicate_step, made, List.count_append,
    List.count_map_of_injective _ _ Machine.stepped_injective]
  rfl

theorem count_aheadCalls (r : Rig σ) (n : Nat) :
    ((Board.machine r.board).answers (r.aheadCalls n)).count (stepped .ok) =
      executedIn (r.ahead n) := by
  induction n generalizing r with
  | zero => rfl
  | succ n ih =>
    rw [aheadCalls, Machine.answers_append, List.count_append, count_frameCalls, ← machine_frame, ih]
    rfl

theorem count_calls {c : Call} (clocked : Clocked c) :
    ((Board.machine r.board).answers (r.calls c)).count (stepped .ok) =
      executedIn (r.ahead (r.due c)) := by
  cases clocked with
  | timed time =>
    rw [calls_of_timed time]
    exact count_aheadCalls r _
  | machine aside =>
    exact List.count_eq_zero.mpr fun mem =>
      Machine.answer_ne_stepped aside.single aside.other .ok (List.mem_singleton.mp mem).symm

theorem count_moves {cpuHz timerHz : Nat} (h : r.clock.InBounds cpuHz timerHz) {cs : List Call}
    (clocked : ∀ c ∈ cs, Clocked c) :
    ((Board.machine r.board).answers (r.moves cs)).count (stepped .ok) =
      executedIn (r.frames cs) := by
  induction cs generalizing r with
  | nil => rfl
  | cons c cs ih =>
    rw [moves, frames, Machine.answers_append, List.count_append, executedIn_append,
      count_calls (clocked c List.mem_cons_self), ← machine_after h.time,
      ih (after_inBounds h c) fun d mem => clocked d (List.mem_cons_of_mem c mem)]

/-- The counts of the machine and of its clock are at zero. -/
structure Zeroed (r : Rig σ) : Prop where
  executed : (Board.machine r.board).executed = 0
  steps : r.clock.totalSteps = 0
  bounds : r.clock.InBounds r.clock.cpuHz r.clock.timerHz

end Clock.Rig

namespace Emulator

variable {e e' : Emulator}

theorem Started.zeroed {m : Machine} (started : Started e e' m) (executed : m.executed = 0) :
    e'.rig.Zeroed := by
  have clock : e'.rig.clock = e.clock.resetTotals := started.clock
  refine ⟨?_, ?_, ?_⟩
  · exact (congrArg Machine.executed started.machine).trans executed
  · rw [clock]
    rfl
  · rw [clock]
    exact ⟨rfl, rfl, e.clock.timerHz_pos, Nat.zero_lt_succ _⟩

theorem executed_restartCall (e : Emulator) : (e.machine.after e.restartCall).executed = 0 := by
  rcases e.after_restartCall with reset | ⟨data, loaded⟩
  · rw [reset]
    rfl
  · rw [loaded]
    rfl

end Emulator

namespace Clock.Rig

open Machine (stepped)

/-- **The two counts differ by the waits that have begun.** They are at zero when a program has been
loaded or started again. From then on, while only the clock makes steps, the clock counts the steps
that answer with `ok`, and the machine counts these and the steps that begin a wait for a key. So
the two agree as long as no step has met `Fx0A`, and never again. -/
theorem counts_differ_by_waits {σ : Type} [Board σ] [LawfulBoard σ] :
    (∀ e : Emulator, e.restart.rig.Zeroed) ∧
    (∀ (e e' : Emulator) (path : String) (found : Entry),
      e.loadRom path found = .ok e' → e'.rig.Zeroed) ∧
    ∀ (r : Rig σ) (cs : List Call), r.Zeroed → (∀ c ∈ cs, Clocked c) →
      let m := Board.machine r.board
      let history := r.moves cs
      let n := Board.machine (r.afterAll cs).board
      let counted := (r.afterAll cs).clock.totalSteps
      n = m.afterAll history ∧
      counted = (m.answers history).count (stepped .ok) ∧
      n.executed = counted + m.waitsBegun history ∧
      (n.executed = counted ↔
        ∀ j, history[j]? = some .step → ¬ (m.afterAll (history.take j)).atWait) := by
  refine ⟨fun e => (Emulator.started_restart e).zeroed (Emulator.executed_restartCall e),
    fun e e' path found loaded => ?_, fun r cs zeroed clocked => ?_⟩
  · obtain ⟨rom, -, -, started⟩ := Emulator.loadRom_eq_ok loaded
    exact started.zeroed rfl
  · intro m history n counted
    have reached : n = m.afterAll history := machine_afterAll zeroed.bounds cs
    have kept : .resetTotals ∉ cs := by
      intro mem
      cases clocked _ mem with
      | timed time => cases time
    have steps : counted = (m.answers history).count (stepped .ok) := by
      have passed := (passed_frames zeroed.bounds kept).steps
      rw [zeroed.steps, Nat.zero_add] at passed
      exact passed.trans (count_moves zeroed.bounds clocked).symm
    have executed : n.executed = counted + m.waitsBegun history := by
      rw [reached, Machine.executed_afterAll (moves_clocked clocked), ← steps]
      rw [show m.executed = 0 from zeroed.executed, Nat.zero_add]
    refine ⟨reached, steps, executed, ?_⟩
    rw [executed, Nat.add_eq_left, Machine.waitsBegun_eq_zero_iff]
    simp only [Bool.not_eq_true]

/-- Three steps a frame. The second begins a wait, a key goes down, and the next frame ends the wait
and makes two more steps. -/
theorem counts_differ_by_one_wait :
    let clock : Clock := { cpuHz := 180, timerHz := 60, timerHz_pos := by decide }
    let data : List Byte := [0x60, 0x05, 0xF3, 0x0A, 0x70, 0x01, 0x12, 0x04]
    let m := (Machine.fresh (Generator.ofSeed 0)).loaded data
    let r := Rig.mk clock m
    let cs : List Call := [.tickFrame, .machine (.press 4), .tickFrame]
    r.Zeroed ∧ (∀ c ∈ cs, Clocked c) ∧
      r.moves cs = [.step, .step, .tick, .press 4, .step, .step, .step, .tick] ∧
      (r.afterAll cs).clock.totalSteps = 4 ∧
      (r.afterAll cs).board.executed = 5 ∧ m.waitsBegun (r.moves cs) = 1 := by
  intro clock data m r cs
  have zeroed : r.Zeroed := ⟨rfl, rfl, rfl, rfl, by decide, by decide⟩
  have clocked : ∀ c ∈ cs, Clocked c := by
    intro c mem
    simp only [cs, List.mem_cons, List.not_mem_nil, or_false] at mem
    rcases mem with rfl | rfl | rfl
    · exact .timed rfl
    · exact .machine ⟨rfl, rfl, nofun⟩
    · exact .timed rfl
  have moves : r.moves cs = [.step, .step, .tick, .press 4, .step, .step, .step, .tick] := by
    decide +kernel
  have waits : (Board.machine r.board).waitsBegun (r.moves cs) = 1 := by
    rw [moves]
    decide +kernel
  have steps : (r.afterAll cs).clock.totalSteps = 4 := by decide +kernel
  obtain ⟨-, -, counts⟩ := counts_differ_by_waits (σ := Machine)
  obtain ⟨-, -, executed, -⟩ := counts r cs zeroed clocked
  rw [steps, waits] at executed
  exact ⟨zeroed, clocked, moves, steps, executed, waits⟩

/-- A program that begins with a wait for a key. After the first frame the machine has counted an
instruction and the clock none, for the only step has answered that the machine waits. -/
theorem counts_differ_at_first_wait :
    ∃ e, Emulator.create { cpuHz := 60 } (some ("wait.ch8", .file [0xF0, 0x0A])) = .ok e ∧
      e.rig.Zeroed ∧
      e.machine.answers (e.rig.moves [.tickFrame]) = [stepped .waiting, .ok (.flag false)] ∧
      (Board.machine (e.rig.after .tickFrame).board).executed = 1 ∧
      (e.rig.after .tickFrame).clock.totalSteps = 0 := by
  refine ⟨_, rfl, ⟨rfl, rfl, rfl, rfl, by decide, by decide⟩, ?_, ?_, ?_⟩
  · decide +kernel
  · decide +kernel
  · decide +kernel

end Clock.Rig

end ChipEight
