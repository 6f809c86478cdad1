import ChipEight.Clock.Call

/-! # Boards that are given the same

All that drives a machine reads a board by its machine and writes to it by `Board.update`. So two
boards that carry one machine, and stay related when both are given the same, stay related whatever
drives them, and give the same answers (`Board.Simulation.perform`, `Clock.Rig.alike_perform`). What
the machine reports on the way is routine: the sign of life and the closing of a window are reported
by a host alone. -/
namespace ChipEight

/-- The states are related, and what came with them is the same. -/
def Agree {σ τ α : Type} (R : σ → τ → Prop) (p : σ × α) (q : τ × α) : Prop := R p.1 q.1 ∧ p.2 = q.2

namespace Event

/-- A sign of life. -/
def isHeartbeat : Event → Bool
  | heartbeat .. => true
  | _ => false

/-- The closing of a window. -/
def isClosing : Event → Bool
  | windowClosed => true
  | _ => false

/-- All that is reported but signs of life and the closing of a window. -/
def routine (e : Event) : Bool := !e.isHeartbeat && !e.isClosing

/-- What the machine reports by itself, and not its host. -/
def isOwn (e : Event) : Bool :=
  match e.source with
  | .rom | .emulator | .window => false
  | _ => true

theorem not_isHeartbeat {e : Event} (routine : e.routine = true) : e.isHeartbeat = false := by
  rw [Event.routine, Bool.and_eq_true, Bool.not_eq_true'] at routine
  exact routine.1

theorem not_isClosing {e : Event} (routine : e.routine = true) : e.isClosing = false := by
  rw [Event.routine, Bool.and_eq_true, Bool.not_eq_true', Bool.not_eq_true'] at routine
  exact routine.2

theorem routine_of_isOwn {e : Event} (own : e.isOwn = true) : e.routine = true := by
  cases e with
  | heartbeat => cases own
  | windowClosed => cases own
  | _ => rfl

end Event

namespace Machine

def Routine (es : List Event) : Prop := ∀ e ∈ es, e.routine = true

def Own (es : List Event) : Prop := ∀ e ∈ es, e.isOwn = true

theorem routine_nil : Routine [] := nofun

theorem routine_singleton {e : Event} (h : e.routine = true) : Routine [e] :=
  List.forall_mem_singleton.mpr h

theorem Own.routine {es : List Event} (h : Own es) : Routine es := fun e mem =>
  Event.routine_of_isOwn (h e mem)

theorem own_nil : Own [] := nofun

theorem own_singleton {e : Event} (h : e.isOwn = true) : Own [e] := List.forall_mem_singleton.mpr h

theorem Own.cons {e : Event} {es : List Event} (h : e.isOwn = true) (hs : Own es) : Own (e :: es) :=
  List.forall_mem_cons.mpr ⟨h, hs⟩

theorem own_switching (before after : Timers) : Own (before.switching after) := by
  unfold Timers.switching
  split
  · exact own_nil
  · exact own_singleton rfl

theorem own_pressEvents (p : Keypad) (k : Nibble) : Own (p.pressEvents k) := by
  unfold Keypad.pressEvents
  cases p.latch with
  | armed => exact (own_singleton rfl).cons rfl
  | off => exact own_singleton rfl
  | holding key => exact own_singleton rfl

theorem own_resetEvents : Own resetEvents := (own_singleton rfl).cons rfl

theorem own_loadEvents (size : Nat) : Own (loadEvents size) := by
  intro e mem
  rcases List.mem_append.mp mem with reset | load
  · exact own_resetEvents e reset
  · exact (own_singleton rfl).cons rfl e load

theorem own_events (m : Machine) (opcode : Word) (i : Instruction) : Own (i.events m opcode) := by
  cases i with
  | sys _ => exact own_singleton rfl
  | data _ => exact own_singleton rfl
  | awaitKey _ => exact own_singleton rfl
  | setSound _ => exact own_switching _ _
  | _ => exact own_nil

theorem own_resumeEvents (m : Machine) : Own m.resumeEvents := by
  unfold resumeEvents
  cases m.keypad.take.2 with
  | none => exact own_nil
  | some key => exact own_singleton rfl

theorem own_dispatchEvents (m : Machine) (w : Word) : Own (m.dispatchEvents w) := by
  simp only [dispatchEvents]
  cases w.dispatched.fault? m.registers with
  | none => exact (own_events m _ _).cons rfl
  | some cause => exact (own_singleton rfl).cons rfl

theorem own_stepEvents (m : Machine) : Own m.stepEvents := by
  unfold stepEvents
  cases m.mode with
  | halted f => exact own_nil
  | awaiting x => exact own_resumeEvents m
  | running => exact own_dispatchEvents m m.fetch

end Machine

namespace Board

open Machine (Routine)

variable {σ τ : Type}

theorem agree_withKey {R : σ → τ → Prop} {a : σ} {b : τ} (h : R a b) (k : Int)
    {act : σ → Nibble → σ} {act' : τ → Nibble → τ} (keys : ∀ n, R (act a n) (act' b n)) :
    Agree R (withKey a k act) (withKey b k act') := by
  unfold withKey
  cases Keypad.key k with
  | ok n => exact ⟨keys n, rfl⟩
  | error e => exact ⟨h, rfl⟩

variable [Board σ] [Board τ]

/-- Related boards carry one machine, and stay related when both are given the same. -/
structure Simulation (R : σ → τ → Prop) : Prop where
  machine {a : σ} {b : τ} : R a b → machine a = machine b
  update {a : σ} {b : τ} (m : Machine) {es : List Event} :
    Routine es → R a b → R (update a m es) (update b m es)

namespace Simulation

variable {R : σ → τ → Prop} {a : σ} {b : τ} (sim : Simulation R)
include sim

theorem step (h : R a b) : Agree R (Board.step a) (Board.step b) := by
  rw [Board.step_eq, Board.step_eq, sim.machine h]
  exact ⟨sim.update _ (Machine.own_stepEvents _).routine h, rfl⟩

theorem tick (h : R a b) : Agree R (Board.tick a) (Board.tick b) := by
  rw [Board.tick_eq, Board.tick_eq, sim.machine h]
  exact ⟨sim.update _ (Machine.own_switching _ _).routine h, rfl⟩

theorem reset (h : R a b) : R (Board.reset a) (Board.reset b) := by
  rw [Board.reset_eq, Board.reset_eq, sim.machine h]
  exact sim.update _ Machine.own_resetEvents.routine h

theorem press (h : R a b) (k : Nibble) : R (Board.press a k) (Board.press b k) := by
  rw [Board.press_eq, Board.press_eq, sim.machine h]
  exact sim.update _ (Machine.own_pressEvents _ k).routine h

theorem release (h : R a b) (k : Nibble) : R (Board.release a k) (Board.release b k) := by
  rw [Board.release_eq, Board.release_eq, sim.machine h]
  exact sim.update _ (Machine.routine_singleton rfl) h

theorem adjust (h : R a b) (f : Machine → Machine) (answer : Except Refusal Answer) :
    Agree R (Board.adjust a f, answer) (Board.adjust b f, answer) := by
  unfold Board.adjust
  rw [sim.machine h]
  exact ⟨sim.update _ Machine.routine_nil h, rfl⟩

theorem look (h : R a b) : Agree R (Board.look a) (Board.look b) := by
  unfold Board.look
  rw [sim.machine h]
  exact ⟨sim.update _ Machine.routine_nil h, rfl⟩

theorem writeSound (h : R a b) (value : Byte) :
    R (Board.writeSound a value) (Board.writeSound b value) := by
  rw [Board.writeSound_eq, Board.writeSound_eq, sim.machine h]
  exact sim.update _ (Machine.own_switching _ _).routine h

/-- A load is accepted on both boards or refused on both. -/
theorem load (h : R a b) (data : List Byte) :
    (∃ a' b', Board.load a data = .ok a' ∧ Board.load b data = .ok b' ∧ R a' b') ∨
      ∃ refusal, Board.load a data = .error refusal ∧ Board.load b data = .error refusal := by
  rw [Board.load_eq, Board.load_eq, sim.machine h]
  cases (Board.machine b).load data with
  | ok m => exact .inl ⟨_, _, rfl, rfl, sim.update m (Machine.own_loadEvents _).routine h⟩
  | error e => exact .inr ⟨e, rfl, rfl⟩

theorem burst (h : R a b) (executed n : Nat) :
    Agree R (Board.burst a executed n) (Board.burst b executed n) := by
  induction n generalizing a b executed with
  | zero => exact ⟨h, rfl⟩
  | succ n ih =>
    obtain ⟨state, result⟩ := sim.step h
    rw [Board.burst, Board.burst]
    rcases ha : Board.step a with ⟨next, x⟩
    rcases hb : Board.step b with ⟨next', y⟩
    rw [ha, hb] at state result
    obtain rfl : x = y := result
    cases x with
    | ok => exact ih state (executed + 1)
    | waiting => exact ⟨state, rfl⟩
    | fault => exact ⟨state, rfl⟩

theorem run (h : R a b) (n : Nat) : Agree R (Board.run a n) (Board.run b n) := by
  obtain ⟨state, result⟩ := sim.burst h 0 n
  exact ⟨state, congrArg Prod.snd result⟩

theorem stepsOnto (h : R a b) (results : List StepResult) (n : Nat) :
    Agree R (Board.stepsOnto results a n) (Board.stepsOnto results b n) := by
  induction n generalizing a b results with
  | zero => exact ⟨h, rfl⟩
  | succ n ih =>
    obtain ⟨state, result⟩ := sim.step h
    rw [Board.stepsOnto, Board.stepsOnto]
    rcases ha : Board.step a with ⟨next, x⟩
    rcases hb : Board.step b with ⟨next', y⟩
    rw [ha, hb] at state result
    obtain rfl : x = y := result
    exact ih state (x :: results)

theorem steps (h : R a b) (n : Nat) : Agree R (Board.steps a n) (Board.steps b n) := by
  obtain ⟨state, results⟩ := sim.stepsOnto h [] n
  exact ⟨state, congrArg List.reverse results⟩

theorem ticks (h : R a b) (n : Nat) : Agree R (Board.ticks a n) (Board.ticks b n) := by
  induction n generalizing a b with
  | zero => exact ⟨h, rfl⟩
  | succ n ih =>
    obtain ⟨first, tone⟩ := sim.tick h
    obtain ⟨state, tones⟩ := ih first
    simp only [Board.ticks]
    rw [tone, tones]
    exact ⟨state, rfl⟩

theorem perform (h : R a b) (c : Machine.Call) :
    Agree R (Board.perform a c) (Board.perform b c) := by
  have machine := sim.machine h
  cases c with
  | reset => exact ⟨sim.reset h, rfl⟩
  | load data =>
    simp only [Board.perform]
    rcases sim.load h data with ⟨a', b', loads, loads', h⟩ | ⟨refusal, fails, fails'⟩
    · rw [loads, loads']
      exact ⟨h, rfl⟩
    · rw [fails, fails']
      exact ⟨h, rfl⟩
  | step =>
    obtain ⟨state, result⟩ := sim.step h
    exact ⟨state, congrArg (Except.ok ∘ Answer.result) result⟩
  | steps n =>
    obtain ⟨state, results⟩ := sim.steps h n
    exact ⟨state, congrArg (Except.ok ∘ Answer.results) results⟩
  | run n =>
    obtain ⟨state, result⟩ := sim.run h n.toNat
    exact ⟨state, congrArg (Except.ok ∘ Answer.result) result⟩
  | tick =>
    obtain ⟨state, tone⟩ := sim.tick h
    exact ⟨state, congrArg (Except.ok ∘ Answer.flag) tone⟩
  | ticks n =>
    obtain ⟨state, tones⟩ := sim.ticks h n
    exact ⟨state, congrArg (Except.ok ∘ Answer.flags) tones⟩
  | press k => exact agree_withKey h k (sim.press h)
  | release k => exact agree_withKey h k (sim.release h)
  | look =>
    obtain ⟨state, dirty⟩ := sim.look h
    exact ⟨state, congrArg (Except.ok ∘ Answer.flag) dirty⟩
  | setSound value => exact ⟨sim.writeSound h _, rfl⟩
  | isDown k => exact ⟨h, by simp only [Board.perform, machine]⟩
  | frame => exact ⟨h, by simp only [Board.perform, machine]⟩
  | read a length => exact ⟨h, by simp only [Board.perform, machine]⟩
  | fetch => exact ⟨h, by simp only [Board.perform, machine]⟩
  | litCount => exact ⟨h, by simp only [Board.perform, machine]⟩
  | describe => exact ⟨h, by simp only [Board.perform, machine]⟩
  | _ =>
    simp only [Board.perform]
    exact sim.adjust h _ _

end Simulation

/-- What routine updates keep of one board. -/
theorem Simulation.of_kept {P : σ → Prop}
    (kept : ∀ (b : σ) (m : Machine) (es : List Event), Routine es → P b → P (Board.update b m es)) :
    Simulation fun a b : σ => a = b ∧ P a := by
  constructor
  · rintro a b ⟨rfl, -⟩
    rfl
  · rintro a b m es routine ⟨rfl, h⟩
    exact ⟨rfl, kept a m es routine h⟩

/-- A board and the machine on it. -/
theorem simulation_machine [LawfulBoard σ] :
    Simulation fun (b : σ) (m : Machine) => Board.machine b = m := by
  constructor
  · intro b m h
    exact h
  · intro b m after es routine h
    exact LawfulBoard.machine_update b after es

end Board

namespace Clock

open Board (Simulation)

variable {σ τ : Type} {R : σ → τ → Prop}

/-- The clocks and the steps are the same, and the boards related. -/
structure Progress.Alike (R : σ → τ → Prop) (p : Progress σ) (q : Progress τ) : Prop where
  clock : p.clock = q.clock
  board : R p.board q.board
  steps : p.steps = q.steps

section

variable [Board σ] [Board τ]

theorem alike_tickFrame (sim : Simulation R) (c : Clock) {a : σ} {b : τ} (h : R a b) :
    Progress.Alike R (c.tickFrame a) (c.tickFrame b) := by
  obtain ⟨burst, counts⟩ := sim.burst h 0 ((c.stepBudget + c.cpuHz) / c.timerHz)
  unfold tickFrame
  simp only [counts]
  exact ⟨rfl, (sim.tick burst).1, rfl⟩

theorem alike_framesFrom (sim : Simulation R) {p : Progress σ} {q : Progress τ}
    (h : Progress.Alike R p q) (n : Nat) : Progress.Alike R (framesFrom p n) (framesFrom q n) := by
  induction n generalizing p q with
  | zero => exact h
  | succ n ih =>
    obtain ⟨clock, board, steps⟩ := h
    rw [framesFrom, framesFrom, clock, steps]
    obtain ⟨clock', board', steps'⟩ := alike_tickFrame sim q.clock board
    exact ih ⟨clock', board', congrArg (q.steps + ·) steps'⟩

theorem alike_advance (sim : Simulation R) (c : Clock) {a : σ} {b : τ} (h : R a b) (micros : Nat) :
    Progress.Alike R (c.advance a micros) (c.advance b micros) :=
  alike_framesFrom sim ⟨rfl, h, rfl⟩ _

end

namespace Rig

/-- The clocks are the same, and the boards related. -/
structure Alike (R : σ → τ → Prop) (r : Rig σ) (s : Rig τ) : Prop where
  clock : r.clock = s.clock
  board : R r.board s.board

theorem alike_ofProgress {p : Progress σ} {q : Progress τ} (h : Progress.Alike R p q) :
    Agree (Alike R) (ofProgress p) (ofProgress q) :=
  ⟨⟨h.clock, h.board⟩, h.steps⟩

variable {r : Rig σ} {s : Rig τ}

theorem alike_times {pass : Rig σ → Rig σ × Nat} {pass' : Rig τ → Rig τ × Nat}
    (passes : ∀ {r s}, Alike R r s → Agree (Alike R) (pass r) (pass' s))
    (h : Alike R r s) (n : Nat) : Agree (Alike R) (times pass r n) (times pass' s n) := by
  induction n generalizing r s with
  | zero => exact ⟨h, rfl⟩
  | succ n ih =>
    obtain ⟨first, steps⟩ := passes h
    obtain ⟨state, rest⟩ := ih first
    simp only [times]
    rw [steps, rest]
    exact ⟨state, rfl⟩

variable [Board σ] [Board τ] (sim : Simulation R) (h : Alike R r s)
include sim h

theorem alike_frame : Agree (Alike R) r.frame s.frame := by
  unfold frame
  rw [h.clock]
  exact alike_ofProgress (alike_tickFrame sim _ h.board)

theorem alike_elapse (micros : Nat) :
    Agree (Alike R) (ofProgress (r.clock.advance r.board micros))
      (ofProgress (s.clock.advance s.board micros)) := by
  rw [h.clock]
  exact alike_ofProgress (alike_advance sim _ h.board micros)

theorem alike_perform (c : Call) :
    Agree (Alike R) (r.perform c) (s.perform c) := by
  cases c with
  | machine call =>
    obtain ⟨board, answer⟩ := sim.perform h.board call
    exact ⟨⟨h.clock, board⟩, answer⟩
  | tickFrame =>
    obtain ⟨state, steps⟩ := alike_frame sim h
    exact ⟨state, congrArg (fun n : Nat => Except.ok (Answer.number n)) steps⟩
  | tickFrames n =>
    obtain ⟨state, steps⟩ := alike_times (alike_frame sim) h n
    exact ⟨state, congrArg (Except.ok ∘ Answer.numbers) steps⟩
  | advance seconds =>
    simp only [perform]
    cases Interval.ofSeconds seconds with
    | error e => exact ⟨h, rfl⟩
    | ok micros =>
      obtain ⟨state, steps⟩ := alike_elapse sim h micros
      exact ⟨state, congrArg (fun n : Nat => Except.ok (Answer.number n)) steps⟩
  | advances seconds n =>
    cases n with
    | zero => exact ⟨h, rfl⟩
    | succ n =>
      simp only [perform]
      cases Interval.ofSeconds seconds with
      | error e => exact ⟨h, rfl⟩
      | ok micros =>
        obtain ⟨state, steps⟩ := alike_times (fun h => alike_elapse sim h micros) h (n + 1)
        exact ⟨state, congrArg (Except.ok ∘ Answer.numbers) steps⟩
  | resetTotals => exact ⟨⟨congrArg Clock.resetTotals h.clock, h.board⟩, rfl⟩
  | cpuHz => exact ⟨h, by simp only [perform, h.clock]⟩
  | stepsPerTick => exact ⟨h, by simp only [perform, h.clock]⟩

end Rig

end Clock

end ChipEight
