import ChipEight.Proofs.Detectors
import ChipEight.Proofs.Randomness
import ChipEight.Proofs.Restart

/-! # Starting again and loading again

A program can be started again, or its file can be loaded again, and both lead to the emulator that one
gets who makes a new one for the file, but for the source of random bytes. As long as the program draws
no random byte, nobody sees a difference. -/
namespace ChipEight

/-! ## Machines with another source -/

namespace Machine

variable {m : Machine} {g : Generator}

/-- The machine with another source of random bytes. -/
def reseed (m : Machine) (g : Generator) : Machine := { m with random := g }

theorem execute_reseed (m : Machine) (g : Generator) {i : Instruction}
    (other : ∀ x mask, i ≠ .random x mask) :
    i.execute (m.reseed g) = ((i.execute m).1.reseed g, (i.execute m).2) := by
  cases i with
  | random x mask => exact absurd rfl (other x mask)
  | _ => rfl

theorem step_reseed (g : Generator) (other : m.atRandom = false) :
    (m.reseed g).step = (m.step.1.reseed g, m.step.2) := by
  have mode : (m.reseed g).mode = m.mode := rfl
  rw [step_eq, step_eq, mode]
  cases running : m.mode with
  | halted f => rfl
  | awaiting x =>
    have take : (m.reseed g).keypad.take = m.keypad.take := rfl
    simp only [resume, take]
    rcases m.keypad.take with ⟨keypad, _ | key⟩
    · rfl
    · rfl
  | running =>
    have quiet : ∀ x mask, Instruction.decode m.fetch ≠ .random x mask := by
      intro x mask decoded
      have opClass := (Instruction.encodes_of_decode decoded).1
      rw [atRandom_iff.mpr ⟨running, opClass⟩] at other
      cases other
    have fetch : (m.reseed g).fetch = m.fetch := rfl
    have registers : (m.reseed g).registers = m.registers := rfl
    simp only [fetch]
    cases fault : (Instruction.decode m.fetch).fault? m.registers with
    | some cause =>
      rw [dispatch_of_fault fault, dispatch_of_fault (m := m.reseed g) fault]
      rfl
    | none =>
      rw [dispatch_of_sound fault, dispatch_of_sound (m := m.reseed g) fault,
        execute_reseed m g quiet]
      rfl

end Machine

/-! ## Draws on record -/

/-- The instruction about to be executed draws a random byte. -/
def Event.isDraw : Event → Bool
  | executing _ opcode => opcode.opClass == 0xC
  | _ => false

namespace Monitor

/-- Everything is kept, and no random byte has been drawn. -/
structure Drawless (b : Monitor) : Prop where
  all : b.journal.threshold = .debug
  none : ∀ event ∈ b.journal.events, event.isDraw = false

/-- What has been drawn stays on record. -/
theorem Drawless.of_record {b : Monitor} {m : Machine} {es : List Event}
    (h : (Board.update b m es).Drawless) : b.Drawless := by
  refine ⟨h.all, fun event mem => h.none event ?_⟩
  change event ∈ (b.journal.record es).events
  rw [Journal.events_record]
  exact List.mem_append_left _ mem

/-- A draw goes on record. -/
theorem Drawless.of_step {b : Monitor} (h : (Board.step b).1.Drawless) : b.machine.atRandom = false := by
  cases draws : b.machine.atRandom with
  | false => rfl
  | true =>
    obtain ⟨running, opClass⟩ := Machine.atRandom_iff.mp draws
    have told : Event.executing b.machine.registers.pc b.machine.fetch ∈ b.machine.stepEvents := by
      rw [Machine.stepEvents, running]
      exact List.mem_cons_self
    have kept : Event.executing b.machine.registers.pc b.machine.fetch ∈
        (b.journal.record b.machine.stepEvents).events := by
      have all : b.journal.threshold = .debug := h.all
      rw [Journal.events_record]
      refine List.mem_append_right _ (List.mem_filter.mpr ⟨told, ?_⟩)
      rw [Journal.keeps, all]
      rfl
    rw [Board.step_eq] at h
    have silent := h.none _ kept
    rw [Event.isDraw, opClass] at silent
    cases silent

theorem drawn_step (b : Monitor) (drawn : ¬ b.Drawless) : ¬ (Board.step b).1.Drawless := by
  rw [Board.step_eq]
  exact fun h => drawn h.of_record

theorem drawn_tick (b : Monitor) (drawn : ¬ b.Drawless) : ¬ (Board.tick b).1.Drawless := by
  rw [Board.tick_eq]
  exact fun h => drawn h.of_record

theorem burst_reseed {b : Monitor} (g : Generator) {executed n : Nat}
    (h : (Board.burst b executed n).1.Drawless) :
    Board.burst (b.machine.reseed g) executed n =
      ((Board.burst b executed n).1.machine.reseed g, (Board.burst b executed n).2) := by
  induction n generalizing b executed with
  | zero => rfl
  | succ n ih =>
    have later : (Board.step b).1.Drawless := by
      refine Classical.byContradiction fun drawn => ?_
      rw [Board.burst] at h
      rcases reached : Board.step b with ⟨after, result⟩
      rw [reached] at h drawn
      cases result with
      | ok => exact Board.burst_keeps (P := fun b : Monitor => ¬ b.Drawless) drawn_step drawn _ _ h
      | waiting => exact drawn h
      | fault => exact drawn h
    have first : Board.step (b.machine.reseed g) =
        ((Board.step b).1.machine.reseed g, (Board.step b).2) := by
      rw [Board.step_machine, Board.step_eq]
      exact Machine.step_reseed g later.of_step
    rw [Board.burst] at h ⊢
    rw [Board.burst, first]
    rcases reached : Board.step b with ⟨after, result⟩
    rw [reached] at h
    cases result with
    | ok => exact ih h
    | waiting => rfl
    | fault => rfl

end Monitor

/-! ## Two rigs -/

namespace Clock.Rig

variable {r : Rig Machine} {s : Rig Monitor}

/-- The rigs differ in the source of random bytes and in the last result at most. The second has a
journal. -/
structure Twin (r : Rig Machine) (s : Rig Monitor) : Prop where
  machine : ∃ g, r.board = s.board.machine.reseed g
  clock : ∃ result, r.clock = { s.clock with lastResult := result }

theorem Twin.frame (h : Twin r s) (quiet : s.frame.1.board.Drawless) : Twin r.frame.1 s.frame.1 := by
  obtain ⟨⟨g, machine⟩, ⟨result, clock⟩⟩ := h
  have burst := Monitor.burst_reseed g (b := s.board) quiet.of_record
  refine ⟨⟨g, ?_⟩, ⟨r.frame.1.clock.lastResult, ?_⟩⟩
  · simp only [Rig.frame, ofProgress, tickFrame, machine, clock, burst]
    rfl
  · simp only [Rig.frame, ofProgress, tickFrame, machine, clock, burst]

theorem drawn_frame (s : Rig Monitor) (drawn : ¬ s.board.Drawless) : ¬ s.frame.1.board.Drawless :=
  Clock.tickFrame_keeps (P := fun b : Monitor => ¬ b.Drawless) Monitor.drawn_step Monitor.drawn_tick
    s.clock drawn

theorem Twin.times (h : Twin r s) {n : Nat} (quiet : (times Rig.frame s n).1.board.Drawless) :
    Twin (times Rig.frame r n).1 (times Rig.frame s n).1 := by
  induction n generalizing r s with
  | zero => exact h
  | succ n ih =>
    have first : s.frame.1.board.Drawless := Classical.byContradiction fun drawn =>
      times_keeps (P := fun s : Rig Monitor => ¬ s.board.Drawless) drawn_frame drawn n quiet
    exact ih (h.frame first) quiet

theorem Twin.elapse (h : Twin r s) {micros : Nat} (quiet : (s.elapse micros).1.board.Drawless) :
    Twin (r.elapse micros).1 (s.elapse micros).1 := by
  obtain ⟨result, clock⟩ := h.clock
  have timeBudget : r.clock.timeBudget = s.clock.timeBudget := by rw [clock]
  have timerHz : r.clock.timerHz = s.clock.timerHz := by rw [clock]
  rw [elapse_eq_cover] at quiet
  rw [elapse_eq_cover, elapse_eq_cover, timeBudget, timerHz]
  obtain ⟨machine, result, clock⟩ := h.times quiet
  exact ⟨machine, result, by rw [cover, setTime, clock]; rfl⟩

end Clock.Rig

theorem Clock.resetTotals_eq {c d : Clock} (cpu : c.cpuHz = d.cpuHz) (timer : c.timerHz = d.timerHz) :
    c.resetTotals = { d.resetTotals with lastResult := c.lastResult } := by
  cases c
  cases d
  simp only at cpu timer
  simp only [resetTotals, cpu, timer]

/-! ## What every report keeps -/

namespace Emulator

variable {e f e' f' : Emulator}

section Holds

variable {P : Monitor → Prop} (records : ∀ (b : Monitor) (m : Machine) (es : List Event),
  P b → P ⟨m, b.journal.record es⟩)
include records

theorem hosts_of_records (v : Bool) : Hosts (fun a b : Monitor => a = b ∧ P a) v v := by
  refine ⟨.of_kept fun b m es _ h => records b m es h, ?_, ?_⟩
  · rintro a b event - ⟨rfl, h⟩
    cases v with
    | false => exact ⟨rfl, h⟩
    | true => exact ⟨rfl, records a a.machine [event] h⟩
  · rintro a b ⟨rfl, h⟩
    exact ⟨rfl, records a a.machine [.windowClosed] h⟩

theorem holds_settle (h : P f.monitor) : P f.settle.monitor :=
  (alike_settle (hosts_of_records records f.verbose) (alike_self h)).monitor.2

theorem holds_iterations (h : P f.monitor) (n : Nat) : P (f.iterations n).monitor :=
  (alike_iterations (hosts_of_records records f.verbose) (alike_self h) n).monitor.2

theorem holds_finish (h : P f.monitor) : P f.finish.monitor :=
  (alike_finish (hosts_of_records records f.verbose) (alike_self h)).monitor.2

theorem holds_play {limit : Option Int} {script : List Moment} {waits : List Emulator} (h : P f.monitor)
    (played : play limit f script = .ok (waits, f')) : P f'.monitor := by
  have both := alike_play (hosts_of_records records f.verbose) limit (alike_self h) script
  rw [played] at both
  cases both with
  | ok runs => exact runs.2.monitor.2

theorem holds_act {a : Act} (h : P f.monitor) (done : f.act? a = some f') : P f'.monitor := by
  have hosts := hosts_of_records records f.verbose
  have self : Alike (fun a b => a = b ∧ P a) f.verbose f.verbose f f := alike_self h
  cases a with
  | handle input =>
    cases done
    exact (alike_handle hosts.routine self input).1.monitor.2
  | run maxFrames =>
    cases done
    exact (alike_perform hosts self (.run maxFrames)).1.monitor.2
  | loop limit script =>
    have both := alike_runScript hosts self limit script
    rw [act?] at done
    cases ran : f.runScript limit script with
    | error refusal =>
      rw [ran] at done
      cases done
    | ok result =>
      rw [ran] at done both
      cases done
      cases both with
      | ok runs => exact runs.2.monitor.2
  | restart =>
    cases done
    exact (alike_restart hosts.routine self).monitor.2
  | loadRom path found =>
    cases done
    exact (alike_perform hosts self (.loadRom path found)).1.monitor.2

theorem holds_acts {acts : List Act} (h : P f.monitor) (done : f.acts? acts = some f') :
    P f'.monitor := by
  induction acts generalizing f with
  | nil =>
    cases done
    exact h
  | cons a acts ih =>
    rw [acts?] at done
    cases reached : f.act? a with
    | none =>
      rw [reached] at done
      cases done
    | some next =>
      rw [reached] at done
      exact ih (holds_act records h reached) done

end Holds

/-! If no draw is on record at the end, none was before. -/

theorem drawn_records (b : Monitor) (m : Machine) (es : List Event) (drawn : ¬ b.Drawless) :
    ¬ Monitor.Drawless ⟨m, b.journal.record es⟩ := fun h => drawn h.of_record

theorem drawless_of_settle (quiet : f.settle.monitor.Drawless) : f.monitor.Drawless :=
  Classical.byContradiction fun drawn => holds_settle drawn_records drawn quiet

theorem drawless_of_iterations {n : Nat} (quiet : (f.iterations n).monitor.Drawless) :
    f.monitor.Drawless :=
  Classical.byContradiction fun drawn => holds_iterations drawn_records drawn n quiet

theorem drawless_of_finish (quiet : f.finish.monitor.Drawless) : f.monitor.Drawless :=
  Classical.byContradiction fun drawn => holds_finish drawn_records drawn quiet

theorem drawless_of_play {limit : Option Int} {script : List Moment} {waits : List Emulator}
    (played : play limit f script = .ok (waits, f')) (quiet : f'.monitor.Drawless) :
    f.monitor.Drawless :=
  Classical.byContradiction fun drawn => holds_play drawn_records drawn played quiet

theorem drawless_of_acts {acts : List Act} (done : f.acts? acts = some f')
    (quiet : f'.monitor.Drawless) : f.monitor.Drawless :=
  Classical.byContradiction fun drawn => holds_acts drawn_records drawn done quiet

/-! ## Two emulators -/

/-- Emulators of one kind with the same program, which differ in the source of random bytes and in the
last result at most. -/
structure Twins (e f : Emulator) : Prop where
  machine : ∃ g, e.machine = f.machine.reseed g
  clock : ∃ result, e.clock = { f.clock with lastResult := result }
  rom : e.rom = f.rom
  window : e.window.isSome = f.window.isSome
  listens : e.listens = f.listens

theorem Twins.rig (h : Twins e f) : Clock.Rig.Twin e.bare f.rig := ⟨h.machine, h.clock⟩

/-- What is done to both machines without regard to the source. -/
theorem Twins.move (h : Twins e f) (move : Machine → Machine)
    (commutes : ∀ m g, move (m.reseed g) = (move m).reseed g) {mine yours : Monitor}
    (moved : mine.machine = move e.machine) (moved' : yours.machine = move f.machine) :
    Twins { e with monitor := mine } { f with monitor := yours } := by
  obtain ⟨g, machine⟩ := h.machine
  refine { h with machine := ⟨g, ?_⟩ }
  rw [machine, commutes, ← moved'] at moved
  exact moved

/-- Both have started a program. -/
theorem Twins.started (h : Twins e f) {m n : Machine} (mine : Started e e' m) (yours : Started f f' n)
    (rom : e'.rom = f'.rom) (machine : ∃ g, m = n.reseed g) : Twins e' f' := by
  obtain ⟨result, clock⟩ := h.clock
  refine ⟨?_, ⟨result, ?_⟩, rom, ?_, ?_⟩
  · rw [mine.machine, yours.machine]
    exact machine
  · rw [mine.clock, yours.clock, clock]
    rfl
  · rw [mine.window, yours.window, h.window]
  · rw [mine.listens, yours.listens, h.listens]

theorem Twins.restart (h : Twins e f) : Twins e.restart f.restart := by
  refine h.started (started_restart e) (started_restart f) h.rom ⟨e.machine.random, ?_⟩
  have call : e.restartCall = f.restartCall := by rw [restartCall, restartCall, h.rom]
  rw [call, restartCall]
  cases f.rom with
  | none => rfl
  | some rom =>
    rw [Machine.after, Machine.after, Machine.perform_load_of_fits rom.fits.2,
      Machine.perform_load_of_fits rom.fits.2]
    rfl

/-- A file is refused by both, or both start it. -/
theorem Twins.loadRom (h : Twins e f) (path : String) (found : Entry) :
    Twins (e.perform (.loadRom path found)).1 (f.perform (.loadRom path found)).1 := by
  simp only [perform, Emulator.loadRom]
  cases Rom.ofEntry path found with
  | error refusal => exact h
  | ok rom =>
    obtain ⟨loaded, inserted, present, started⟩ := e.insert_eq rom
    obtain ⟨loaded', inserted', present', started'⟩ := f.insert_eq rom
    simp only [inserted, inserted']
    exact h.started started started' (present.trans present'.symm) ⟨e.machine.random, rfl⟩

theorem Twins.key (h : Twins e f) (down : Bool) (code : Int) {act : Monitor → Nibble → Monitor}
    (move : Machine → Nibble → Machine) (acts : ∀ b k, (act b k).machine = move b.machine k)
    (commutes : ∀ k m g, move (m.reseed g) k = (move m k).reseed g) :
    let pass (e : Emulator) : Emulator × Bool :=
      match Keyboard.key? code with
      | none => (e, true)
      | some k =>
        let e := e.note (.hostKey down code k)
        ({ e with monitor := act e.monitor k }, true)
    Agree Twins (pass e) (pass f) := by
  intro pass
  simp only [pass]
  cases Keyboard.key? code with
  | none => exact ⟨h, rfl⟩
  | some k => exact ⟨h.move (fun m => move m k) (commutes k) (acts _ k) (acts _ k), rfl⟩

theorem Twins.handle (h : Twins e f) (input : Keyboard.Input) :
    Agree Twins (e.handle input) (f.handle input) := by
  unfold Emulator.handle
  rw [← h.listens]
  cases e.listens with
  | false => exact ⟨h, rfl⟩
  | true =>
    simp only [if_true]
    cases input with
    | quit => exact ⟨h, rfl⟩
    | other => exact ⟨h, rfl⟩
    | keyUp code =>
      exact h.key false code Machine.release (fun _ _ => rfl) fun _ _ _ => rfl
    | keyDown code =>
      by_cases escape : code = Keyboard.escape
      · simp only [if_pos escape]
        exact ⟨h, rfl⟩
      · by_cases restart : code = Keyboard.restart
        · simp only [if_neg escape, if_pos restart]
          exact ⟨h.restart, rfl⟩
        · simp only [if_neg escape, if_neg restart]
          refine h.key true code Machine.press (fun b k => ?_) fun _ _ _ => rfl
          exact congrArg Monitor.machine (Board.press_eq b k)

theorem Twins.handleAll (h : Twins e f) (inputs : List Keyboard.Input) :
    Agree Twins (e.handleAll inputs) (f.handleAll inputs) := by
  induction inputs generalizing e f with
  | nil => exact ⟨h, rfl⟩
  | cons input inputs ih =>
    obtain ⟨state, goesOn⟩ := h.handle input
    rw [Emulator.handleAll, Emulator.handleAll]
    rcases first : e.handle input with ⟨next, x⟩
    rcases second : f.handle input with ⟨next', y⟩
    rw [first, second] at state goesOn
    obtain rfl : x = y := goesOn
    cases x with
    | true => exact ih state
    | false => exact ⟨state, rfl⟩

theorem Twins.settle (h : Twins e f) : Twins e.settle f.settle := by
  refine ⟨?_, ?_, ?_, ?_, ?_⟩
  · obtain ⟨g, machine⟩ := h.machine
    refine ⟨g, ?_⟩
    rw [machine_settle, machine_settle, seen, seen, h.window, machine]
    cases f.window.isSome with
    | false => rfl
    | true => rfl
  · rw [clock_settle, clock_settle]
    exact h.clock
  · rw [rom_settle, rom_settle, h.rom]
  · rw [window_settle, window_settle, h.window]
  · rw [listens_settle, listens_settle, h.listens]

theorem Twins.start (h : Twins e f) : Twins e.start f.start := { h with }

theorem Twins.finish (h : Twins e f) : Twins e.finish f.finish := by
  have ended (d : Emulator) : d.finish.machine = d.machine ∧ d.finish.clock = d.clock ∧
      d.finish.rom = d.rom ∧ d.finish.window.isSome = d.window.isSome ∧
      d.finish.listens = d.listens := by
    unfold Emulator.finish
    simp only
    cases d.window with
    | none => exact ⟨rfl, rfl, rfl, rfl, rfl⟩
    | some w => exact ⟨rfl, rfl, rfl, rfl, rfl⟩
  obtain ⟨machine, clock, rom, window, listens⟩ := ended e
  obtain ⟨machine', clock', rom', window', listens'⟩ := ended f
  refine ⟨?_, ?_, ?_, ?_, ?_⟩
  · rw [machine, machine']
    exact h.machine
  · rw [clock, clock']
    exact h.clock
  · rw [rom, rom', h.rom]
  · rw [window, window', h.window]
  · rw [listens, listens', h.listens]

theorem Twins.passFrame (h : Twins e f) (quiet : f.passFrame.monitor.Drawless) :
    Twins e.passFrame f.passFrame := by
  have passed := h.rig.frame quiet
  rw [← bare_passFrame] at passed
  exact { h with machine := passed.machine, clock := passed.clock }

theorem Twins.passMillis (h : Twins e f) {millis : Int} (passes : f.passMillis millis = .ok f')
    (quiet : f'.monitor.Drawless) : ∃ e', e.passMillis millis = .ok e' ∧ Twins e' f' := by
  obtain ⟨micros, interval, rfl⟩ := passMillis_eq_ok passes
  refine ⟨_, passMillis_eq interval, ?_⟩
  have passed := h.rig.elapse quiet
  obtain ⟨clock, machine⟩ := (Clock.Rig.alike_elapse Board.simulation_machine
    (⟨rfl, rfl⟩ : Clock.Rig.Alike (Board.machine · = ·) e.rig e.bare) micros).1
  obtain ⟨g, machine'⟩ := passed.machine
  obtain ⟨result, clock'⟩ := passed.clock
  exact { h with machine := ⟨g, machine.trans machine'⟩, clock := ⟨result, clock.trans clock'⟩ }

theorem Twins.iterations (h : Twins e f) {n : Nat} (quiet : (f.iterations n).monitor.Drawless) :
    Twins (e.iterations n) (f.iterations n) := by
  induction n generalizing e f with
  | zero => exact h
  | succ n ih =>
    have first : f.passFrame.monitor.Drawless :=
      drawless_of_settle (drawless_of_iterations (f := f.iterate) quiet)
    exact ih (h.passFrame first).settle quiet

/-- Iterations with a window end alike. -/
theorem Twins.pass (h : Twins e f) (count : e.frameCount = f.frameCount) {millis : Int}
    (passes : f.passMillis millis = .ok f') (quiet : f'.monitor.Drawless) (limit : Option Int) :
    ∃ e', e.passMillis millis = .ok e' ∧ Twins e'.settle f'.settle ∧
      e'.settle.frameCount = f'.settle.frameCount ∧
      e'.settle.isComplete limit = f'.settle.isComplete limit := by
  obtain ⟨e', passes', twins⟩ := h.passMillis passes quiet
  have level : e'.settle.frameCount = f'.settle.frameCount := by
    rw [frameCount_settle, frameCount_settle, (sameRun_passMillis passes').frameCount,
      (sameRun_passMillis passes).frameCount, count]
  refine ⟨e', passes', twins.settle, level, ?_⟩
  unfold isComplete
  rw [level]

/-- The loops go alike if they begin with the same number of frames. -/
theorem Twins.play (h : Twins e f) (count : e.frameCount = f.frameCount) {limit : Option Int}
    {script : List Moment} {waits : List Emulator} (played : play limit f script = .ok (waits, f'))
    (quiet : f'.monitor.Drawless) :
    ∃ waits' e', Emulator.play limit e script = .ok (waits', e') ∧ Twins e' f' := by
  -- that no byte is drawn is known of the end only, so each iteration learns it from those after it
  induction script generalizing e f waits with
  | nil =>
    cases played
    exact ⟨[], e, rfl, h⟩
  | cons moment script ih =>
    obtain ⟨heard, goesOn⟩ := h.handleAll moment.inputs
    have level : (e.handleAll moment.inputs).1.frameCount = (f.handleAll moment.inputs).1.frameCount := by
      rw [(sameRun_handleAll e moment.inputs).frameCount, (sameRun_handleAll f moment.inputs).frameCount,
        count]
    rw [Emulator.play] at played ⊢
    rcases first : e.handleAll moment.inputs with ⟨next, x⟩
    rcases second : f.handleAll moment.inputs with ⟨next', y⟩
    rw [first, second] at heard goesOn level
    rw [second] at played
    obtain rfl : x = y := goesOn
    cases x with
    | false =>
      cases played
      exact ⟨_, _, rfl, heard⟩
    | true =>
      cases wait : moment.wait with
      | interrupt =>
        simp only [wait] at played
        cases played
        exact ⟨_, _, rfl, heard⟩
      | elapsed millis =>
        simp only [wait] at played ⊢
        cases passes : next'.passMillis millis with
        | error refusal =>
          rw [passes] at played
          cases played
        | ok passed' =>
          simp only [passes] at played
          by_cases ends : passed'.settle.isComplete limit = true
          · simp only [if_pos ends] at played
            cases played
            obtain ⟨passed, passes', twins, -, complete⟩ :=
              heard.pass level passes (drawless_of_settle quiet) limit
            simp only [passes', complete, if_pos ends]
            exact ⟨_, _, rfl, twins⟩
          · simp only [if_neg ends] at played
            cases rest : Emulator.play limit passed'.settle script with
            | error refusal =>
              rw [rest] at played
              cases played
            | ok ended =>
              rw [rest] at played
              cases played
              obtain ⟨passed, passes', twins, level, complete⟩ :=
                heard.pass level passes (drawless_of_settle (drawless_of_play rest quiet)) limit
              obtain ⟨waits', e', others, reached⟩ := ih twins level rest
              simp only [passes', complete, if_neg ends, others]
              exact ⟨_, _, rfl, reached⟩

theorem Twins.run (h : Twins e f) (maxFrames : Int)
    (quiet : (f.perform (.run maxFrames)).1.monitor.Drawless) :
    Twins (e.perform (.run maxFrames)).1 (f.perform (.run maxFrames)).1 := by
  simp only [perform, Emulator.run, h.rom] at quiet ⊢
  cases present : f.rom with
  | none => exact h
  | some rom =>
    simp only [present] at quiet
    exact (h.start.iterations (drawless_of_finish quiet)).finish

theorem Twins.runScript (h : Twins e f) {limit : Option Int} {script : List Moment}
    {waits : List Emulator} (ran : f.runScript limit script = .ok (waits, f'))
    (quiet : f'.monitor.Drawless) :
    ∃ waits' e', e.runScript limit script = .ok (waits', e') ∧ Twins e' f' := by
  unfold Emulator.runScript at ran ⊢
  rw [h.rom]
  cases present : f.rom with
  | none =>
    rw [present] at ran
    cases ran
  | some rom =>
    simp only [present] at ran ⊢
    cases played : Emulator.play limit f.start script with
    | error refusal =>
      rw [played] at ran
      cases ran
    | ok ended =>
      rw [played] at ran
      cases ran
      obtain ⟨waits', e', others, twins⟩ := h.start.play rfl played (drawless_of_finish quiet)
      rw [others]
      exact ⟨_, _, rfl, twins.finish⟩

theorem Twins.act (h : Twins e f) {a : Act} (done : f.act? a = some f') (quiet : f'.monitor.Drawless) :
    ∃ e', e.act? a = some e' ∧ Twins e' f' := by
  cases a with
  | handle input =>
    cases done
    exact ⟨_, rfl, (h.handle input).1⟩
  | run maxFrames =>
    cases done
    exact ⟨_, rfl, h.run maxFrames quiet⟩
  | loop limit script =>
    simp only [act?] at done ⊢
    cases ran : f.runScript limit script with
    | error refusal =>
      rw [ran] at done
      cases done
    | ok ended =>
      rw [ran] at done
      cases done
      obtain ⟨waits', e', others, twins⟩ := h.runScript ran quiet
      rw [others]
      exact ⟨_, rfl, twins⟩
  | restart =>
    cases done
    exact ⟨_, rfl, h.restart⟩
  | loadRom path found =>
    cases done
    exact ⟨_, rfl, h.loadRom path found⟩

theorem Twins.acts (h : Twins e f) {acts : List Act} (done : f.acts? acts = some f')
    (quiet : f'.monitor.Drawless) : ∃ e', e.acts? acts = some e' ∧ Twins e' f' := by
  induction acts generalizing e f with
  | nil =>
    cases done
    exact ⟨e, rfl, h⟩
  | cons a acts ih =>
    rw [acts?] at done ⊢
    cases reached : f.act? a with
    | none =>
      rw [reached] at done
      cases done
    | some next =>
      rw [reached] at done
      obtain ⟨next', reached', twins⟩ := h.act reached (drawless_of_acts done quiet)
      rw [reached']
      exact ih twins done

/-! ## The main statement -/

theorem loadRom_of_accepted {path : String} {found : Entry} {rom : Rom}
    (accepted : Rom.ofEntry path found = .ok rom) : ∃ loaded, e.loadRom path found = .ok loaded ∧
      Started e loaded (e.machine.loaded rom.data) ∧ loaded.rom = some rom ∧
      loaded.frameCount = e.frameCount ∧ loaded.running = e.running := by
  simp only [loadRom, accepted, insert, Board.load_loaded _ rom.fits.2]
  exact ⟨_, rfl, ⟨rfl, rfl, rfl, rfl, rfl, rfl⟩, rfl, rfl, rfl⟩

theorem restart_of_present {rom : Rom} (present : e.rom = some rom) :
    Started e e.restart (e.machine.loaded rom.data) := by
  have started := started_restart e
  rw [restartCall, present, Machine.after, Machine.perform_load_of_fits rom.fits.2] at started
  exact started

/-- What a new emulator has in common with one whose program has been started. -/
theorem create_of_accepted {setup : Setup} {path : String} {found : Entry} {rom : Rom}
    (accepted : Rom.ofEntry path found = .ok rom)
    (created : create setup (some (path, found)) = .ok e) :
    e.machine = .freshWith (Generator.ofSeed setup.seed) rom.data ∧
      (∃ clock : Clock, e.clock = clock.resetTotals) ∧ e.rom = some rom ∧
      e.toneOn = false ∧ e.faultReported = false ∧ e.monitor.journal.threshold = .debug := by
  obtain ⟨clock, loaded, opened, -, loads, opens, rfl⟩ := create_parts created
  obtain ⟨loaded', loads', started, present, -, -⟩ := loadRom_of_accepted accepted
  obtain rfl := Except.ok.inj (loads'.symm.trans loads)
  obtain ⟨bare, rom, toneOn, faultReported, threshold⟩ := opens.keeps
  exact ⟨(congrArg Clock.Rig.board bare).trans started.machine,
    ⟨clock, (congrArg Clock.Rig.clock bare).trans started.clock⟩, rom.trans present,
    toneOn.trans started.toneOn, faultReported.trans started.faultReported,
    threshold.trans (afresh_loadRom loads).monitor.threshold⟩

/-- **Starting a program again is like loading its file again, or making a new emulator for it.** The
first two lead to the same emulator, but for what has been written to the journal. A new emulator has
the same machine with another source of random bytes, and as little on its counters, in its budgets and
in mind. If the frequencies and the kind of the host are the same too, then whatever is done next, be it
runs of any kind, inputs, restarts or loads, leads to the same machine but for the source, and to the
same clock but for the last result before the first step, as long as no random byte is drawn. -/
theorem restart_agrees_with_reload (e : Emulator) (path : String) (found : Entry) (rom : Rom)
    (present : e.rom = some rom) (unchanged : Rom.ofEntry path found = .ok rom) :
    (∃ loaded, e.loadRom path found = .ok loaded ∧
      loaded.machine = e.restart.machine ∧ loaded.clock = e.restart.clock ∧
      loaded.toneOn = e.restart.toneOn ∧ loaded.faultReported = e.restart.faultReported ∧
      loaded.frameCount = e.restart.frameCount ∧ loaded.running = e.restart.running) ∧
    ∀ (again : Emulator), again = e.restart ∨ e.loadRom path found = .ok again →
      ∀ (setup : Setup) (made : Emulator), create setup (some (path, found)) = .ok made →
        again.machine = made.machine.reseed e.machine.random ∧
        again.clock.totalSteps = made.clock.totalSteps ∧
        again.clock.totalTicks = made.clock.totalTicks ∧
        again.clock.stepBudget = made.clock.stepBudget ∧
        again.clock.timeBudget = made.clock.timeBudget ∧
        again.toneOn = made.toneOn ∧ again.faultReported = made.faultReported ∧
        (e.clock.cpuHz = made.clock.cpuHz → e.clock.timerHz = made.clock.timerHz →
          e.window.isSome = made.window.isSome → e.listens = made.listens →
          ∀ (acts : List Act) (new : Emulator), made.acts? acts = some new →
            (∀ event ∈ new.monitor.journal.events, event.isDraw = false) →
            ∃ now, again.acts? acts = some now ∧
              now.machine = new.machine.reseed now.machine.random ∧
              now.clock = { new.clock with lastResult := now.clock.lastResult }) := by
  obtain ⟨loaded, loads, reloaded, kept, frameCount, running⟩ := loadRom_of_accepted (e := e) unchanged
  have restarted := restart_of_present present
  refine ⟨⟨loaded, loads, ?_, ?_, ?_, ?_, frameCount, running⟩, ?_⟩
  · rw [reloaded.machine, restarted.machine]
  · rw [reloaded.clock, restarted.clock]
  · rw [reloaded.toneOn, restarted.toneOn]
  · rw [reloaded.faultReported, restarted.faultReported]
  intro again ways setup made created
  -- from here on it makes no difference in which way the program has been started
  obtain ⟨started, same⟩ : Started e again (e.machine.loaded rom.data) ∧ again.rom = some rom := by
    rcases ways with rfl | other
    · exact ⟨restarted, present⟩
    · obtain rfl := Except.ok.inj (loads.symm.trans other)
      exact ⟨reloaded, kept⟩
  obtain ⟨machine, ⟨clock, zero⟩, rom', toneOn, faultReported, threshold⟩ :=
    create_of_accepted unchanged created
  have fresh : again.machine = made.machine.reseed e.machine.random := by
    rw [started.machine, machine]
    rfl
  rw [started.clock, started.toneOn, started.faultReported, zero, toneOn, faultReported]
  refine ⟨fresh, rfl, rfl, rfl, rfl, rfl, rfl, fun cpuHz timerHz window listens acts new done none => ?_⟩
  have twins : Twins again made := by
    refine ⟨⟨_, fresh⟩, ⟨e.clock.lastResult, ?_⟩, same.trans rom'.symm, ?_, ?_⟩
    · rw [started.clock, zero]
      exact Clock.resetTotals_eq cpuHz timerHz
    · rw [started.window, window]
    · rw [started.listens, listens]
  have all : new.monitor.journal.threshold = .debug :=
    holds_acts (P := fun b : Monitor => b.journal.threshold = .debug) (fun _ _ _ same => same) threshold done
  obtain ⟨now, reached, ⟨g, machine⟩, ⟨result, clock⟩, -⟩ := twins.acts done ⟨all, none⟩
  refine ⟨now, reached, ?_, ?_⟩
  · rw [machine]
    rfl
  · rw [clock]

/-- A program that waits for one key after another is started again while its machine holds a key, with
steps and a fault left over, and goes on as with a new emulator. -/
theorem restart_while_key_is_held :
    let program : List Byte := [0xF3, 0x0A, 0x12, 0x00]
    let acts : List Act := [.run 2, .handle (.keyDown 113), .run 1, .handle restartKey, .run 1]
    ∃ made rom, create {} (some ("a.ch8", .file program)) = .ok made ∧
      Rom.ofEntry "a.ch8" (.file program) = .ok rom ∧
      let e : Emulator := { made with
        monitor := Board.press (Board.step made.monitor).1 7
        clock := { made.clock with stepBudget := 20, totalSteps := 9, lastResult := .waiting }
        toneOn := true
        faultReported := true }
      e.rom = some rom ∧ e.machine.keypad.latch = .holding 7 ∧
      (∃ loaded, e.loadRom "a.ch8" (.file program) = .ok loaded ∧
        loaded.machine = e.restart.machine) ∧
      e.restart.machine = made.machine.reseed e.machine.random ∧
      ∃ now new, made.acts? acts = some new ∧
        (∀ event ∈ new.monitor.journal.events, event.isDraw = false) ∧
        e.restart.acts? acts = some now ∧
        now.machine = new.machine.reseed now.machine.random ∧
        now.clock = { new.clock with lastResult := now.clock.lastResult } := by
  intro program acts
  obtain ⟨made, rom, new, created, accepted, present, done, latch, none⟩ : ∃ made rom new,
      create {} (some ("a.ch8", .file program)) = .ok made ∧
        Rom.ofEntry "a.ch8" (.file program) = .ok rom ∧ made.rom = some rom ∧
        made.acts? acts = some new ∧
        (Board.press (Board.step made.monitor).1 7).machine.keypad.latch = .holding 7 ∧
        ∀ event ∈ new.monitor.journal.events, event.isDraw = false :=
    ⟨_, _, _, rfl, rfl, rfl, rfl, by decide +kernel, by decide +kernel⟩
  refine ⟨made, rom, created, accepted, ?_⟩
  intro e
  obtain ⟨⟨loaded, loads, machine, -⟩, same⟩ :=
    restart_agrees_with_reload e "a.ch8" (.file program) rom present accepted
  obtain ⟨fresh, -, -, -, -, -, -, later⟩ := same e.restart (.inl rfl) {} made created
  obtain ⟨now, reached, machine', clock'⟩ := later rfl rfl rfl rfl acts new done none
  exact ⟨present, latch, ⟨loaded, loads, machine⟩, fresh, now, new, done, none, reached, machine', clock'⟩

end Emulator

end ChipEight
