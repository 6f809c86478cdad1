import Mathlib.Data.List.Forall2
import ChipEight.Emulator.Call
import ChipEight.Proofs.Host

/-! # Hosts with related monitors

A host looks at its monitor for the machine only, and adds to it what it reports. So two hosts that
differ in their monitors, and in whether they give signs of life, go the same way (`alike_perform`,
`alike_runScript`). -/
namespace ChipEight

/-- Both are there and related, or both are refused for the same reason. -/
inductive Both {α β : Type} (Q : α → β → Prop) : Except Refusal α → Except Refusal β → Prop
  | ok {a : α} {b : β} (h : Q a b) : Both Q (.ok a) (.ok b)
  | refused (refusal : Refusal) : Both Q (.error refusal) (.error refusal)

namespace Monitor

variable {p : Event → Bool} {threshold : Level} {k : Nat}

/-- The journal keeps events from a threshold on, and it has kept so many of a kind. -/
def Kept (p : Event → Bool) (threshold : Level) (k : Nat) (b : Monitor) : Prop :=
  b.journal.threshold = threshold ∧ b.journal.events.countP p = k

theorem kept_record {b : Monitor} (m : Machine) {es : List Event}
    (other : ∀ event ∈ es, p event = false) (h : b.Kept p threshold k) :
    Kept p threshold k ⟨m, b.journal.record es⟩ := by
  obtain ⟨keeps, count⟩ := h
  refine ⟨keeps, ?_⟩
  have zero : (es.filter b.journal.keeps).countP p = 0 := by
    refine List.countP_eq_zero.mpr fun event mem => ?_
    rw [other event (List.mem_of_mem_filter mem)]
    exact Bool.false_ne_true
  rw [Journal.events_record, List.countP_append, zero, count]
  rfl

theorem simulation_kept (threshold : Level) (k : Nat)
    (rare : ∀ {event : Event}, event.routine = true → p event = false) :
    Board.Simulation fun a b : Monitor => a = b ∧ a.Kept p threshold k :=
  .of_kept fun _ m _ routine h => kept_record m (fun event mem => rare (routine event mem)) h

end Monitor

namespace Emulator

open Board (Simulation)

variable {R : Monitor → Monitor → Prop} {v v' : Bool} {e e' : Emulator}

/-- Hosts that have related monitors and differ in nothing else, except that the one gives signs of
life if `v` and the other if `v'`. -/
structure Alike (R : Monitor → Monitor → Prop) (v v' : Bool) (e e' : Emulator) : Prop where
  monitor : R e.monitor e'.monitor
  clock : e.clock = e'.clock
  rom : e.rom = e'.rom
  window : e.window = e'.window
  listens : e.listens = e'.listens
  toneOn : e.toneOn = e'.toneOn
  faultReported : e.faultReported = e'.faultReported
  running : e.running = e'.running
  frameCount : e.frameCount = e'.frameCount
  verbose : e.verbose = v
  verbose' : e'.verbose = v'

theorem Alike.eq (h : Alike R v v' e e') : e' = { e with monitor := e'.monitor, verbose := v' } := by
  obtain ⟨-, clock, rom, window, listens, toneOn, faultReported, running, frameCount, -, verbose⟩ := h
  cases e'
  simp only at clock rom window listens toneOn faultReported running frameCount verbose
  simp only [clock, rom, window, listens, toneOn, faultReported, running, frameCount, verbose]

theorem Alike.title (h : Alike R v v' e e') : e.title = e'.title := by
  unfold Emulator.title
  rw [h.rom]

theorem Alike.start (h : Alike R v v' e e') : Alike R v v' e.start e'.start :=
  { h with running := rfl, frameCount := rfl }

theorem Alike.afterProgress (h : Alike R v v' e e') {p q : Clock.Progress Monitor}
    (passed : Clock.Progress.Alike R p q) :
    Alike R v v' (e.afterProgress p) (e'.afterProgress q) :=
  { h with monitor := passed.board, clock := passed.clock }

theorem Alike.setCaption (h : Alike R v v' e e') (text : String) :
    Alike R v v' (e.setCaption text) (e'.setCaption text) :=
  { h with window := congrArg (Option.map fun w : Window => w.setCaption text) h.window }

theorem Alike.rearm (h : Alike R v v' e e') {b b' : Monitor} (related : R b b') :
    Alike R v v' (rearm { e with monitor := b }) (rearm { e' with monitor := b' }) :=
  { h with
    monitor := related
    clock := congrArg Clock.resetTotals h.clock
    toneOn := rfl
    faultReported := rfl }

/-- The monitor after the machine on it has been started again with a program, if there is one. -/
def reloaded (b : Monitor) (rom : Option Rom) : Monitor :=
  match rom with
  | none => Board.reset b
  | some rom =>
    match Board.load b rom.data with
    | .ok b => b
    | .error _ => b

theorem restart_eq (e : Emulator) :
    e.restart = (rearm { e with monitor := reloaded e.monitor e.rom }).note .restarted := rfl

section Routine

variable (sim : Simulation R)
include sim

theorem note_of_routine {a b : Monitor} (h : R a b) (event : Event)
    (routine : event.routine = true) : R (a.note event) (b.note event) := by
  have machine : a.machine = b.machine := sim.machine h
  have notes : R (Board.update a a.machine [event]) (Board.update b a.machine [event]) :=
    sim.update _ (Machine.routine_singleton routine) h
  have same : Board.update b a.machine [event] = b.note event := by
    rw [machine]
    rfl
  rw [same] at notes
  exact notes

theorem Alike.machine (h : Alike R v v' e e') : e.machine = e'.machine := sim.machine h.monitor

theorem Alike.note (h : Alike R v v' e e') (event : Event) (routine : event.routine = true) :
    Alike R v v' (e.note event) (e'.note event) :=
  { h with monitor := note_of_routine sim h.monitor event routine }

theorem related_reloaded {a b : Monitor} (h : R a b) (rom : Option Rom) :
    R (reloaded a rom) (reloaded b rom) := by
  cases rom with
  | none => exact sim.reset h
  | some rom =>
    unfold reloaded
    rcases sim.load h rom.data with ⟨a', b', loads, loads', h'⟩ | ⟨refusal, fails, fails'⟩
    · simp only [loads, loads']
      exact h'
    · simp only [fails, fails']
      exact h

theorem alike_restart (h : Alike R v v' e e') : Alike R v v' e.restart e'.restart := by
  have related : R (reloaded e.monitor e.rom) (reloaded e'.monitor e'.rom) := by
    rw [← h.rom]
    exact related_reloaded sim h.monitor e.rom
  rw [restart_eq, restart_eq]
  exact (h.rearm related).note sim .restarted rfl

theorem alike_insert (h : Alike R v v' e e') (rom : Rom) :
    Both (Alike R v v') (e.insert rom) (e'.insert rom) := by
  have read := note_of_routine sim h.monitor (.romRead rom.path.name rom.size) rfl
  unfold insert
  rcases sim.load read rom.data with ⟨a', b', loads, loads', h'⟩ | ⟨refusal, fails, fails'⟩
  · simp only [loads, loads']
    have inserted : Alike R v v' { e with rom := some rom } { e' with rom := some rom } :=
      { h with rom := rfl }
    exact .ok ((inserted.rearm h').note sim _ rfl)
  · simp only [fails, fails']
    exact .refused refusal

theorem alike_loadRom (h : Alike R v v' e e') (path : String) (found : Entry) :
    Both (Alike R v v') (e.loadRom path found) (e'.loadRom path found) := by
  unfold loadRom
  cases Rom.ofEntry path found with
  | ok rom => exact alike_insert sim h rom
  | error refusal => exact .refused refusal

theorem alike_key (h : Alike R v v' e e') (down : Bool) (code : Int)
    {act : Monitor → Nibble → Monitor} (acts : ∀ {a b} (k : Nibble), R a b → R (act a k) (act b k)) :
    let pass (e : Emulator) : Emulator × Bool :=
      match Keyboard.key? code with
      | none => (e, true)
      | some k =>
        let e := e.note (.hostKey down code k)
        ({ e with monitor := act e.monitor k }, true)
    Agree (Alike R v v') (pass e) (pass e') := by
  intro pass
  simp only [pass]
  cases Keyboard.key? code with
  | none => exact ⟨h, rfl⟩
  | some k =>
    have noted := h.note sim (.hostKey down code k) rfl
    exact ⟨{ noted with monitor := acts k noted.monitor }, rfl⟩

theorem alike_handle (h : Alike R v v' e e') (input : Keyboard.Input) :
    Agree (Alike R v v') (e.handle input) (e'.handle input) := by
  unfold handle
  rw [← h.listens]
  by_cases listens : e.listens = true
  · rw [if_pos listens, if_pos listens]
    cases input with
    | quit => exact ⟨h, rfl⟩
    | other => exact ⟨h, rfl⟩
    | keyUp code => exact alike_key sim h false code fun k related => sim.release related k
    | keyDown code =>
      by_cases escape : code = Keyboard.escape
      · simp only [if_pos escape]
        exact ⟨h, rfl⟩
      · by_cases restart : code = Keyboard.restart
        · simp only [if_neg escape, if_pos restart]
          exact ⟨alike_restart sim h, rfl⟩
        · simp only [if_neg escape, if_neg restart]
          exact alike_key sim h true code fun k related => sim.press related k
  · rw [if_neg listens, if_neg listens]
    exact ⟨h, rfl⟩

theorem alike_handleAll (h : Alike R v v' e e') (inputs : List Keyboard.Input) :
    Agree (Alike R v v') (e.handleAll inputs) (e'.handleAll inputs) := by
  induction inputs generalizing e e' with
  | nil => exact ⟨h, rfl⟩
  | cons input inputs ih =>
    obtain ⟨state, goesOn⟩ := alike_handle sim h input
    rw [handleAll, handleAll]
    rcases first : e.handle input with ⟨next, x⟩
    rcases second : e'.handle input with ⟨next', y⟩
    rw [first, second] at state goesOn
    obtain rfl : x = y := goesOn
    cases x with
    | true => exact ih state
    | false => exact ⟨state, rfl⟩

theorem alike_passFrame (h : Alike R v v' e e') : Alike R v v' e.passFrame e'.passFrame := by
  unfold passFrame
  rw [← h.clock]
  exact h.afterProgress (Clock.alike_tickFrame sim e.clock h.monitor)

theorem alike_passMillis (h : Alike R v v' e e') (millis : Int) :
    Both (Alike R v v') (e.passMillis millis) (e'.passMillis millis) := by
  unfold passMillis
  rw [← h.clock]
  cases Interval.ofMillis millis with
  | error refusal => exact .refused refusal
  | ok micros => exact .ok (h.afterProgress (Clock.alike_advance sim e.clock h.monitor micros))

theorem alike_updateTone (h : Alike R v v' e e') : Alike R v v' e.updateTone e'.updateTone := by
  unfold updateTone
  rw [← h.machine sim, ← h.toneOn, ← h.title]
  by_cases same : e.machine.timers.tone = e.toneOn
  · simp only [if_pos same]
    exact h
  · simp only [if_neg same]
    have toned : Alike R v v' { e with toneOn := e.machine.timers.tone }
        { e' with toneOn := e.machine.timers.tone } := { h with toneOn := rfl }
    exact (toned.note sim (.tone e.machine.timers.tone) rfl).setCaption _

theorem alike_reportFault (h : Alike R v v' e e') : Alike R v v' e.reportFault e'.reportFault := by
  unfold reportFault
  rw [← h.machine sim, ← h.faultReported, ← h.title]
  cases e.machine.fault with
  | none => exact h
  | some fault =>
    by_cases reported : e.faultReported = true
    · simp only [if_pos reported]
      exact h
    · simp only [if_neg reported]
      have told : Alike R v v' { e with faultReported := true } { e' with faultReported := true } :=
        { h with faultReported := rfl }
      exact (told.note sim (.machineHalted fault) rfl).setCaption _

theorem alike_present (h : Alike R v v' e e') : Alike R v v' e.present e'.present := by
  obtain ⟨looked, dirty⟩ := sim.look h.monitor
  have seen : Alike R v v' { e with monitor := (Board.look e.monitor).1 }
      { e' with monitor := (Board.look e'.monitor).1 } := { h with monitor := looked }
  have machine : (Board.look e.monitor).1.machine = (Board.look e'.monitor).1.machine :=
    sim.machine looked
  unfold present
  rw [← h.window]
  cases e.window with
  | none => exact h
  | some w =>
    simp only [Emulator.machine]
    rw [← dirty, ← machine]
    split
    · split
      · exact { seen with window := rfl }
      · exact { seen with window := rfl }
    · exact { seen with window := rfl }

/-- The reports of an iteration, less the sign of life. -/
theorem alike_report (h : Alike R v v' e e') :
    Alike R v v' e.updateTone.reportFault.present e'.updateTone.reportFault.present :=
  alike_present sim (alike_reportFault sim (alike_updateTone sim h))

end Routine

/-! ## What a monitor has kept -/

theorem alike_self {P : Monitor → Prop} (h : P e.monitor) :
    Alike (fun a b => a = b ∧ P a) e.verbose e.verbose e e :=
  ⟨⟨rfl, h⟩, rfl, rfl, rfl, rfl, rfl, rfl, rfl, rfl, rfl, rfl⟩

section Kept

open Monitor (simulation_kept)

variable {p : Event → Bool} {threshold : Level} {k : Nat}
  (rare : ∀ {event : Event}, event.routine = true → p event = false)
include rare

theorem kept_handleAll (h : e.monitor.Kept p threshold k) (inputs : List Keyboard.Input) :
    (e.handleAll inputs).1.monitor.Kept p threshold k :=
  (alike_handleAll (simulation_kept threshold k rare) (alike_self h) inputs).1.monitor.2

theorem kept_passFrame (h : e.monitor.Kept p threshold k) :
    e.passFrame.monitor.Kept p threshold k :=
  (alike_passFrame (simulation_kept threshold k rare) (alike_self h)).monitor.2

theorem kept_passMillis {millis : Int} (passes : e.passMillis millis = .ok e')
    (h : e.monitor.Kept p threshold k) : e'.monitor.Kept p threshold k := by
  have both := alike_passMillis (simulation_kept threshold k rare) (alike_self h) millis
  rw [passes] at both
  cases both with
  | ok passed => exact passed.monitor.2

theorem kept_loadRom {path : String} {found : Entry} (loaded : e.loadRom path found = .ok e')
    (h : e.monitor.Kept p threshold k) : e'.monitor.Kept p threshold k := by
  have both := alike_loadRom (simulation_kept threshold k rare) (alike_self h) path found
  rw [loaded] at both
  cases both with
  | ok loaded => exact loaded.monitor.2

theorem kept_report (h : e.monitor.Kept p threshold k) :
    e.updateTone.reportFault.present.monitor.Kept p threshold k :=
  (alike_report (simulation_kept threshold k rare) (alike_self h)).monitor.2

end Kept

/-! ## What only the loop changes -/

/-- The run goes on as it was. -/
structure SameRun (e e' : Emulator) : Prop where
  listens : e'.listens = e.listens
  running : e'.running = e.running
  frameCount : e'.frameCount = e.frameCount
  verbose : e'.verbose = e.verbose

theorem SameRun.refl (e : Emulator) : SameRun e e := ⟨rfl, rfl, rfl, rfl⟩

theorem SameRun.trans {e'' : Emulator} (h : SameRun e e') (h' : SameRun e' e'') : SameRun e e'' :=
  ⟨h'.listens.trans h.listens, h'.running.trans h.running, h'.frameCount.trans h.frameCount,
    h'.verbose.trans h.verbose⟩

theorem sameRun_handle (e : Emulator) (input : Keyboard.Input) : SameRun e (e.handle input).1 := by
  unfold handle
  split
  · split
    · exact .refl e
    · exact .refl e
    · split
      · exact .refl e
      · split
        · exact ⟨rfl, rfl, rfl, rfl⟩
        · split
          · exact .refl e
          · exact ⟨rfl, rfl, rfl, rfl⟩
    · split
      · exact .refl e
      · exact ⟨rfl, rfl, rfl, rfl⟩
  · exact .refl e

theorem sameRun_handleAll (e : Emulator) (inputs : List Keyboard.Input) :
    SameRun e (e.handleAll inputs).1 := by
  induction inputs generalizing e with
  | nil => exact .refl e
  | cons input inputs ih =>
    have first := sameRun_handle e input
    rw [handleAll]
    generalize e.handle input = heard at first ⊢
    rcases heard with ⟨next, _ | _⟩
    · exact first
    · exact first.trans (ih next)

theorem sameRun_passMillis {millis : Int} (passes : e.passMillis millis = .ok e') : SameRun e e' := by
  obtain ⟨micros, -, rfl⟩ := passMillis_eq_ok passes
  exact ⟨rfl, rfl, rfl, rfl⟩

/-- Something is reported. The clock and the run go on as they were. -/
structure Reporting (e e' : Emulator) : Prop where
  same : SameRun e e'
  clock : e'.clock = e.clock

theorem Reporting.refl (e : Emulator) : Reporting e e := ⟨.refl e, rfl⟩

theorem Reporting.trans {e'' : Emulator} (h : Reporting e e') (h' : Reporting e' e'') :
    Reporting e e'' :=
  ⟨h.same.trans h'.same, h'.clock.trans h.clock⟩

theorem reporting_updateTone (e : Emulator) : Reporting e e.updateTone := by
  unfold updateTone
  simp only
  split
  · exact .refl e
  · exact ⟨⟨rfl, rfl, rfl, rfl⟩, rfl⟩

theorem reporting_reportFault (e : Emulator) : Reporting e e.reportFault := by
  unfold reportFault
  split
  · exact .refl e
  · split
    · exact .refl e
    · exact ⟨⟨rfl, rfl, rfl, rfl⟩, rfl⟩

theorem reporting_present (e : Emulator) : Reporting e e.present := by
  unfold present
  split
  · exact .refl e
  · simp only
    split
    · split
      · exact ⟨⟨rfl, rfl, rfl, rfl⟩, rfl⟩
      · exact ⟨⟨rfl, rfl, rfl, rfl⟩, rfl⟩
    · exact ⟨⟨rfl, rfl, rfl, rfl⟩, rfl⟩

theorem reporting_report (e : Emulator) : Reporting e e.updateTone.reportFault.present :=
  ((reporting_updateTone e).trans (reporting_reportFault _)).trans (reporting_present _)

/-! ## Signs of life and the end -/

/-- Monitors stay related in all that hosts do, of which the one gives signs of life if `v` and the
other if `v'`. -/
structure Hosts (R : Monitor → Monitor → Prop) (v v' : Bool) : Prop where
  routine : Simulation R
  beat {a b : Monitor} (event : Event) : event.isHeartbeat = true → R a b →
    R (if v then a.note event else a) (if v' then b.note event else b)
  closing {a b : Monitor} : R a b → R (a.note .windowClosed) (b.note .windowClosed)

/-- The sign of life of an emulator. -/
def heartbeat (e : Emulator) : Event :=
  let r := e.machine.registers
  .heartbeat r.pc r.i r.sp e.clock.totalSteps e.machine.isWaiting

theorem beat_of_due (due : e.frameCount % 60 = 0) :
    e.beat = { e with monitor := if e.verbose then e.monitor.note e.heartbeat else e.monitor } := by
  unfold beat
  cases verbose : e.verbose with
  | false => rw [if_neg (fun both => nomatch both.1), if_neg nofun, ← verbose]
  | true =>
    rw [if_pos ⟨rfl, due⟩, if_pos rfl, ← verbose]
    rfl

theorem beat_of_not_due (idle : e.frameCount % 60 ≠ 0) : e.beat = e :=
  if_neg fun both => idle both.2

theorem reporting_beat (e : Emulator) : Reporting e e.beat := by
  unfold beat
  split
  · exact ⟨⟨rfl, rfl, rfl, rfl⟩, rfl⟩
  · exact .refl e

/-- An iteration ends with reports, and is counted. -/
theorem reporting_settle (e : Emulator) :
    ∃ told, Reporting e told ∧ e.settle = { told with frameCount := told.frameCount + 1 } :=
  ⟨_, (reporting_report e).trans (reporting_beat _), rfl⟩

theorem listens_settle (e : Emulator) : e.settle.listens = e.listens := by
  obtain ⟨told, reporting, settle⟩ := reporting_settle e
  rw [settle]
  exact reporting.same.listens

theorem frameCount_settle (e : Emulator) : e.settle.frameCount = e.frameCount + 1 := by
  obtain ⟨told, reporting, settle⟩ := reporting_settle e
  rw [settle, ← reporting.same.frameCount]

theorem verbose_settle (e : Emulator) : e.settle.verbose = e.verbose := by
  obtain ⟨told, reporting, settle⟩ := reporting_settle e
  rw [settle]
  exact reporting.same.verbose

theorem clock_settle (e : Emulator) : e.settle.clock = e.clock := by
  obtain ⟨told, reporting, settle⟩ := reporting_settle e
  rw [settle]
  exact reporting.clock

section Hosts

variable (hosts : Hosts R v v')
include hosts

theorem alike_beat (h : Alike R v v' e e') : Alike R v v' e.beat e'.beat := by
  by_cases due : e.frameCount % 60 = 0
  · have heartbeat : e.heartbeat = e'.heartbeat := by
      unfold Emulator.heartbeat
      rw [h.machine hosts.routine, h.clock]
    have beats := hosts.beat e.heartbeat rfl h.monitor
    rw [← h.verbose, ← h.verbose'] at beats
    rw [beat_of_due due, beat_of_due (h.frameCount ▸ due), ← heartbeat]
    exact { h with monitor := beats }
  · rw [beat_of_not_due due, beat_of_not_due (h.frameCount ▸ due)]
    exact h

theorem alike_settle (h : Alike R v v' e e') : Alike R v v' e.settle e'.settle := by
  have beats := alike_beat hosts (alike_report hosts.routine h)
  exact { beats with frameCount := congrArg (· + 1) beats.frameCount }

theorem alike_iterations (h : Alike R v v' e e') (n : Nat) :
    Alike R v v' (e.iterations n) (e'.iterations n) := by
  induction n generalizing e e' with
  | zero => exact h
  | succ n ih => exact ih (alike_settle hosts (alike_passFrame hosts.routine h))

theorem alike_finish (h : Alike R v v' e e') : Alike R v v' e.finish e'.finish := by
  unfold finish
  simp only
  rw [← h.window]
  cases e.window with
  | none => exact { h with running := rfl, window := rfl }
  | some w => exact { h with running := rfl, window := rfl, monitor := hosts.closing h.monitor }

theorem alike_run (h : Alike R v v' e e') (maxFrames : Int) :
    Both (Alike R v v') (e.run maxFrames) (e'.run maxFrames) := by
  unfold run
  rw [← h.rom]
  cases e.rom with
  | none => exact .refused _
  | some rom => exact .ok (alike_finish hosts (alike_iterations hosts h.start _))

omit hosts in
theorem agree_of_both {x x' : Except Refusal Emulator} (h : Alike R v v' e e')
    (both : Both (Alike R v v') x x') :
    let outcome (e : Emulator) (x : Except Refusal Emulator) : Emulator × Except Refusal Answer :=
      match x with
      | .ok e => (e, .ok .done)
      | .error refusal => (e, .error refusal)
    Agree (Alike R v v') (outcome e x) (outcome e' x') := by
  cases both with
  | ok h => exact ⟨h, rfl⟩
  | refused refusal => exact ⟨h, rfl⟩

theorem alike_perform (h : Alike R v v' e e') (c : Call) :
    Agree (Alike R v v') (e.perform c) (e'.perform c) := by
  cases c with
  | machine call =>
    obtain ⟨state, answer⟩ := hosts.routine.perform h.monitor call
    exact ⟨{ h with monitor := state }, answer⟩
  | loadRom path found => exact agree_of_both h (alike_loadRom hosts.routine h path found)
  | restart => exact ⟨alike_restart hosts.routine h, rfl⟩
  | run maxFrames => exact agree_of_both h (alike_run hosts h maxFrames)
  | handle input =>
    obtain ⟨state, goesOn⟩ := alike_handle hosts.routine h input
    exact ⟨state, congrArg (Except.ok ∘ Answer.flag) goesOn⟩
  | keyMap =>
    refine ⟨h, ?_⟩
    simp only [perform, keyMap, h.listens]

/-- Runs of a loop with alike hosts: they wait as often, and are alike whenever they wait and at the
end. -/
def AlikeRuns (R : Monitor → Monitor → Prop) (v v' : Bool) (p q : List Emulator × Emulator) : Prop :=
  List.Forall₂ (Alike R v v') p.1 q.1 ∧ Alike R v v' p.2 q.2

theorem alike_play (limit : Option Int) (h : Alike R v v' e e') (script : List Moment) :
    Both (AlikeRuns R v v') (play limit e script) (play limit e' script) := by
  induction script generalizing e e' with
  | nil => exact .ok ⟨.nil, h⟩
  | cons moment script ih =>
    obtain ⟨heard, goesOn⟩ := alike_handleAll hosts.routine h moment.inputs
    rw [play, play]
    rcases first : e.handleAll moment.inputs with ⟨next, x⟩
    rcases second : e'.handleAll moment.inputs with ⟨next', y⟩
    rw [first, second] at heard goesOn
    obtain rfl : x = y := goesOn
    cases x with
    | false => exact .ok ⟨.nil, heard⟩
    | true =>
      cases moment.wait with
      | interrupt => exact .ok ⟨.cons heard .nil, heard⟩
      | elapsed millis =>
        have passes := alike_passMillis hosts.routine heard millis
        simp only
        generalize next.passMillis millis = x at passes ⊢
        generalize next'.passMillis millis = x' at passes ⊢
        cases passes with
        | refused refusal => exact .refused refusal
        | @ok passed passed' passes =>
          have after := alike_settle hosts passes
          have same : passed'.settle.isComplete limit = passed.settle.isComplete limit := by
            unfold isComplete
            rw [after.frameCount]
          simp only [same]
          split
          · exact .ok ⟨.cons heard .nil, after⟩
          · have others := ih after
            generalize play limit passed.settle script = y at others ⊢
            generalize play limit passed'.settle script = y' at others ⊢
            cases others with
            | refused refusal => exact .refused refusal
            | ok others => exact .ok ⟨.cons heard others.1, others.2⟩

theorem alike_runScript (h : Alike R v v' e e') (limit : Option Int) (script : List Moment) :
    Both (AlikeRuns R v v') (e.runScript limit script) (e'.runScript limit script) := by
  unfold runScript
  rw [← h.rom]
  cases e.rom with
  | none => exact .refused _
  | some rom =>
    have played := alike_play hosts limit h.start script
    simp only
    generalize play limit e.start script = x at played ⊢
    generalize play limit e'.start script = x' at played ⊢
    cases played with
    | refused refusal => exact .refused refusal
    | ok played => exact .ok ⟨played.1, alike_finish hosts played.2⟩

end Hosts

end Emulator

end ChipEight
