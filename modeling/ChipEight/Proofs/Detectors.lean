import ChipEight.Proofs.Headless

/-! # What is reported of a machine

A host keeps in mind whether the tone sounded when it last reported on it and whether it has reported the
pending fault, and a program that is started makes it forget both. What it reports follows the machine
nevertheless: seen from the last start, it reports a tone exactly when the machine differs from what it
was in the iteration before, and a fault exactly in the first iteration that finds one. -/
namespace ChipEight

/-! ## Reports -/

namespace Event

/-- The host reports on the tone or on a fault of its machine. -/
def isReport : Event → Bool
  | tone _ | machineHalted _ => true
  | _ => false

/-- The host reports on the tone. -/
def isTone : Event → Bool
  | tone _ => true
  | _ => false

/-- The host reports on a fault. -/
def isHalting : Event → Bool
  | machineHalted _ => true
  | _ => false

theorem not_isReport {e : Event} (own : e.isOwn = true) : e.isReport = false := by
  cases e with
  | tone => cases own
  | machineHalted => cases own
  | _ => rfl

end Event

/-- The reports that a journal keeps, in order. -/
def Journal.reports (j : Journal) : List Event := j.events.filter Event.isReport

namespace Monitor

/-- Nothing has been reported, and as much is kept as before. -/
structure Hushed (a b : Monitor) : Prop where
  threshold : b.journal.threshold = a.journal.threshold
  reports : b.journal.reports = a.journal.reports

theorem Hushed.refl (a : Monitor) : Hushed a a := ⟨rfl, rfl⟩

theorem Hushed.trans {a b c : Monitor} (h : Hushed a b) (h' : Hushed b c) : Hushed a c :=
  ⟨h'.threshold.trans h.threshold, h'.reports.trans h.reports⟩

theorem Hushed.record {a b : Monitor} (h : Hushed a b) (m : Machine) {es : List Event}
    (none : ∀ e ∈ es, e.isReport = false) : Hushed a ⟨m, b.journal.record es⟩ := by
  refine ⟨h.threshold, ?_⟩
  have silent : (es.filter b.journal.keeps).filter Event.isReport = [] := by
    refine List.filter_eq_nil_iff.mpr fun e mem => ?_
    rw [none e (List.mem_of_mem_filter mem)]
    exact Bool.false_ne_true
  rw [Journal.reports, Journal.events_record, List.filter_append, silent, List.append_nil]
  exact h.reports

theorem Hushed.own {a b : Monitor} (h : Hushed a b) (m : Machine) {es : List Event}
    (own : Machine.Own es) : Hushed a (Board.update b m es) :=
  h.record m fun e mem => Event.not_isReport (own e mem)

theorem Hushed.note {a b : Monitor} (h : Hushed a b) {e : Event} (none : e.isReport = false) :
    Hushed a (b.note e) :=
  h.record b.machine (List.forall_mem_singleton.mpr none)

theorem hushed_step {a b : Monitor} (h : Hushed a b) : Hushed a (Board.step b).1 := by
  rw [Board.step_eq]
  exact h.own _ (Machine.own_stepEvents _)

theorem hushed_tick {a b : Monitor} (h : Hushed a b) : Hushed a (Board.tick b).1 := by
  rw [Board.tick_eq]
  exact h.own _ (Machine.own_switching _ _)

theorem hushed_reloaded (b : Monitor) (rom : Option Rom) : Hushed b (Emulator.reloaded b rom) := by
  cases rom with
  | none =>
    simp only [Emulator.reloaded, Board.reset_eq]
    exact (Hushed.refl b).own _ Machine.own_resetEvents
  | some rom =>
    simp only [Emulator.reloaded, Board.load_loaded _ rom.fits.2]
    exact (Hushed.refl b).own _ (Machine.own_loadEvents _)

end Monitor

namespace Emulator

open Monitor (Hushed)

variable {e e' e'' : Emulator}

/-- The reports on the machine so far, in order. -/
def reports (e : Emulator) : List Event := e.monitor.journal.reports

/-- Nothing has been reported, and what has been reported before is kept in mind. -/
structure Quiet (e e' : Emulator) : Prop where
  monitor : Hushed e.monitor e'.monitor
  toneOn : e'.toneOn = e.toneOn
  faultReported : e'.faultReported = e.faultReported

/-- Nothing has been reported, and what has been reported before is forgotten. -/
structure Afresh (e e' : Emulator) : Prop where
  monitor : Hushed e.monitor e'.monitor
  toneOn : e'.toneOn = false
  faultReported : e'.faultReported = false

theorem Quiet.refl (e : Emulator) : Quiet e e := ⟨.refl _, rfl, rfl⟩

theorem Quiet.trans (h : Quiet e e') (h' : Quiet e' e'') : Quiet e e'' :=
  ⟨h.monitor.trans h'.monitor, h'.toneOn.trans h.toneOn, h'.faultReported.trans h.faultReported⟩

theorem Quiet.afresh (h : Quiet e e') (h' : Afresh e' e'') : Afresh e e'' :=
  { h' with monitor := h.monitor.trans h'.monitor }

theorem afresh_restart (e : Emulator) : Afresh e e.restart := by
  rw [restart_eq]
  exact ⟨(Monitor.hushed_reloaded e.monitor e.rom).note rfl, rfl, rfl⟩

theorem afresh_loadRom {path : String} {found : Entry} (loaded : e.loadRom path found = .ok e') :
    Afresh e e' := by
  unfold loadRom at loaded
  cases read : Rom.ofEntry path found with
  | error refusal =>
    rw [read] at loaded
    cases loaded
  | ok rom =>
    simp only [read, insert, Board.load_loaded _ rom.fits.2] at loaded
    cases loaded
    have noted : Hushed e.monitor (e.monitor.note (.romRead rom.path.name rom.size)) :=
      (Hushed.refl _).note rfl
    exact ⟨(noted.own _ (Machine.own_loadEvents _)).note rfl, rfl, rfl⟩

theorem quiet_start (e : Emulator) : Quiet e e.start := ⟨.refl _, rfl, rfl⟩

theorem quiet_finish (e : Emulator) : Quiet e e.finish := by
  unfold finish
  simp only
  split
  · exact ⟨.refl _, rfl, rfl⟩
  · exact ⟨(Hushed.refl _).note rfl, rfl, rfl⟩

theorem quiet_passFrame (e : Emulator) : Quiet e e.passFrame := by
  refine ⟨?_, rfl, rfl⟩
  exact Clock.tickFrame_keeps (fun _ => Monitor.hushed_step) (fun _ => Monitor.hushed_tick) e.clock
    (Hushed.refl e.monitor)

theorem quiet_passMillis {millis : Int} (passes : e.passMillis millis = .ok e') : Quiet e e' := by
  obtain ⟨micros, -, rfl⟩ := passMillis_eq_ok passes
  refine ⟨?_, rfl, rfl⟩
  exact Clock.advance_keeps (fun _ => Monitor.hushed_step) (fun _ => Monitor.hushed_tick) e.clock
    (Hushed.refl e.monitor) micros

theorem quiet_key (e : Emulator) (down : Bool) (code : Int) {act : Monitor → Nibble → Monitor}
    (acts : ∀ {a b} (k : Nibble), Hushed a b → Hushed a (act b k)) :
    Quiet e (match Keyboard.key? code with
      | none => (e, true)
      | some k =>
        let e := e.note (.hostKey down code k)
        ({ e with monitor := act e.monitor k }, true)).1 := by
  cases Keyboard.key? code with
  | none => exact .refl e
  | some k => exact ⟨acts k ((Hushed.refl e.monitor).note rfl), rfl, rfl⟩

/-- An input starts the program again, or nothing is reported. -/
theorem handle_cases (e : Emulator) (input : Keyboard.Input) :
    (e.listens && input == restartKey) = true ∧ e.handle input = (e.restart, true) ∨
      (e.listens && input == restartKey) = false ∧ Quiet e (e.handle input).1 := by
  unfold handle
  cases e.listens with
  | false => exact .inr ⟨rfl, .refl e⟩
  | true =>
    simp only [if_true, Bool.true_and]
    cases input with
    | quit => exact .inr ⟨rfl, .refl e⟩
    | other => exact .inr ⟨rfl, .refl e⟩
    | keyUp code =>
      exact .inr ⟨rfl, e.quiet_key false code fun k h => h.own _ (Machine.own_singleton rfl)⟩
    | keyDown code =>
      by_cases escape : code = Keyboard.escape
      · subst escape
        exact .inr ⟨rfl, .refl e⟩
      · by_cases restart : code = Keyboard.restart
        · subst restart
          exact .inl ⟨rfl, rfl⟩
        · have other : (Keyboard.Input.keyDown code == restartKey) = false :=
            beq_eq_false_iff_ne.mpr fun same => restart (Keyboard.Input.keyDown.inj same)
          simp only [if_neg escape, if_neg restart]
          refine .inr ⟨other, e.quiet_key true code fun k h => ?_⟩
          rw [Board.press_eq]
          exact h.own _ (Machine.own_pressEvents _ k)

/-! ## Lives -/

/-- What can be done with an emulator, though not directly with its machine. The loop of a window comes
with what it meets. -/
inductive Act
  | handle (input : Keyboard.Input)
  | run (maxFrames : Int)
  | loop (limit : Option Int) (script : List Moment)
  | restart
  | loadRom (path : String) (found : Entry)

/-- The emulator after an act; none if it breaks off. -/
def act? (e : Emulator) : Act → Option Emulator
  | .handle input => some (e.handle input).1
  | .run maxFrames => some (e.perform (.run maxFrames)).1
  | .loop limit script =>
    match e.runScript limit script with
    | .ok (_, last) => some last
    | .error _ => none
  | .restart => some e.restart
  | .loadRom path found => some (e.perform (.loadRom path found)).1

/-- The emulator after acts; none if one of them breaks off. -/
def acts? (e : Emulator) : List Act → Option Emulator
  | [] => some e
  | a :: acts =>
    match e.act? a with
    | some next => next.acts? acts
    | none => none

/-- What the reports of a life depend on. -/
inductive Turn
  /-- A program has been started, by a load, a restart or the restart key. -/
  | started (first : Emulator)
  /-- An iteration has let time pass and comes to its reports. -/
  | passed (now : Emulator)

/-- The turns of inputs, up to one that ends a run. -/
def inputTurns (e : Emulator) : List Keyboard.Input → List Turn
  | [] => []
  | input :: inputs =>
    let (next, goesOn) := e.handle input
    (if e.listens && input == restartKey then [.started next] else []) ++
      if goesOn then next.inputTurns inputs else []

/-- The turns of `n` iterations without a window. -/
def frameTurns (e : Emulator) : (n : Nat) → List Turn
  | 0 => []
  | n + 1 => .passed e.passFrame :: e.iterate.frameTurns n

/-- The turns of the loop of a window. -/
def loopTurns (limit : Option Int) (e : Emulator) : List Moment → List Turn
  | [] => []
  | moment :: script =>
    e.inputTurns moment.inputs ++
      match e.handleAll moment.inputs, moment.wait with
      | (heard, true), .elapsed millis =>
        match heard.passMillis millis with
        | .ok passed =>
          .passed passed ::
            if passed.settle.isComplete limit then [] else loopTurns limit passed.settle script
        | .error _ => []
      | _, _ => []

/-- The turns of an act. -/
def turns (e : Emulator) : Act → List Turn
  | .handle input => e.inputTurns [input]
  | .run maxFrames => if e.rom.isSome then e.start.frameTurns (max 1 maxFrames.toNat) else []
  | .loop limit script => if e.rom.isSome then loopTurns limit e.start script else []
  | .restart => [.started e.restart]
  | .loadRom path found =>
    match e.loadRom path found with
    | .ok e => [.started e]
    | .error _ => []

/-- The turns of acts, up to one that breaks off. -/
def chronicle (e : Emulator) : List Act → List Turn
  | [] => []
  | a :: acts =>
    e.turns a ++
      match e.act? a with
      | some next => next.chronicle acts
      | none => []

/-- The turns of a life: of an emulator as it is found, or from its making on. -/
inductive Life (e : Emulator) (acts : List Act) : List Turn → Prop
  | found : Life e acts (e.chronicle acts)
  | made {setup : Setup} {program : Option (String × Entry)} (created : create setup program = .ok e) :
    Life e acts (.started e :: e.chronicle acts)

/-- The iterations among turns, as they come to their reports. -/
def passes : List Turn → List Emulator
  | [] => []
  | .started _ :: turns => passes turns
  | .passed now :: turns => now :: passes turns

theorem passes_append (turns turns' : List Turn) :
    passes (turns ++ turns') = passes turns ++ passes turns' := by
  induction turns with
  | nil => rfl
  | cons turn turns ih =>
    cases turn with
    | started first => exact ih
    | passed now => exact congrArg (now :: ·) ih

theorem passes_inputTurns (e : Emulator) (inputs : List Keyboard.Input) :
    passes (e.inputTurns inputs) = [] := by
  induction inputs generalizing e with
  | nil => rfl
  | cons input inputs ih =>
    have start : passes (if e.listens && input == restartKey then [.started (e.handle input).1] else [])
        = [] := by
      split
      · rfl
      · rfl
    rw [inputTurns, passes_append, start, List.nil_append]
    split
    · exact ih _
    · rfl

/-- Each iteration without a window has its turn. -/
theorem passes_frameTurns (e : Emulator) (n : Nat) : (passes (e.frameTurns n)).map (·.settle) =
    (List.range n).map fun i => e.iterations (i + 1) := by
  induction n generalizing e with
  | zero => rfl
  | succ n ih =>
    rw [frameTurns, passes, List.map_cons, ih, List.range_succ_eq_map, List.map_cons, List.map_map]
    rfl

/-- Each completed iteration with a window has its turn. -/
theorem passes_loopTurns (limit : Option Int) (e : Emulator) (script : List Moment) :
    (passes (loopTurns limit e script)).map (·.settle) = (rounds limit e script).map (·.after) := by
  induction script generalizing e with
  | nil => rfl
  | cons moment script ih =>
    rw [loopTurns, rounds, passes_append, passes_inputTurns, List.nil_append, Emulator.round]
    rcases e.handleAll moment.inputs with ⟨heard, _ | _⟩
    · rfl
    · cases moment.wait with
      | interrupt => rfl
      | elapsed millis =>
        simp only
        cases heard.passMillis millis with
        | error refusal => rfl
        | ok passed =>
          simp only [passes, List.map_cons]
          split
          · rfl
          · rw [ih]

/-! ## News -/

/-- Whether the tone sounded in the last of some iterations, the newest of which comes first. It does
not sound before the first. -/
def lastTone : List Machine → Bool
  | [] => false
  | m :: _ => m.timers.tone

/-- What is to be reported of the tone of a machine after others, the newest of which comes first. -/
def toneReport (past : List Machine) (m : Machine) : List Event :=
  if m.timers.tone = lastTone past then [] else [.tone m.timers.tone]

/-- What is to be reported of a fault of a machine after others. -/
def faultReport (past : List Machine) (m : Machine) : List Event :=
  match m.fault with
  | none => []
  | some fault => if past.any fun m => m.fault.isSome then [] else [.machineHalted fault]

/-- What is to be reported of a machine after others. -/
def news (past : List Machine) (m : Machine) : List Event := toneReport past m ++ faultReport past m

/-- What is to be reported of machines, the newest of which comes first. -/
def allNews : List Machine → List Event
  | [] => []
  | m :: past => allNews past ++ news past m

/-- The machines as the iterations among turns found them, the newest first. -/
def machines (turns : List Turn) : List Machine := ((passes turns).map (·.machine)).reverse

theorem tones_faultReport (past : List Machine) (m : Machine) :
    (faultReport past m).filter Event.isTone = [] := by
  unfold faultReport
  split
  · rfl
  · split
    · rfl
    · rfl

theorem haltings_toneReport (past : List Machine) (m : Machine) :
    (toneReport past m).countP Event.isHalting = 0 := by
  unfold toneReport
  split
  · rfl
  · rfl

/-- The reports on the tone alternate, and the first says that it started. -/
theorem tones_alternate (past : List Machine) : ∃ n,
    (allNews past).filter Event.isTone = (List.range n).map (fun i => .tone (i % 2 == 0)) ∧
      lastTone past = (n % 2 == 1) := by
  induction past with
  | nil => exact ⟨0, rfl, rfl⟩
  | cons m past ih =>
    obtain ⟨n, tones, last⟩ := ih
    rw [allNews, news, List.filter_append, List.filter_append, tones_faultReport, List.append_nil, tones,
      toneReport]
    by_cases same : m.timers.tone = lastTone past
    · rw [if_pos same]
      exact ⟨n, List.append_nil _, same.trans last⟩
    · have switched : m.timers.tone = (n % 2 == 0) := by
        rw [Bool.eq_not.mpr same, last]
        rcases Nat.mod_two_eq_zero_or_one n with even | odd
        · rw [even]
          rfl
        · rw [odd]
          rfl
      have next : (n % 2 == 0) = ((n + 1) % 2 == 1) := by
        rw [Nat.add_mod]
        rcases Nat.mod_two_eq_zero_or_one n with even | odd
        · rw [even]
          rfl
        · rw [odd]
          rfl
      refine ⟨n + 1, ?_, switched.trans next⟩
      rw [if_neg same, List.range_succ, List.map_append, switched]
      rfl

/-- One fault is reported if there was one. -/
theorem count_haltings (past : List Machine) : (allNews past).countP Event.isHalting =
    if past.any fun m => m.fault.isSome then 1 else 0 := by
  induction past with
  | nil => rfl
  | cons m past ih =>
    rw [allNews, news, List.countP_append, List.countP_append, haltings_toneReport, ih, faultReport,
      List.any_cons]
    cases m.fault with
    | none => rfl
    | some fault =>
      cases past.any fun m => m.fault.isSome with
      | true => rfl
      | false => rfl

/-! ## What an emulator knows of its past -/

/-- An emulator on its way through the turns of a life. -/
def Goes (e : Emulator) : List Turn → Emulator → Prop
  | [], e' => Quiet e e'
  | .started first :: turns, e' => Afresh e first ∧ Goes first turns e'
  | .passed now :: turns, e' => Quiet e now ∧ Goes now.settle turns e'

theorem Quiet.goes {turns : List Turn} (h : Quiet e e') (goes : Goes e' turns e'') :
    Goes e turns e'' := by
  cases turns with
  | nil => exact h.trans goes
  | cons turn turns =>
    cases turn with
    | started first => exact ⟨h.afresh goes.1, goes.2⟩
    | passed now => exact ⟨h.trans goes.1, goes.2⟩

theorem Goes.append {turns turns' : List Turn} (first : Goes e turns e')
    (second : Goes e' turns' e'') : Goes e (turns ++ turns') e'' := by
  induction turns generalizing e with
  | nil => exact Quiet.goes first second
  | cons turn turns ih =>
    cases turn with
    | started _ => exact ⟨first.1, ih first.2⟩
    | passed _ => exact ⟨first.1, ih first.2⟩

theorem Goes.split {turns turns' : List Turn} (goes : Goes e (turns ++ turns') e'') :
    ∃ e', Goes e turns e' ∧ Goes e' turns' e'' := by
  induction turns generalizing e with
  | nil => exact ⟨e, .refl e, goes⟩
  | cons turn turns ih =>
    cases turn with
    | started _ =>
      obtain ⟨e', first, second⟩ := ih goes.2
      exact ⟨e', ⟨goes.1, first⟩, second⟩
    | passed _ =>
      obtain ⟨e', first, second⟩ := ih goes.2
      exact ⟨e', ⟨goes.1, first⟩, second⟩

theorem Goes.quiet {turns : List Turn} (goes : Goes e turns e') (still : Quiet e' e'') :
    Goes e turns e'' := by
  have longer : Goes e (turns ++ []) e'' := goes.append still
  rw [List.append_nil] at longer
  exact longer

theorem goes_inputs (e : Emulator) (inputs : List Keyboard.Input) :
    Goes e (e.inputTurns inputs) (e.handleAll inputs).1 := by
  induction inputs generalizing e with
  | nil => exact Quiet.refl e
  | cons input inputs ih =>
    rw [inputTurns, handleAll]
    rcases handle_cases e input with ⟨starts, handled⟩ | ⟨other, quiet⟩
    · rw [handled, starts]
      exact ⟨afresh_restart e, ih e.restart⟩
    · rw [other]
      rcases heard : e.handle input with ⟨next, _ | _⟩
      · rw [heard] at quiet
        exact quiet
      · rw [heard] at quiet
        exact Quiet.goes quiet (ih next)

theorem goes_frames (e : Emulator) (n : Nat) : Goes e (e.frameTurns n) (e.iterations n) := by
  induction n generalizing e with
  | zero => exact Quiet.refl e
  | succ n ih => exact ⟨quiet_passFrame e, ih e.iterate⟩

theorem goes_loop (limit : Option Int) (e : Emulator) (script : List Moment) :
    ∃ last, Goes e (loopTurns limit e script) last ∧
      ∀ waits ended, play limit e script = .ok (waits, ended) → ended = last := by
  induction script generalizing e with
  | nil => exact ⟨e, Quiet.refl e, fun waits ended played => by cases played; rfl⟩
  | cons moment script ih =>
    have inputs := goes_inputs e moment.inputs
    rw [loopTurns]
    simp only [play]
    rcases heard : e.handleAll moment.inputs with ⟨next, _ | _⟩
    · rw [heard] at inputs
      refine ⟨next, ?_, fun waits ended played => by cases played; rfl⟩
      simp only [List.append_nil]
      exact inputs
    · rw [heard] at inputs
      cases moment.wait with
      | interrupt =>
        refine ⟨next, ?_, fun waits ended played => by cases played; rfl⟩
        simp only [List.append_nil]
        exact inputs
      | elapsed millis =>
        simp only
        cases passes : next.passMillis millis with
        | error refusal =>
          refine ⟨next, ?_, fun waits ended played => by cases played⟩
          simp only [List.append_nil]
          exact inputs
        | ok passed =>
          have quiet := quiet_passMillis passes
          by_cases complete : passed.settle.isComplete limit = true
          · simp only [if_pos complete]
            refine ⟨passed.settle, inputs.append ⟨quiet, Quiet.refl _⟩, fun waits ended played => ?_⟩
            cases played
            rfl
          · simp only [if_neg complete]
            obtain ⟨last, goes, ends⟩ := ih passed.settle
            refine ⟨last, inputs.append ⟨quiet, goes⟩, fun waits ended played => ?_⟩
            cases others : play limit passed.settle script with
            | error refusal =>
              rw [others] at played
              cases played
            | ok result =>
              rw [others] at played
              cases played
              exact ends _ _ others

theorem goes_turns (e : Emulator) (a : Act) :
    ∃ last, Goes e (e.turns a) last ∧ ∀ next, e.act? a = some next → next = last := by
  cases a with
  | handle input =>
    have goes := goes_inputs e [input]
    have one : (e.handleAll [input]).1 = (e.handle input).1 := by
      rw [handleAll]
      rcases e.handle input with ⟨next, _ | _⟩
      · rfl
      · rfl
    rw [one] at goes
    exact ⟨_, goes, fun next done => (Option.some.inj done).symm⟩
  | run maxFrames =>
    cases present : e.rom with
    | none =>
      simp only [turns, act?, perform, run, present]
      exact ⟨e, Quiet.refl e, fun next done => (Option.some.inj done).symm⟩
    | some rom =>
      simp only [turns, act?, perform, run, present]
      refine ⟨_, ?_, fun next done => (Option.some.inj done).symm⟩
      exact (quiet_start e).goes ((goes_frames e.start _).quiet (quiet_finish _))
  | loop limit script =>
    cases present : e.rom with
    | none =>
      simp only [turns, act?, runScript, present]
      exact ⟨e, Quiet.refl e, fun next done => by cases done⟩
    | some rom =>
      obtain ⟨last, goes, ends⟩ := goes_loop limit e.start script
      simp only [turns, act?, runScript, present]
      refine ⟨last.finish, (quiet_start e).goes (goes.quiet (quiet_finish last)), fun next done => ?_⟩
      cases played : play limit e.start script with
      | error refusal =>
        rw [played] at done
        cases done
      | ok result =>
        rw [played] at done
        cases done
        rw [ends _ _ played]
  | restart => exact ⟨_, ⟨afresh_restart e, Quiet.refl _⟩, fun next done => (Option.some.inj done).symm⟩
  | loadRom path found =>
    cases loads : e.loadRom path found with
    | error refusal =>
      simp only [turns, act?, perform, loads]
      exact ⟨e, Quiet.refl e, fun next done => (Option.some.inj done).symm⟩
    | ok loaded =>
      simp only [turns, act?, perform, loads]
      exact ⟨loaded, ⟨afresh_loadRom loads, Quiet.refl _⟩, fun next done => (Option.some.inj done).symm⟩

theorem goes_chronicle (e : Emulator) (acts : List Act) :
    ∃ last, Goes e (e.chronicle acts) last ∧ ∀ ended, e.acts? acts = some ended → ended = last := by
  induction acts generalizing e with
  | nil => exact ⟨e, Quiet.refl e, fun ended done => (Option.some.inj done).symm⟩
  | cons a acts ih =>
    obtain ⟨last, goes, ends⟩ := goes_turns e a
    simp only [chronicle, acts?]
    cases done : e.act? a with
    | none =>
      simp only [List.append_nil]
      exact ⟨last, goes, fun ended done => by cases done⟩
    | some next =>
      obtain rfl := ends next done
      obtain ⟨final, others, ends⟩ := ih next
      exact ⟨final, goes.append others, ends⟩

/-- A window is opened beside all else. -/
theorem Opens.keeps {setup : Setup} (opens : Opens e setup e') :
    e'.bare = e.bare ∧ e'.rom = e.rom ∧ e'.toneOn = e.toneOn ∧ e'.faultReported = e.faultReported ∧
      e'.monitor.journal.threshold = e.monitor.journal.threshold := by
  cases opens with
  | _ => exact ⟨rfl, rfl, rfl, rfl, rfl⟩

theorem detectors_create {setup : Setup} {program : Option (String × Entry)}
    (made : create setup program = .ok e) : e.toneOn = false ∧ e.faultReported = false := by
  cases program with
  | none =>
    unfold create at made
    cases clocked : Clock.create setup.cpuHz Clock.standardTimerHz with
    | error refusal =>
      rw [clocked] at made
      cases made
    | ok clock =>
      simp only [clocked] at made
      generalize fresh : Emulator.mk _ _ _ _ _ _ _ _ _ _ = e₀ at made
      cases opened : e₀.openWindow setup with
      | error refusal =>
        rw [opened] at made
        cases made
      | ok windowed =>
        rw [opened] at made
        cases made
        subst fresh
        obtain ⟨-, -, toneOn, faultReported, -⟩ := (opens_openWindow opened).keeps
        exact ⟨toneOn, faultReported⟩
  | some file =>
    obtain ⟨clock, loaded, opened, -, loads, opens, rfl⟩ := create_parts made
    obtain ⟨-, -, toneOn, faultReported, -⟩ := opens.keeps
    have afresh := afresh_loadRom loads
    exact ⟨toneOn.trans afresh.toneOn, faultReported.trans afresh.faultReported⟩

theorem goes_life {acts : List Act} {turns : List Turn} (life : Life e acts turns) :
    ∃ last, Goes e turns last ∧ ∀ ended, e.acts? acts = some ended → ended = last := by
  obtain ⟨last, goes, ends⟩ := goes_chronicle e acts
  cases life with
  | found => exact ⟨last, goes, ends⟩
  | made created =>
    obtain ⟨toneOn, faultReported⟩ := detectors_create created
    exact ⟨last, ⟨⟨.refl _, toneOn, faultReported⟩, goes⟩, ends⟩

/-- What an emulator has reported and keeps in mind of the machines it has reported on since its program
was started, the newest of which comes first. -/
structure Knows (first : Emulator) (past : List Machine) (e : Emulator) : Prop where
  toneOn : e.toneOn = lastTone past
  faultReported : e.faultReported = past.any fun m => m.fault.isSome
  threshold : e.monitor.journal.threshold = first.monitor.journal.threshold
  reports : e.reports = first.reports ++ (allNews past).filter first.monitor.journal.keeps

variable {first : Emulator} {past : List Machine}

theorem Afresh.knows (h : Afresh e first) : Knows first [] first :=
  ⟨h.toneOn, h.faultReported, rfl, (List.append_nil _).symm⟩

theorem Knows.quiet (h : Knows first past e) (still : Quiet e e') : Knows first past e' :=
  ⟨still.toneOn.trans h.toneOn, still.faultReported.trans h.faultReported,
    still.monitor.threshold.trans h.threshold, still.monitor.reports.trans h.reports⟩

theorem Knows.news (h : Knows first past e) : e.toneNews ++ e.faultNews = news past e.machine := by
  have tone : e.toneNews = toneReport past e.machine := by rw [toneNews, toneReport, h.toneOn]
  have fault : e.faultNews = faultReport past e.machine := by
    unfold faultNews faultReport
    cases e.machine.fault with
    | none => rfl
    | some fault => simp only [h.faultReported]
  rw [Emulator.news, tone, fault]

theorem reports_settle (e : Emulator) : e.settle.reports =
    e.reports ++ (e.toneNews ++ e.faultNews).filter e.monitor.journal.keeps := by
  have news : e.messages.filter Event.isReport = e.toneNews ++ e.faultNews :=
    filter_messages (fun _ => rfl) (fun _ => rfl) rfl
  rw [reports, journal_settle, Journal.reports, Journal.events_record, List.filter_append,
    List.filter_comm, news]
  rfl

theorem Knows.settle (h : Knows first past e) : Knows first (e.machine :: past) e.settle ∧
    e.settle.reports = e.reports ++ (Emulator.news past e.machine).filter first.monitor.journal.keeps := by
  have reports := reports_settle e
  rw [h.news, Journal.keeps_congr h.threshold] at reports
  refine ⟨⟨toneOn_settle e, ?_, ?_, ?_⟩, reports⟩
  · rw [faultReported_settle, h.faultReported, List.any_cons, Bool.or_comm]
  · rw [journal_settle, Journal.threshold_record, h.threshold]
  · rw [reports, h.reports, allNews, List.filter_append, List.append_assoc]

/-- What is known goes with the turns up to the next start. -/
theorem Goes.knows {turns : List Turn} (goes : Goes e turns e') (none : ∀ x, .started x ∉ turns)
    (h : Knows first past e) : Knows first (machines turns ++ past) e' := by
  induction turns generalizing e past with
  | nil => exact h.quiet goes
  | cons turn turns ih =>
    have later : ∀ x, .started x ∉ turns := fun x mem => none x (List.mem_cons_of_mem turn mem)
    cases turn with
    | started x => exact absurd List.mem_cons_self (none x)
    | passed now =>
      have next := ih goes.2 later (h.quiet goes.1).settle.1
      rw [machines, passes, List.map_cons, List.reverse_cons, List.append_assoc]
      exact next

/-! ## The main statement -/

/-- **Reports follow the machine.** From a start on, the reports of a life are the news of its
iterations: the tone of a machine is news if it differs from what it was in the iteration before, where
none sounds before the first, and a fault is news if no iteration before has found one. Each iteration
reports its own news, and nothing else is reported between. So the reports on the tone alternate and
begin with its start, and at most one fault is reported, if there is any. It makes no difference how many
runs the iterations belong to, whether there is a window for them, and which keys go down or up: all of
them are among the turns. -/
theorem reports_follow_machine :
    (∀ (e : Emulator) (acts : List Act) (turns : List Turn), Life e acts turns →
      ∀ (older between newer : List Turn) (first : Emulator),
        turns = older ++ .started first :: (between ++ newer) → (∀ x, .started x ∉ between) →
        let keeps := first.monitor.journal.keeps
        let past := machines between
        (∀ now rest, newer = .passed now :: rest →
          now.reports = first.reports ++ (allNews past).filter keeps ∧
          now.settle.reports = now.reports ++ (news past now.machine).filter keeps) ∧
        (newer = [] → ∀ last, e.acts? acts = some last →
          last.reports = first.reports ++ (allNews past).filter keeps)) ∧
    (∀ past : List Machine,
      (∃ n, (allNews past).filter Event.isTone = (List.range n).map fun i => .tone (i % 2 == 0)) ∧
        (allNews past).countP Event.isHalting = if past.any fun m => m.fault.isSome then 1 else 0) ∧
    ∀ e : Emulator,
      (∀ n, (passes (e.frameTurns n)).map (·.settle) =
        (List.range n).map fun i => e.iterations (i + 1)) ∧
      ∀ limit script, (passes (loopTurns limit e script)).map (·.settle) =
        (rounds limit e script).map (·.after) := by
  refine ⟨?_, fun past => ⟨?_, count_haltings past⟩, fun e => ⟨passes_frameTurns e, ?_⟩⟩
  · intro e acts turns life older between newer first split none keeps past
    obtain ⟨ended, goes, ends⟩ := goes_life life
    rw [split] at goes
    obtain ⟨_, -, afresh, goes⟩ := goes.split
    obtain ⟨now, reaches, goes⟩ := goes.split
    have knows := reaches.knows none afresh.knows
    rw [List.append_nil] at knows
    refine ⟨?_, ?_⟩
    · rintro next rest rfl
      have arrives := knows.quiet goes.1
      exact ⟨arrives.reports, arrives.settle.2⟩
    · rintro rfl last done
      obtain rfl := ends last done
      exact (knows.quiet goes).reports
  · obtain ⟨n, tones, -⟩ := tones_alternate past
    exact ⟨n, tones⟩
  · exact fun limit => passes_loopTurns limit e

/-- A program that switches the tone on and then returns from nowhere. Both are reported again when the
restart key has gone down after the first iteration, and only once. -/
theorem reports_after_restart_key :
    let program : List Byte := [0x60, 0x09, 0xF0, 0x18, 0x00, 0xEE]
    let acts : List Act := [.run 1, .handle restartKey, .run 2]
    ∃ made before first second third, create {} (some ("a.ch8", .file program)) = .ok made ∧
      Life made acts
        ([.passed before] ++ .started first :: ([.passed second] ++ [.passed third])) ∧
      (∀ x, .started x ∉ [Turn.passed second]) ∧
      let news := [.tone true, .machineHalted ⟨.stackUnderflow, 0x204, 0x00EE⟩]
      third.reports = first.reports ++ news ∧ third.settle.reports = third.reports ∧
      (∀ x, .started x ∉ [Turn.passed second, .passed third]) ∧
      ∃ last, made.acts? acts = some last ∧ last.reports = first.reports ++ news := by
  intro program acts
  obtain ⟨made, created, present, listens, again, told, none⟩ : ∃ made,
      create {} (some ("a.ch8", .file program)) = .ok made ∧ made.rom.isSome = true ∧
        let ran := made.start.passFrame.settle.finish
        let first := ran.restart
        let second := first.start.passFrame
        ran.listens = true ∧ first.rom.isSome = true ∧
          (allNews [second.machine]).filter first.monitor.journal.keeps =
            [.tone true, .machineHalted ⟨.stackUnderflow, 0x204, 0x00EE⟩] ∧
          (Emulator.news [second.machine] second.settle.passFrame.machine).filter
            first.monitor.journal.keeps = [] :=
    ⟨_, rfl, rfl, by decide +kernel⟩
  have runs {e : Emulator} (program : e.rom.isSome = true) (n : Int) :
      e.turns (.run n) = e.start.frameTurns (max 1 n.toNat) ∧
        e.act? (.run n) = some (e.start.iterations (max 1 n.toNat)).finish := by
    refine ⟨if_pos program, ?_⟩
    simp only [act?, perform, run_of_program program]
  obtain ⟨turns, reaches⟩ := runs present 1
  have reaches : made.act? (.run 1) = some made.start.passFrame.settle.finish := reaches
  generalize made.start.passFrame.settle.finish = ran at listens again told none reaches
  have handled : ran.handle restartKey = (ran.restart, true) := by
    rcases handle_cases ran restartKey with ⟨-, handled⟩ | ⟨other, -⟩
    · exact handled
    · rw [listens] at other
      cases other
  obtain ⟨turns', reaches'⟩ := runs again 2
  have pressed : ran.act? (.handle restartKey) = some ran.restart := by rw [act?, handled]
  have key : ran.turns (.handle restartKey) = [.started ran.restart] := by
    rw [Emulator.turns, inputTurns, handled, listens]
    rfl
  have life : made.chronicle acts = [.passed made.start.passFrame] ++ .started ran.restart ::
      ([.passed ran.restart.start.passFrame] ++
        [.passed ran.restart.start.passFrame.settle.passFrame]) := by
    simp only [acts, chronicle, turns, reaches, key, pressed, turns', reaches']
    rfl
  have reached : ∃ last, made.acts? acts = some last := by
    simp only [acts, acts?, reaches, pressed, reaches']
    exact ⟨_, rfl⟩
  have quiet (turns : List Turn) (passed : ∀ turn ∈ turns, ∃ now, turn = .passed now) (x : Emulator) :
      Turn.started x ∉ turns := by
    intro mem
    obtain ⟨now, same⟩ := passed _ mem
    cases same
  have one := quiet [.passed ran.restart.start.passFrame] (by simp)
  have two := quiet [.passed ran.restart.start.passFrame,
    .passed ran.restart.start.passFrame.settle.passFrame] (by simp)
  have lived : Life made acts (made.chronicle acts) := .found
  rw [life] at lived
  obtain ⟨follows, -⟩ := reports_follow_machine
  have each := (follows made acts _ lived [.passed _] _ [.passed _] _ rfl one).1
  have all := (follows made acts _ lived [.passed _] _ [] _ rfl two).2
  obtain ⟨before, now⟩ := each _ _ rfl
  obtain ⟨last, reached⟩ := reached
  have total := all rfl last reached
  have machines : machines [.passed ran.restart.start.passFrame] =
      [ran.restart.start.passFrame.machine] := rfl
  have machines' : Emulator.machines [.passed ran.restart.start.passFrame,
      .passed ran.restart.start.passFrame.settle.passFrame] =
      [ran.restart.start.passFrame.settle.passFrame.machine, ran.restart.start.passFrame.machine] := rfl
  simp only [machines, machines'] at before now total
  rw [told] at before
  rw [none, List.append_nil] at now
  rw [allNews, List.filter_append, told, none, List.append_nil] at total
  exact ⟨made, _, _, _, _, created, lived, one, before, now, two, last, reached, total⟩

end Emulator

end ChipEight
