import ChipEight.Proofs.Host
import ChipEight.Proofs.Pixels

/-! # The iterations of the loop

An iteration ends with reports on the machine and a look at its picture (`Settled`). The completed
ones of a run with a window are its `rounds`; `play_rounds` ties them to the loop, and what one of
them keeps they all keep (`rounds_keeps`). -/
namespace ChipEight

namespace Emulator

variable {e e' : Emulator}

/-! ## What an iteration ends with -/

/-- The window after the tone has been reported. -/
def toned (e : Emulator) (w : Window) : Window :=
  if e.machine.timers.tone = e.toneOn then w
  else w.setCaption (e.title ++ if e.machine.timers.tone then " - ♪" else "")

/-- The window after the tone and then a fault have been reported. -/
def captioned (e : Emulator) (w : Window) : Window :=
  if e.machine.fault.isSome ∧ e.faultReported = false then
    (e.toned w).setCaption (e.title ++ " - FALLO (F5 reinicia)")
  else e.toned w

/-- The emulator at the end of an iteration, when the tone and a fault have been reported and the
picture has been looked at. -/
structure Settled (e : Emulator) (w : Window) (e' : Emulator) : Prop where
  rom : e'.rom = e.rom
  listens : e'.listens = e.listens
  machine : e'.machine = e.machine.look.1
  toneOn : e'.toneOn = e.machine.timers.tone
  faultReported : e'.faultReported = (e.faultReported || e.machine.fault.isSome)
  window : ∃ w', e'.window = some w' ∧ w'.palette = w.palette ∧ w'.isOpen = w.isOpen ∧
    w'.captions = (e.captioned w).captions ∧
    w'.lastFrame = if e.machine.display.dirty then some e.machine.display.frame else w.lastFrame

section Settling

variable {w : Window} (window : e.window = some w)
include window

theorem updateTone_eq : ∃ monitor, monitor.machine = e.machine ∧
    e.updateTone =
      { e with monitor, toneOn := e.machine.timers.tone, window := some (e.toned w) } := by
  unfold updateTone toned
  by_cases same : e.machine.timers.tone = e.toneOn
  · refine ⟨e.monitor, rfl, ?_⟩
    simp only [if_pos same]
    rw [same, ← window]
  · refine ⟨e.monitor.note (.tone e.machine.timers.tone), rfl, ?_⟩
    simp only [if_neg same, setCaption, note, window]
    rfl

theorem reportFault_eq : ∃ monitor, monitor.machine = e.machine ∧
    e.reportFault =
      { e with
        monitor, faultReported := e.faultReported || e.machine.fault.isSome
        window := some (if e.machine.fault.isSome ∧ e.faultReported = false then
          w.setCaption (e.title ++ " - FALLO (F5 reinicia)") else w) } := by
  unfold reportFault
  cases pending : e.machine.fault with
  | none =>
    refine ⟨e.monitor, rfl, ?_⟩
    simp [← window]
  | some fault =>
    by_cases reported : e.faultReported = true
    · have still : (e.faultReported || (some fault).isSome) = e.faultReported := by
        rw [reported, Bool.true_or]
      have silent : ¬ ((some fault).isSome = true ∧ e.faultReported = false) := by
        rw [reported]
        exact nofun
      refine ⟨e.monitor, rfl, ?_⟩
      simp only [if_pos reported]
      rw [still, if_neg silent, ← window]
    · refine ⟨e.monitor.note (.machineHalted fault), rfl, ?_⟩
      simp [reported, setCaption, note, window, title]

theorem present_eq (mono : w.palette = Palette.mono) : ∃ monitor w',
    monitor.machine = e.machine.look.1 ∧ w'.palette = w.palette ∧ w'.isOpen = w.isOpen ∧
    w'.captions = w.captions ∧
    w'.lastFrame =
      (if e.machine.display.dirty then some e.machine.display.frame else w.lastFrame) ∧
    e.present = { e with monitor, window := some w' } := by
  by_cases dirty : e.machine.display.dirty = true
  · obtain ⟨w', palette, stays, captions, shown, presented⟩ := e.present_shows window mono dirty
    rw [if_pos dirty]
    exact ⟨_, w', rfl, palette, stays, captions, shown, presented⟩
  · have look : Board.look e.monitor =
        (Board.update e.monitor e.machine.look.1 [], e.machine.display.dirty) := rfl
    rw [if_neg dirty]
    refine ⟨Board.update e.monitor e.machine.look.1 [], w, rfl, rfl, rfl, rfl, rfl, ?_⟩
    simp only [present, window, look, if_neg dirty]

end Settling

theorem captioned_window (e : Emulator) (w : Window) :
    (e.captioned w).palette = w.palette ∧ (e.captioned w).isOpen = w.isOpen ∧
      (e.captioned w).lastFrame = w.lastFrame := by
  unfold captioned toned
  by_cases tone : e.machine.timers.tone = e.toneOn
  · rw [if_pos tone]
    split
    · exact ⟨rfl, rfl, rfl⟩
    · exact ⟨rfl, rfl, rfl⟩
  · rw [if_neg tone]
    split
    · exact ⟨rfl, rfl, rfl⟩
    · exact ⟨rfl, rfl, rfl⟩

theorem beat_eq (e : Emulator) : ∃ monitor, monitor.machine = e.machine ∧
    e.beat = { e with monitor } := by
  unfold beat
  split
  · exact ⟨(e.note _).monitor, rfl, rfl⟩
  · exact ⟨e.monitor, rfl, rfl⟩

theorem report_eq {w : Window} (window : e.window = some w) : ∃ monitor, monitor.machine = e.machine ∧
    e.updateTone.reportFault =
      { e with
        monitor, toneOn := e.machine.timers.tone
        faultReported := e.faultReported || e.machine.fault.isSome
        window := some (e.captioned w) } := by
  obtain ⟨monitor, machine, toned⟩ := updateTone_eq window
  have heard : e.updateTone.machine = e.machine := by rw [toned]; exact machine
  obtain ⟨monitor', machine', reported⟩ := reportFault_eq (congrArg Emulator.window toned)
  refine ⟨monitor', machine'.trans heard, ?_⟩
  rw [reported, heard, toned]
  rfl

theorem settled_settle {w : Window} (window : e.window = some w) (mono : w.palette = Palette.mono) :
    Settled e w e.settle := by
  obtain ⟨monitor, machine, reported⟩ := report_eq window
  have heard : e.updateTone.reportFault.machine = e.machine := by rw [reported]; exact machine
  obtain ⟨palette, stays, lastFrame⟩ := e.captioned_window w
  obtain ⟨monitor', w', machine', palette', stays', captions, shown, presented⟩ :=
    present_eq (congrArg Emulator.window reported) (palette.trans mono)
  obtain ⟨monitor₂, still, beat⟩ := beat_eq e.updateTone.reportFault.present
  have settle : e.settle =
      { e with
        monitor := monitor₂, toneOn := e.machine.timers.tone
        faultReported := e.faultReported || e.machine.fault.isSome
        window := some w', frameCount := e.frameCount + 1 } := by
    unfold Emulator.settle
    rw [beat, presented, reported]
  rw [heard] at machine' shown
  rw [settle]
  refine ⟨rfl, rfl, ?_, rfl, rfl, w', rfl, palette'.trans palette, stays'.trans stays, captions, ?_⟩
  · rw [presented] at still
    exact still.trans machine'
  · rw [shown, lastFrame]

/-! ## Iterations -/

/-- The emulator after a completed iteration; none if an input or an interrupt ends the run, or the
time cannot be counted. -/
def round (e : Emulator) (moment : Moment) : Option Emulator :=
  match e.handleAll moment.inputs, moment.wait with
  | (heard, true), .elapsed millis =>
    match heard.passMillis millis with
    | .ok passed => some passed.settle
    | .error _ => none
  | _, _ => none

/-- A completed iteration: what it met, and the emulator after it. -/
structure Round where
  moment : Moment
  after : Emulator

/-- The completed iterations of a loop, in order. -/
def rounds (limit : Option Int) (e : Emulator) : List Moment → List Round
  | [] => []
  | moment :: script =>
    match e.round moment with
    | none => []
    | some after =>
      ⟨moment, after⟩ :: if after.isComplete limit then [] else rounds limit after script

/-- A completed iteration takes notice of all its inputs, lets its time pass and reports. -/
theorem round_parts {moment : Moment} (round : e.round moment = some e') :
    ∃ heard millis passed, e.handleAll moment.inputs = (heard, true) ∧
      moment.wait = .elapsed millis ∧ heard.passMillis millis = .ok passed ∧ e' = passed.settle := by
  unfold Emulator.round at round
  rcases heard : e.handleAll moment.inputs with ⟨next, _ | _⟩
  · simp only [heard] at round
    cases round
  · simp only [heard] at round
    cases wait : moment.wait with
    | interrupt =>
      rw [wait] at round
      cases round
    | elapsed millis =>
      rw [wait] at round
      cases passes : next.passMillis millis with
      | error refusal =>
        simp only [passes] at round
        cases round
      | ok passed =>
        simp only [passes] at round
        exact ⟨next, millis, passed, rfl, rfl, passes, (Option.some.inj round).symm⟩

theorem round_eq_some {moment : Moment} (listens : e.listens = true)
    (round : e.round moment = some e') :
    ∃ passed, Driven (moment.inputs.contains restartKey) e passed ∧ e' = passed.settle := by
  obtain ⟨heard, millis, passed, handled, -, passes, after⟩ := round_parts round
  have driven := (driven_handleAll listens handled).trans (driven_passMillis passes)
  rw [Bool.or_false] at driven
  exact ⟨passed, driven, after⟩

theorem round_of_passes {inputs : List Keyboard.Input} {millis : Int} {heard passed : Emulator}
    (handled : e.handleAll inputs = (heard, true)) (passes : heard.passMillis millis = .ok passed) :
    e.round ⟨inputs, .elapsed millis⟩ = some passed.settle := by
  unfold Emulator.round
  simp only [handled, passes]

theorem rounds_of_round {moment : Moment} {script : List Moment} (round : e.round moment = some e') :
    rounds none e (moment :: script) = ⟨moment, e'⟩ :: rounds none e' script := by
  rw [rounds, round]
  rfl

/-- What one iteration adds to, a loop adds to, iteration after iteration. -/
theorem rounds_keeps {P : List Round → Emulator → Prop}
    (keeps : ∀ {past : List Round} {e after : Emulator} {moment : Moment}, P past e →
      e.round moment = some after → P (⟨moment, after⟩ :: past) after)
    {limit : Option Int} {script : List Moment} {past : List Round} (h : P past e)
    {done rest : List Round} {r : Round} (split : rounds limit e script = done ++ r :: rest) :
    P (r :: (done.reverse ++ past)) r.after := by
  induction script generalizing e past done with
  | nil => exact absurd split (by simp [rounds])
  | cons moment script ih =>
    rw [rounds] at split
    cases round : e.round moment with
    | none =>
      rw [round] at split
      exact absurd split (by simp)
    | some after =>
      simp only [round] at split
      have next := keeps h round
      cases done with
      | nil =>
        obtain ⟨rfl, -⟩ := List.cons_eq_cons.mp split
        exact next
      | cons d done =>
        obtain ⟨rfl, others⟩ := List.cons_eq_cons.mp split
        by_cases complete : after.isComplete limit = true
        · rw [if_pos complete] at others
          exact absurd others (by simp)
        · rw [if_neg complete] at others
          rw [List.reverse_cons, List.append_assoc]
          exact ih next others

/-- The emulator after iterations. -/
def reached (e : Emulator) (done : List Round) : Emulator := (done.map (·.after)).getLastD e

theorem reached_concat (e : Emulator) (done : List Round) (r : Round) :
    e.reached (done ++ [r]) = r.after := by
  rw [reached, List.map_append, List.map_singleton, List.getLastD_concat]

theorem reached_keeps {P : List Round → Emulator → Prop}
    (keeps : ∀ {past : List Round} {e after : Emulator} {moment : Moment}, P past e →
      e.round moment = some after → P (⟨moment, after⟩ :: past) after)
    {limit : Option Int} {script : List Moment} (h : P [] e) {done rest : List Round}
    (split : rounds limit e script = done ++ rest) : P done.reverse (e.reached done) := by
  rcases List.eq_nil_or_concat done with rfl | ⟨others, r, rfl⟩
  · exact h
  · rw [List.concat_eq_append] at split ⊢
    rw [List.append_assoc] at split
    have last := rounds_keeps keeps h split
    rw [List.append_nil] at last
    rw [List.reverse_concat, reached_concat]
    exact last

/-- Each iteration starts where the ones before it led. -/
theorem round_of_split {limit : Option Int} {script : List Moment} {done rest : List Round} {r : Round}
    (split : rounds limit e script = done ++ r :: rest) :
    (e.reached done).round r.moment = some r.after := by
  have last : r.after = e.reached (r :: (done.reverse ++ [])).reverse ∧
      ∀ s older, r :: (done.reverse ++ []) = s :: older →
        (e.reached older.reverse).round s.moment = some s.after := by
    refine rounds_keeps (P := fun past now => now = e.reached past.reverse ∧
      ∀ s older, past = s :: older → (e.reached older.reverse).round s.moment = some s.after)
      ?_ ⟨rfl, fun s older same => absurd same.symm (List.cons_ne_nil s older)⟩ split
    rintro past now after moment ⟨rfl, -⟩ round
    refine ⟨by rw [List.reverse_cons, reached_concat], ?_⟩
    intro s older same
    obtain ⟨rfl, rfl⟩ := List.cons_eq_cons.mp same
    exact round
  have started := last.2 r _ rfl
  rw [List.append_nil, List.reverse_reverse] at started
  exact started

/-- What the loop comes to from an iteration on, where `heard` has taken notice of its inputs. -/
inductive Ends (limit : Option Int) (e heard : Emulator) (moment : Moment) (script : List Moment) :
    List Emulator → Emulator → Prop
  | stops (round : e.round moment = none) : Ends limit e heard moment script [] heard
  | interrupted (round : e.round moment = none) : Ends limit e heard moment script [heard] heard
  | completes {after : Emulator} (round : e.round moment = some after)
      (complete : after.isComplete limit = true) : Ends limit e heard moment script [heard] after
  | goesOn {after last : Emulator} {waits : List Emulator} (round : e.round moment = some after)
      (short : after.isComplete limit = false)
      (others : play limit after script = .ok (waits, last)) :
      Ends limit e heard moment script (heard :: waits) last

theorem ends_play {limit : Option Int} {moment : Moment} {script : List Moment}
    {waits : List Emulator} {last : Emulator}
    (played : play limit e (moment :: script) = .ok (waits, last)) :
    Ends limit e (e.handleAll moment.inputs).1 moment script waits last := by
  obtain ⟨out, round⟩ : ∃ out, e.round moment = out := ⟨_, rfl⟩
  have turn := round
  unfold Emulator.round at turn
  rw [play] at played
  rcases heard : e.handleAll moment.inputs with ⟨next, _ | _⟩
  · simp only [heard] at played turn
    cases played
    subst turn
    exact .stops round
  · cases wait : moment.wait with
    | interrupt =>
      simp only [heard, wait] at played turn
      cases played
      subst turn
      exact .interrupted round
    | elapsed millis =>
      cases passes : next.passMillis millis with
      | error refusal =>
        simp only [heard, wait, passes] at played
        cases played
      | ok passed =>
        simp only [heard, wait, passes] at played turn
        subst turn
        cases complete : passed.settle.isComplete limit with
        | true =>
          simp only [complete] at played
          cases played
          exact .completes round complete
        | false =>
          simp only [complete] at played
          cases others : play limit passed.settle script with
          | error refusal =>
            rw [others] at played
            cases played
          | ok result =>
            rw [others] at played
            cases played
            exact .goesOn round complete others

/-- What a loop comes to, told by the emulators after its completed iterations. It waits once in each of
these and at most once more, when it has taken notice of the inputs, and ends with the emulator as it is
after the last of them or after further inputs. -/
structure Traced (e : Emulator) (script : List Moment) (afters waits : List Emulator)
    (last : Emulator) : Prop where
  count : afters.length ≤ waits.length
  seen : waits <+: List.zipWith (fun e moment => (e.handleAll moment.inputs).1) (e :: afters) script
  ends : ∃ inputs, last = ((afters.getLastD e).handleAll inputs).1

theorem play_rounds {limit : Option Int} {script : List Moment} {waits : List Emulator}
    {last : Emulator} (played : play limit e script = .ok (waits, last)) :
    Traced e script ((rounds limit e script).map (·.after)) waits last := by
  induction script generalizing e waits last with
  | nil =>
    cases played
    exact ⟨Nat.le_refl 0, List.nil_prefix, [], rfl⟩
  | cons moment script ih =>
    rw [rounds]
    have ends := ends_play played
    cases ends with
    | stops round =>
      rw [round]
      exact ⟨Nat.le_refl 0, List.nil_prefix, moment.inputs, rfl⟩
    | interrupted round =>
      rw [round]
      exact ⟨Nat.zero_le 1, List.prefix_append [_] _, moment.inputs, rfl⟩
    | completes round complete =>
      simp only [round, complete]
      exact ⟨Nat.le_refl 1, List.prefix_append [_] _, [], rfl⟩
    | goesOn round short others =>
      obtain ⟨count, seen, ends⟩ := ih others
      simp only [round, short]
      refine ⟨Nat.succ_le_succ count, (List.prefix_cons_inj _).mpr seen, ?_⟩
      rw [List.map_cons, List.getLastD_cons]
      exact ends

/-- An emulator that was made for a window, with a program file in its machine. -/
structure Opened (setup : Setup) (e : Emulator) : Prop where
  rom : e.rom.isSome = true
  listens : e.listens = true
  toneOn : e.toneOn = false
  faultReported : e.faultReported = false
  window : ∃ scale : Nat, e.window = some { scale }
  machine : ∃ data, data.length ≤ 3584 ∧
    e.machine = (Machine.fresh (Generator.ofSeed setup.seed)).loaded data
  clock : ∃ clock, Clock.create setup.cpuHz Clock.standardTimerHz = .ok clock ∧
    e.clock = clock.resetTotals

/-- The emulator is opened a window, or left without one. -/
inductive Opens (e : Emulator) (setup : Setup) : Emulator → Prop
  | opened {scale : Nat} (wanted : setup.windowScale = some scale)
      (opens : setup.windowSystem.opening scale = none) :
      Opens e setup ({ e with window := some { scale } }.note (.windowOpened scale))
  | unwanted (wanted : setup.windowScale = none) : Opens e setup e
  | unavailable : Opens e setup (e.note .windowUnavailable)

theorem opens_openWindow {setup : Setup} (opened : e.openWindow setup = .ok e') :
    Opens e setup e' := by
  unfold openWindow at opened
  cases wanted : setup.windowScale with
  | none =>
    rw [wanted] at opened
    cases opened
    exact .unwanted wanted
  | some scale =>
    simp only [wanted] at opened
    cases opens : setup.windowSystem.opening scale with
    | none =>
      rw [opens] at opened
      cases opened
      exact .opened wanted opens
    | some error =>
      simp only [opens] at opened
      split at opened
      · cases opened
        exact .unavailable
      · cases opened

/-- An emulator is made in three steps: its clock, its program, its window. -/
theorem create_parts {setup : Setup} {path : String} {found : Entry}
    (made : create setup (some (path, found)) = .ok e) :
    ∃ clock loaded opened, Clock.create setup.cpuHz Clock.standardTimerHz = .ok clock ∧
      loadRom { monitor := Monitor.fresh (Generator.ofSeed setup.seed), clock,
                listens := setup.windowSystem.isInstalled } path found = .ok loaded ∧
      Opens loaded setup opened ∧ e = opened.note (.emulatorReady opened.window.isSome) := by
  unfold create at made
  cases clocked : Clock.create setup.cpuHz Clock.standardTimerHz with
  | error refusal =>
    simp only [clocked] at made
    cases made
  | ok clock =>
    simp only [clocked] at made
    generalize fresh : Emulator.mk _ _ _ _ _ _ _ _ _ _ = e₀ at made
    cases loads : e₀.loadRom path found with
    | error refusal =>
      simp only [loads] at made
      cases made
    | ok loaded =>
      simp only [loads] at made
      cases opens : loaded.openWindow setup with
      | error refusal =>
        simp only [opens] at made
        cases made
      | ok opened =>
        simp only [opens] at made
        cases made
        subst fresh
        exact ⟨clock, loaded, opened, rfl, loads, opens_openWindow opens, rfl⟩

theorem opened_create {setup : Setup} {path : String} {found : Entry}
    (made : create setup (some (path, found)) = .ok e) (windowed : e.window.isSome = true) :
    Opened setup e := by
  obtain ⟨clock, loaded, opened, clocked, loads, opens, rfl⟩ := create_parts made
  obtain ⟨rom, -, present, started⟩ := loadRom_eq_ok loads
  have bare : ¬ loaded.window.isSome = true := by
    rw [started.window]
    exact nofun
  cases opens with
  | unwanted => exact absurd windowed bare
  | unavailable => exact absurd windowed bare
  | @opened scale wanted opens =>
    have installed : setup.windowSystem.isInstalled = true := by
      cases system : setup.windowSystem with
      | missing =>
        rw [system] at opens
        cases opens
      | installed opening => rfl
    exact ⟨congrArg Option.isSome present, started.listens.trans installed, started.toneOn,
      started.faultReported, ⟨scale, rfl⟩, ⟨rom.data, rom.fits.2, started.machine⟩,
      clock, clocked, started.clock⟩

end Emulator

end ChipEight
