import ChipEight.Proofs.Countable
import ChipEight.Proofs.Delivery

/-! # How a run of the loop ends

The loop goes through its script until an input or an interrupt ends the run, or until it has
completed the iterations it is allowed (`outcome_play`). Each completed one adds its time to what has
passed since the program was last started (`accounts_round`). -/
namespace ChipEight.Emulator

open Keyboard (Input)

variable {e e' : Emulator}

/-! ## The first thing that ends a run -/

/-- Whether an input or an interrupt ends the run in an iteration. -/
def Moment.stops (moment : Moment) : Bool :=
  moment.inputs.any Input.stops || moment.wait == .interrupt

/-- The microseconds that an iteration is counted for. -/
def Moment.micros (moment : Moment) : Except Refusal Nat :=
  match moment.wait with
  | .elapsed millis => Interval.ofMillis millis
  | .interrupt => .ok 0

/-- The iterations before the first one that ends the run, of as many as the run may complete. -/
def completing (quota : Option Nat) (script : List Moment) : List Moment :=
  (quota.elim script (script.take ·)).takeWhile fun moment => !moment.stops

/-- How a run ends that has completed `n` iterations, and the inputs that are still delivered. -/
inductive Exit (quota : Option Nat) (script : List Moment) (n : Nat) : List Input → Prop
  /-- The run has completed what it may. -/
  | complete (all : quota = some n) : Exit quota script n []
  | stopped {before later : List Input} {stop : Input} {wait : Wait}
      (next : script[n]? = some ⟨before ++ stop :: later, wait⟩)
      (goesOn : ∀ input ∈ before, input.stops = false) (stops : stop.stops = true)
      (early : ∀ q, quota = some q → n < q) : Exit quota script n before
  | interrupted {inputs : List Input} (next : script[n]? = some ⟨inputs, .interrupt⟩)
      (goesOn : ∀ input ∈ inputs, input.stops = false)
      (early : ∀ q, quota = some q → n < q) : Exit quota script n inputs
  /-- The script is over without anything that ends the run. -/
  | runsOut (all : n = script.length) (goesOn : ∀ moment ∈ script, moment.stops = false)
      (early : ∀ q, quota = some q → n < q) : Exit quota script n []

/-- How many more iterations a run may complete. -/
def remaining (limit : Option Int) (frames : Nat) : Option Nat :=
  limit.map fun k : Int => max 1 (k - frames).toNat

theorem remaining_pos {limit : Option Int} {frames : Nat} :
    ∀ q, remaining limit frames = some q → 0 < q := by
  intro q some
  obtain ⟨k, -, rfl⟩ := Option.map_eq_some_iff.mp some
  exact Nat.lt_of_lt_of_le Nat.one_pos (Nat.le_max_left 1 _)

theorem exists_remaining (limit : Option Int) (frames : Nat) :
    ∃ quota : Option Nat, remaining limit frames = quota.map (· + 1) := by
  cases limit with
  | none => exact ⟨none, rfl⟩
  | some k =>
    refine ⟨some ((k - frames).toNat - 1), ?_⟩
    simp only [remaining, Option.map_some]
    congr
    omega

theorem remaining_of_complete {limit : Option Int} {frames : Nat}
    (frameCount : e.frameCount = frames + 1) (complete : e.isComplete limit = true) :
    remaining limit frames = some 1 := by
  cases limit with
  | none => cases complete
  | some k =>
    have reached : k ≤ e.frameCount := of_decide_eq_true complete
    rw [remaining, Option.map_some]
    congr
    omega

theorem remaining_of_short {limit : Option Int} {frames : Nat}
    (frameCount : e.frameCount = frames + 1) (short : e.isComplete limit = false) :
    remaining limit frames = (remaining limit e.frameCount).map (· + 1) := by
  cases limit with
  | none => rfl
  | some k =>
    have ahead : ¬ k ≤ e.frameCount := of_decide_eq_false short
    simp only [remaining, Option.map_some]
    congr
    omega

theorem Exit.later {quota : Option Nat} {moment : Moment} {script : List Moment} {n : Nat}
    {delivered : List Input} (goesOn : moment.stops = false) (exit : Exit quota script n delivered) :
    Exit (quota.map (· + 1)) (moment :: script) (n + 1) delivered := by
  have later (early : ∀ q, quota = some q → n < q) :
      ∀ q, quota.map (· + 1) = some q → n + 1 < q := by
    intro q some
    obtain ⟨q, same, rfl⟩ := Option.map_eq_some_iff.mp some
    exact Nat.succ_lt_succ (early q same)
  cases exit with
  | complete all => exact .complete (by rw [all]; rfl)
  | stopped next before stops early => exact .stopped next before stops (later early)
  | interrupted next inputs early => exact .interrupted next inputs (later early)
  | runsOut all others early =>
    refine .runsOut (congrArg (· + 1) all) (fun m mem => ?_) (later early)
    rcases List.mem_cons.mp mem with rfl | mem
    · exact goesOn
    · exact others m mem

theorem completing_nil (quota : Option Nat) : completing quota [] = [] := by
  cases quota with
  | none => rfl
  | some n => rw [completing, Option.elim_some, List.take_nil, List.takeWhile_nil]

theorem completing_of_stops {moment : Moment} (stops : moment.stops = true) (quota : Option Nat)
    (script : List Moment) : completing quota (moment :: script) = [] := by
  have first (others : List Moment) :
      (moment :: others).takeWhile (fun moment => !moment.stops) = [] :=
    List.takeWhile_cons_of_neg (by simp [stops])
  match quota with
  | none => exact first script
  | some 0 => rfl
  | some (n + 1) => exact first (script.take n)

theorem completing_cons {moment : Moment} (goesOn : moment.stops = false) (quota : Option Nat)
    (script : List Moment) :
    completing (quota.map (· + 1)) (moment :: script) = moment :: completing quota script := by
  have first (others : List Moment) :
      (moment :: others).takeWhile (fun moment => !moment.stops) =
        moment :: others.takeWhile fun moment => !moment.stops :=
    List.takeWhile_cons_of_pos (by simp [goesOn])
  cases quota with
  | none => exact first script
  | some n => exact first (script.take n)

/-- An iteration goes on, or it ends the run by the first of its inputs that does, or by an interrupt
when it has none. -/
inductive Moment.Turn : Moment → Prop
  | stopped {before later : List Input} {stop : Input} {wait : Wait}
      (goesOn : ∀ input ∈ before, input.stops = false) (stops : stop.stops = true) :
      Turn ⟨before ++ stop :: later, wait⟩
  | interrupted {inputs : List Input} (goesOn : ∀ input ∈ inputs, input.stops = false) :
      Turn ⟨inputs, .interrupt⟩
  | goesOn {inputs : List Input} {millis : Int} (goesOn : ∀ input ∈ inputs, input.stops = false) :
      Turn ⟨inputs, .elapsed millis⟩

theorem Moment.turn (moment : Moment) : moment.Turn := by
  obtain ⟨inputs, wait⟩ := moment
  by_cases any : inputs.any Input.stops = true
  · have first : (inputs.find? Input.stops).isSome = true :=
      List.find?_isSome.mpr (List.any_eq_true.mp any)
    obtain ⟨stop, found⟩ := Option.isSome_iff_exists.mp first
    obtain ⟨stops, before, later, rfl, others⟩ := List.find?_eq_some_iff_append.mp found
    exact .stopped (fun i mem => by simpa using others i mem) stops
  · have goesOn : ∀ input ∈ inputs, input.stops = false := by simpa using any
    cases wait with
    | elapsed millis => exact .goesOn goesOn
    | interrupt => exact .interrupted goesOn

theorem Moment.stops_of_input {before later : List Input} {stop : Input} {wait : Wait}
    (stops : stop.stops = true) : Moment.stops ⟨before ++ stop :: later, wait⟩ = true := by
  simp [Moment.stops, stops]

theorem Moment.goesOn_of_inputs {inputs : List Input}
    (goesOn : ∀ input ∈ inputs, input.stops = false) (millis : Int) :
    Moment.stops ⟨inputs, .elapsed millis⟩ = false := by
  simp only [Moment.stops, Bool.or_eq_false_iff, List.any_eq_false]
  exact ⟨fun i mem => by simp [goesOn i mem], rfl⟩

/-! ## What the loop comes to -/

/-- What a loop with a quota comes to, by the iterations it completes. -/
inductive Outcome (quota : Option Nat) (script : List Moment) (e : Emulator) (done : List Round) :
    Except Refusal (List Emulator × Emulator) → Prop
  | ends {waits : List Emulator} {delivered : List Input}
      (counted : ∀ moment ∈ completing quota script, ∃ micros, moment.micros = .ok micros)
      (moments : done.map (·.moment) = completing quota script)
      (exit : Exit quota script done.length delivered) :
      Outcome quota script e done (.ok (waits, ((e.reached done).handleAll delivered).1))
  | refused {moment : Moment} {refusal : Refusal} (mem : moment ∈ completing quota script)
      (uncounted : moment.micros = .error refusal) : Outcome quota script e done (.error refusal)

/-- A loop that completes no iteration only delivers inputs. -/
theorem Outcome.of_none {quota : Option Nat} {script : List Moment} {waits : List Emulator}
    (none : completing quota script = []) (delivered : List Input)
    (exit : Exit quota script 0 delivered) :
    Outcome quota script e [] (.ok (waits, (e.handleAll delivered).1)) :=
  .ends (by simp [none]) none.symm exit

theorem Outcome.later {quota : Option Nat} {moment : Moment} {script : List Moment}
    {after : Emulator} {done : List Round} {x : Except Refusal (List Emulator × Emulator)}
    (goesOn : moment.stops = false) {micros : Nat} (counted : moment.micros = .ok micros) :
    Outcome quota script after done x →
      Outcome (quota.map (· + 1)) (moment :: script) e (⟨moment, after⟩ :: done)
        (match x with
          | .ok (waits, last) => .ok (e' :: waits, last)
          | .error refusal => .error refusal) := by
  intro others
  have completes := completing_cons goesOn quota script
  cases others with
  | refused mem uncounted => exact .refused (completes ▸ List.mem_cons_of_mem _ mem) uncounted
  | @ends waits delivered countable moments exit =>
    have reached : e.reached (⟨moment, after⟩ :: done) = after.reached done := by
      rw [Emulator.reached, List.map_cons, List.getLastD_cons, Emulator.reached]
    simp only
    rw [← reached]
    refine .ends ?_ ?_ (exit.later goesOn)
    · intro m mem
      rw [completes] at mem
      rcases List.mem_cons.mp mem with rfl | mem
      · exact ⟨micros, counted⟩
      · exact countable m mem
    · rw [completes, List.map_cons, moments]

theorem outcome_play {limit : Option Int} {script : List Moment} (listens : e.listens = true) :
    Outcome (remaining limit e.frameCount) script e (rounds limit e script) (play limit e script) := by
  -- the script gets shorter, and what remains of the limit with it
  induction script generalizing e with
  | nil =>
    have none := completing_nil (remaining limit e.frameCount)
    exact .of_none none [] (.runsOut rfl (by simp) remaining_pos)
  | cons moment script ih =>
    have turn := moment.turn
    rw [rounds, play]
    unfold Emulator.round
    cases turn with
    | @stopped before later stop wait goesOn stops =>
      have stopped : Moment.stops ⟨before ++ stop :: later, wait⟩ = true :=
        Moment.stops_of_input stops
      have none := completing_of_stops stopped (remaining limit e.frameCount) script
      rw [handleAll_of_stops listens goesOn stops]
      exact .of_none none before (.stopped rfl goesOn stops remaining_pos)
    | @interrupted inputs goesOn =>
      have stops : Moment.stops ⟨inputs, .interrupt⟩ = true := by simp [Moment.stops]
      have none := completing_of_stops stops (remaining limit e.frameCount) script
      rw [handleAll_of_not_stops goesOn]
      exact .of_none none inputs (.interrupted rfl goesOn remaining_pos)
    | @goesOn inputs millis goesOn =>
      have onward := Moment.goesOn_of_inputs goesOn millis
      rw [handleAll_of_not_stops goesOn]
      simp only
      cases passes : (e.handleAll inputs).1.passMillis millis with
      | error refusal =>
        have uncounted : Moment.micros ⟨inputs, .elapsed millis⟩ = .error refusal :=
          passMillis_eq_error passes
        obtain ⟨quota, some⟩ := exists_remaining limit e.frameCount
        simp only [some]
        exact .refused (completing_cons onward quota script ▸ List.mem_cons_self) uncounted
      | ok passed =>
        obtain ⟨micros, counted, -⟩ := passMillis_eq_ok passes
        have same := (sameRun_handleAll e inputs).trans (sameRun_passMillis passes)
        have frameCount : passed.settle.frameCount = e.frameCount + 1 := by
          rw [frameCount_settle, same.frameCount]
        have listening : passed.settle.listens = true := by
          rw [listens_settle, same.listens, listens]
        simp only
        cases complete : passed.settle.isComplete limit with
        | true =>
          have last : Outcome (some 0) script passed.settle [] (.ok ([], passed.settle)) :=
            .of_none rfl [] (.complete rfl)
          rw [remaining_of_complete frameCount complete]
          exact .later onward counted last
        | false =>
          rw [remaining_of_short frameCount complete]
          exact .later onward counted (ih listening)

/-! ## What has passed -/

/-- The iterations from the last one that started the program again, the newest first. -/
def sinceRestart : List Moment → List Moment
  | [] => []
  | moment :: earlier =>
    moment :: if moment.inputs.contains restartKey then [] else sinceRestart earlier

/-- The times a window has been closed. -/
def closings (e : Emulator) : Nat := e.monitor.journal.events.countP Event.isClosing

/-- The ticks and the rest of time are what the iterations since the last start come to. -/
def Accounted (moments : List Moment) (clock : Clock) : Prop :=
  ∃ us : List Nat, moments.map Moment.micros = us.map .ok ∧
    1000000 * clock.totalTicks + clock.timeBudget = 60 * us.sum

/-- What holds of an emulator with a window after iterations of its loop, the newest first. -/
structure Accounts (cpuHz : Nat) (past : List Round) (e : Emulator) : Prop where
  listens : e.listens = true
  frameCount : e.frameCount = past.length
  window : ∃ w, e.window = some w ∧ w.palette = Palette.mono ∧ w.isOpen = true
  silent : e.monitor.Kept Event.isClosing .debug 0
  bounds : e.clock.InBounds cpuHz 60
  time : Accounted (sinceRestart (past.map (·.moment))) e.clock

theorem not_stops_of_handleAll {inputs : List Input} (listens : e.listens = true)
    (handled : e.handleAll inputs = (e', true)) : ∀ input ∈ inputs, input.stops = false := by
  have turn := Moment.turn ⟨inputs, .interrupt⟩
  cases turn with
  | stopped goesOn stops =>
    rw [handleAll_of_stops listens goesOn stops] at handled
    cases handled
  | interrupted goesOn => exact goesOn

theorem silent_settle {k : Nat} (h : e.monitor.Kept Event.isClosing .debug k) :
    e.settle.monitor.Kept Event.isClosing .debug k := by
  have reported := kept_report Event.not_isClosing h
  change Monitor.Kept _ _ _ e.updateTone.reportFault.present.beat.monitor
  generalize e.updateTone.reportFault.present = f at reported ⊢
  unfold beat
  split
  · exact Monitor.kept_record f.machine (by simp [Event.isClosing]) reported
  · exact reported

theorem accounted_delivered {cpuHz : Nat} {moments : List Moment} {restarts : Bool}
    (bounds : e.clock.InBounds cpuHz 60) (time : Accounted moments e.clock)
    (keyed : Keyed (if restarts then e.restart else e) e') :
    e'.clock.InBounds cpuHz 60 ∧ Accounted (if restarts then [] else moments) e'.clock := by
  rw [keyed.clock]
  cases restarts with
  | false => exact ⟨bounds, time⟩
  | true => exact ⟨Clock.Rig.after_inBounds (r := e.rig) bounds .resetTotals, [], rfl, rfl⟩

theorem accounted_passMillis {cpuHz : Nat} {moments : List Moment} {millis : Int}
    (bounds : e.clock.InBounds cpuHz 60) (time : Accounted moments e.clock)
    (passes : e.passMillis millis = .ok e') (inputs : List Input) :
    e'.clock.InBounds cpuHz 60 ∧ Accounted (⟨inputs, .elapsed millis⟩ :: moments) e'.clock := by
  obtain ⟨micros, counted, rfl⟩ := passMillis_eq_ok passes
  obtain ⟨us, same, total⟩ := time
  have ticks := e.rig.ticks_elapse micros
  have timer : e.rig.clock.timerHz = 60 := bounds.timer
  refine ⟨Clock.Rig.elapse_inBounds (r := e.rig) bounds micros, micros :: us, ?_, ?_⟩
  · rw [List.map_cons, List.map_cons, same]
    exact congrArg (· :: us.map .ok) counted
  · change 1000000 * (e.rig.elapse micros).1.clock.totalTicks +
      (e.rig.elapse micros).1.clock.timeBudget = 60 * (micros :: us).sum
    have before : 1000000 * e.rig.clock.totalTicks + e.rig.clock.timeBudget = 60 * us.sum := total
    rw [ticks, timer, List.sum_cons, before]
    omega

theorem accounts_round {cpuHz : Nat} {past : List Round} {after : Emulator} {moment : Moment}
    (h : Accounts cpuHz past e) (round : e.round moment = some after) :
    Accounts cpuHz (⟨moment, after⟩ :: past) after := by
  obtain ⟨inputs, wait⟩ := moment
  obtain ⟨heard, millis, passed, handled, elapsed, passes, rfl⟩ := round_parts round
  obtain rfl : wait = .elapsed millis := elapsed
  have keyed := keyed_handleAll h.listens (not_stops_of_handleAll h.listens handled)
  have same := sameRun_handleAll e inputs
  have quiet := kept_handleAll Event.not_isClosing h.silent inputs
  rw [handled] at keyed same quiet
  obtain ⟨bounds, time⟩ := accounted_delivered h.bounds h.time keyed
  obtain ⟨bounds, time⟩ := accounted_passMillis bounds time passes inputs
  have run := same.trans (sameRun_passMillis passes)
  obtain ⟨w, window, mono, shows⟩ := h.window
  have driven := (driven_handleAll h.listens handled).trans (driven_passMillis passes)
  obtain ⟨w', shown, palette, stays, -⟩ := (settled_settle (driven.window.trans window) mono).window
  refine ⟨?_, ?_, ⟨w', shown, palette.trans mono, stays.trans shows⟩, ?_, ?_, ?_⟩
  · rw [listens_settle, run.listens, h.listens]
  · rw [frameCount_settle, run.frameCount, h.frameCount]
    rfl
  · exact silent_settle (kept_passMillis Event.not_isClosing passes quiet)
  · rw [clock_settle]
    exact bounds
  · rw [clock_settle]
    exact time

theorem silent_create {setup : Setup} {path : String} {found : Entry}
    (made : create setup (some (path, found)) = .ok e) :
    e.monitor.Kept Event.isClosing .debug 0 := by
  obtain ⟨clock, loaded, opened, -, loads, opens, rfl⟩ := create_parts made
  have silent := kept_loadRom Event.not_isClosing loads ⟨rfl, rfl⟩
  refine Monitor.kept_record _ (by simp [Event.isClosing]) ?_
  cases opens with
  | unwanted => exact silent
  | opened => exact Monitor.kept_record _ (by simp [Event.isClosing]) silent
  | unavailable => exact Monitor.kept_record _ (by simp [Event.isClosing]) silent

theorem Opened.accounts {setup : Setup} (h : Opened setup e)
    (silent : e.monitor.Kept Event.isClosing .debug 0) :
    Accounts setup.cpuHz.toNat [] e.start := by
  obtain ⟨scale, window⟩ := h.window
  obtain ⟨clock, made, same⟩ := h.clock
  have bounds : e.clock.InBounds setup.cpuHz.toNat 60 := by
    rw [same]
    exact Clock.Rig.after_inBounds (r := ⟨clock, e.monitor⟩) (Clock.Rig.create_inBounds made)
      .resetTotals
  refine ⟨h.listens, rfl, ⟨_, window, rfl, rfl⟩, silent, bounds, [], rfl, ?_⟩
  change 1000000 * e.clock.totalTicks + e.clock.timeBudget = 0
  rw [same]
  rfl

/-- The end of a run closes the window, and what nobody has closed is closed once. -/
theorem finish_of_window {w : Window} (window : e.window = some w)
    (silent : e.monitor.Kept Event.isClosing .debug 0) :
    e.finish.running = false ∧ e.finish.frameCount = e.frameCount ∧ e.finish.closings = 1 ∧
      e.finish.window = some { w with isOpen := false } := by
  obtain ⟨keeps, count⟩ := silent
  unfold finish
  simp only [window]
  refine ⟨rfl, rfl, ?_, rfl⟩
  simp only [closings, note, Monitor.note, Journal.events_record, List.countP_append, count]
  rw [List.filter_cons_of_pos (by rw [Journal.keeps, keeps]; rfl)]
  rfl

theorem runScript_eq {limit : Option Int} {script : List Moment} (rom : e.rom.isSome = true) :
    e.runScript limit script =
      match play limit e.start script with
      | .ok (waits, last) => .ok (waits, last.finish)
      | .error refusal => .error refusal := by
  unfold runScript
  cases present : e.rom with
  | none =>
    rw [present] at rom
    cases rom
  | some program => exact rfl

theorem outcome_runScript (limit : Option Int) (script : List Moment) (listens : e.listens = true) :
    Outcome (limit.map fun k => max 1 k.toNat) script e.start (rounds limit e.start script)
      (play limit e.start script) := by
  have quota : remaining limit e.start.frameCount = limit.map fun k => max 1 k.toNat := by
    cases limit with
    | none => rfl
    | some k =>
      have zero : e.start.frameCount = 0 := rfl
      simp [remaining, zero]
  rw [← quota]
  exact outcome_play listens

theorem Moment.micros_of_lt {moment : Moment}
    (small : ∀ millis, moment.wait = .elapsed millis → millis.natAbs < 2 ^ 200) :
    ∃ micros, moment.micros = .ok micros := by
  obtain ⟨inputs, wait⟩ := moment
  cases wait with
  | interrupt => exact ⟨0, rfl⟩
  | elapsed millis => exact Interval.ofMillis_of_lt (small millis rfl)

theorem mem_of_completing {quota : Option Nat} {script : List Moment} {moment : Moment}
    (mem : moment ∈ completing quota script) : moment ∈ script := by
  have mem := (List.takeWhile_prefix _).mem mem
  cases quota with
  | none => exact mem
  | some n => exact List.mem_of_mem_take mem

theorem Exit.goesOn {quota : Option Nat} {script : List Moment} {n : Nat} {delivered : List Input}
    (exit : Exit quota script n delivered) : ∀ input ∈ delivered, input.stops = false := by
  cases exit with
  | complete all => exact nofun
  | stopped next before stops early => exact before
  | interrupted next inputs early => exact inputs
  | runsOut all goesOn early => exact nofun

/-- What the end of a run comes to after iterations and the inputs that are still delivered. -/
theorem finish_of_accounts {cpuHz : Nat} {past : List Round} {delivered : List Input}
    (h : Accounts cpuHz past e) (goesOn : ∀ input ∈ delivered, input.stops = false) :
    let heard := (e.handleAll delivered).1
    heard.finish.running = false ∧ heard.finish.frameCount = past.length ∧
      heard.finish.closings = 1 ∧ Keyed (if delivered.contains restartKey then e.restart else e) heard ∧
      ∃ w, e.window = some w ∧ w.isOpen = true ∧
        heard.finish.window = some { w with isOpen := false } := by
  intro heard
  have keyed := keyed_handleAll h.listens goesOn
  have silent : heard.monitor.Kept Event.isClosing .debug 0 :=
    kept_handleAll Event.not_isClosing h.silent delivered
  have frames : heard.frameCount = past.length :=
    (sameRun_handleAll e delivered).frameCount.trans h.frameCount
  obtain ⟨w, window, -, shows⟩ := h.window
  have shown : heard.window = some w := by
    refine keyed.window.trans ?_
    split
    · exact window
    · exact window
  obtain ⟨idle, counted, closed, final⟩ := finish_of_window shown silent
  exact ⟨idle, counted.trans frames, closed, keyed, w, window, shows, final⟩

theorem runScript_returns_iff (limit : Option Int) (script : List Moment) (rom : e.rom.isSome = true)
    (listens : e.listens = true) :
    (∃ waits last, e.runScript limit script = .ok (waits, last)) ↔
      ∀ moment ∈ completing (limit.map fun k => max 1 k.toNat) script,
        ∃ micros, moment.micros = .ok micros := by
  have outcome := outcome_runScript limit script listens
  rw [runScript_eq rom]
  generalize play limit e.start script = x at outcome ⊢
  cases outcome with
  | ends counted moments exit => exact ⟨fun _ => counted, fun _ => ⟨_, _, rfl⟩⟩
  | refused mem uncounted =>
    constructor
    · rintro ⟨waits, last, ran⟩
      cases ran
    · intro counted
      obtain ⟨micros, counted⟩ := counted _ mem
      cases uncounted.symm.trans counted

/-- **A run ends at the first thing that ends it, and counts all time.** The loop of a window completes
the iterations before the first input or interrupt that ends the run, and not more than it may. Then
it has counted them, it no longer runs, and its window, open after each of them, has been closed once. Of
the iteration that is cut short the inputs before the end are delivered: keys go down and come up, or the
program is started again, but no time passes and nothing is drawn. After each completed iteration there
have been sixty ticks in a million microseconds since the program was last started. The only thing that
keeps a run from all this is an interval that cannot be counted, and one of fewer than `2 ^ 200`
milliseconds can. -/
theorem run_ends_at_first_exit {setup : Setup} {path : String} {found : Entry} {made : Emulator}
    (created : create setup (some (path, found)) = .ok made) (windowed : made.window.isSome = true)
    (limit : Option Int) (script : List Moment) :
    let quota := limit.map fun k => max 1 k.toNat
    let done := rounds limit made.start script
    let reached := made.start.reached done
    ((∀ moment ∈ script, ∀ millis, moment.wait = .elapsed millis → millis.natAbs < 2 ^ 200) →
      ∃ waits last, made.runScript limit script = .ok (waits, last)) ∧
    ((∃ waits last, made.runScript limit script = .ok (waits, last)) ↔
      ∀ moment ∈ completing quota script, ∃ micros, moment.micros = .ok micros) ∧
    (∀ waits last, made.runScript limit script = .ok (waits, last) →
      done.map (·.moment) = completing quota script ∧
      last.running = false ∧ last.frameCount = done.length ∧ last.closings = 1 ∧
      ∃ delivered w, Exit quota script done.length delivered ∧
        Traced made.start script (done.map (·.after)) waits (reached.handleAll delivered).1 ∧
        last = (reached.handleAll delivered).1.finish ∧
        Keyed (if delivered.contains restartKey then reached.restart else reached)
          (reached.handleAll delivered).1 ∧
        reached.window = some w ∧ w.isOpen = true ∧
        last.window = some { w with isOpen := false }) ∧
    ∀ before r after, done = before ++ r :: after →
      r.after.frameCount = before.length + 1 ∧
      (∃ w, r.after.window = some w ∧ w.isOpen = true) ∧
      ∃ us : List Nat,
        (sinceRestart ((before ++ [r]).reverse.map (·.moment))).map Moment.micros = us.map .ok ∧
        r.after.clock.totalTicks = 60 * us.sum / 1000000 := by
  intro quota done reached
  have opened := opened_create created windowed
  have start := opened.accounts (silent_create created)
  have returns := runScript_returns_iff limit script opened.rom opened.listens
  refine ⟨?_, returns, ?_, ?_⟩
  · intro small
    exact returns.mpr fun moment mem => Moment.micros_of_lt (small moment (mem_of_completing mem))
  · intro waits last ran
    have outcome : Outcome quota script made.start done (play limit made.start script) :=
      outcome_runScript limit script opened.listens
    have traced : ∀ waits last, play limit made.start script = .ok (waits, last) →
        Traced made.start script (done.map (·.after)) waits last := fun _ _ => play_rounds
    rw [runScript_eq opened.rom] at ran
    generalize play limit made.start script = x at outcome ran traced
    cases outcome with
    | refused mem uncounted => cases ran
    | @ends waits delivered counted moments exit =>
      cases ran
      have now : Accounts setup.cpuHz.toNat done.reverse reached :=
        reached_keeps (P := Accounts setup.cpuHz.toNat) accounts_round start
          (List.append_nil done).symm
      obtain ⟨idle, frames, closed, keyed, w, window, shows, final⟩ :=
        finish_of_accounts now exit.goesOn
      rw [List.length_reverse] at frames
      exact ⟨moments, idle, frames, closed, delivered, w, exit, traced _ _ rfl, rfl, keyed, window, shows,
        final⟩
  · intro before r after split
    have now : Accounts setup.cpuHz.toNat (r :: (before.reverse ++ [])) r.after :=
      rounds_keeps (P := Accounts setup.cpuHz.toNat) accounts_round start split
    obtain ⟨us, counted, total⟩ := now.time
    obtain ⟨w, window, -, shows⟩ := now.window
    refine ⟨?_, ⟨w, window, shows⟩, us, ?_, ?_⟩
    · rw [now.frameCount, List.length_cons, List.append_nil, List.length_reverse]
    · rw [← counted, List.reverse_concat, List.append_nil]
    · have rest := now.bounds.time
      omega

/-- A run that is left in its third iteration, after a key and before the last input. F5 in the second
forgets the rest of time that the first has left over: `33 + 17` milliseconds would be worth three
frames. -/
theorem run_ends_at_quit_after_restart :
    let setup : Setup := { windowScale := some 1 }
    let script : List Moment := [⟨[], .elapsed 33⟩, ⟨[restartKey], .elapsed 17⟩,
      ⟨[.keyDown 49, .quit, restartKey], .elapsed 17⟩]
    ∃ made waits last first second w,
      create setup (some ("a.ch8", .file [0x12, 0x00])) = .ok made ∧ made.window.isSome = true ∧
        made.runScript (some 5) script = .ok (waits, last) ∧
        rounds (some 5) made.start script = [first, second] ∧
        first.after.clock.totalTicks = 1 ∧ second.after.clock.totalTicks = 1 ∧
        last.running = false ∧ last.frameCount = 2 ∧ last.closings = 1 ∧
        last = (second.after.handleAll [.keyDown 49]).1.finish ∧
        second.after.window = some w ∧ w.isOpen = true ∧
        last.window = some { w with isOpen := false } := by
  intro setup script
  obtain ⟨made, created, windowed⟩ : ∃ made,
      create setup (some ("a.ch8", .file [0x12, 0x00])) = .ok made ∧ made.window.isSome = true :=
    ⟨_, rfl, rfl⟩
  obtain ⟨returns, -, ends, counts⟩ := run_ends_at_first_exit created windowed (some 5) script
  have small : ∀ moment ∈ script, ∀ millis, moment.wait = .elapsed millis →
      millis.natAbs < 2 ^ 200 := by
    intro moment mem millis elapsed
    simp only [script, List.mem_cons, List.not_mem_nil, or_false] at mem
    rcases mem with rfl | rfl | rfl
    · cases elapsed
      decide
    · cases elapsed
      decide
    · cases elapsed
      decide
  obtain ⟨waits, last, ran⟩ := returns small
  obtain ⟨moments, idle, frames, closed, delivered, w, exit, -, final, -, window, shows, shut⟩ :=
    ends waits last ran
  have completed : completing ((some 5).map fun k : Int => max 1 k.toNat) script =
      [⟨[], .elapsed 33⟩, ⟨[restartKey], .elapsed 17⟩] := by decide +kernel
  rw [completed] at moments
  generalize split : rounds (some 5) made.start script = done at moments frames exit final window
  obtain ⟨first, others, rfl, met, moments⟩ := List.map_eq_cons_iff.mp moments
  obtain ⟨second, others, rfl, met', moments⟩ := List.map_eq_cons_iff.mp moments
  obtain rfl := List.map_eq_nil_iff.mp moments
  -- the one input before the one that ends the run
  have before : delivered = [.keyDown 49] := by
    cases exit with
    | complete all => cases all
    | interrupted next goesOn early => cases next
    | runsOut all goesOn early => cases all
    | @stopped before later stop wait next goesOn stops early =>
      have inputs : [.keyDown 49, .quit, restartKey] = delivered ++ stop :: later :=
        congrArg Moment.inputs (Option.some.inj next)
      match delivered with
      | [] =>
        cases inputs
        cases stops
      | [key] =>
        cases inputs
        rfl
      | key :: next :: rest =>
        obtain ⟨-, inputs⟩ := List.cons_eq_cons.mp inputs
        obtain ⟨rfl, -⟩ := List.cons_eq_cons.mp inputs
        cases goesOn .quit (by simp)
  obtain ⟨-, -, us, counted, ticks⟩ := counts [] first [second] split
  obtain ⟨-, -, us', counted', ticks'⟩ := counts [first] second [] split
  have micros : Interval.ofMillis 33 = .ok 33000 := by decide +kernel
  have micros' : Interval.ofMillis 17 = .ok 17000 := by decide +kernel
  have ok : Function.Injective (List.map (Except.ok : Nat → Except Refusal Nat)) :=
    List.map_injective_iff.mpr fun _ _ => Except.ok.inj
  have one : us = [33000] := by
    simp only [List.nil_append, List.reverse_singleton, List.map_singleton, met] at counted
    exact ok (counted.symm.trans (congrArg (fun x => [x]) micros))
  have other : us' = [17000] := by
    simp only [List.singleton_append, List.reverse_cons, List.reverse_nil, List.nil_append,
      List.map_cons, List.map_nil, met, met'] at counted'
    exact ok (counted'.symm.trans (congrArg (fun x => [x]) micros'))
  rw [one] at ticks
  rw [other] at ticks'
  rw [before] at final
  exact ⟨made, waits, last, first, second, w, created, windowed, ran, split, ticks, ticks', idle,
    frames, closed, final, window, shows, shut⟩

end ChipEight.Emulator
