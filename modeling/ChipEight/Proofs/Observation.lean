import ChipEight.Proofs.Reports
import ChipEight.Proofs.Rounds

/-! # Who listens changes nothing

What is kept of the events depends on who listens: on a threshold, and on whether an emulator is to
give signs of life. Whoever listens hears what he is interested in of what there is to be heard, in
order, and nothing else differs (`observing_disturbs_nothing`). The sign of life is the only event
that has to be asked for, so that it is counted apart (`beaten_round`, `beaten_iterate`). -/
namespace ChipEight

/-- A system after calls, and its answers in order. -/
def session {σ γ α : Type} (perform : σ → γ → σ × α) (s : σ) : List γ → σ × List α
  | [] => (s, [])
  | c :: cs =>
    let (s, answer) := perform s c
    let (s, answers) := session perform s cs
    (s, answer :: answers)

theorem agree_session {σ τ γ α : Type} {R : σ → τ → Prop} {perform : σ → γ → σ × α}
    {perform' : τ → γ → τ × α} (performs : ∀ {s t} c, R s t → Agree R (perform s c) (perform' t c))
    {s : σ} {t : τ} (h : R s t) (cs : List γ) :
    Agree R (session perform s cs) (session perform' t cs) := by
  induction cs generalizing s t with
  | nil => exact ⟨h, rfl⟩
  | cons c cs ih =>
    obtain ⟨first, answer⟩ := performs c h
    obtain ⟨state, answers⟩ := ih first
    simp only [session]
    rw [answer, answers]
    exact ⟨state, rfl⟩

theorem Agree.eq_map {σ τ α : Type} {R : σ → τ → Prop} {f : σ → τ} {p : σ × α} {q : τ × α}
    (h : Agree R p q) (same : ∀ {s t}, R s t → t = f s) : q = p.map f id :=
  Prod.ext (same h.1) h.2.symm

/-! ## Listeners -/

/-- What a listener wants to hear. -/
structure Interest where
  threshold : Level
  /-- Whether he asks for signs of life. -/
  verbose : Bool

namespace Interest

/-- All there is to be heard. -/
def everything : Interest := ⟨.debug, true⟩

/-- Whether a listener wants to hear an event. -/
def admits (o : Interest) (e : Event) : Bool :=
  e.level.reaches o.threshold && (o.verbose || !e.isHeartbeat)

variable {o : Interest} {e : Event}

theorem admits_everything (e : Event) : everything.admits e = true := by
  simp [admits, everything, Level.reaches, Level.rank]

theorem admits_of_routine (routine : e.routine = true) : o.admits e = e.level.reaches o.threshold := by
  have other : e.isHeartbeat = false := by
    cases heartbeat : e.isHeartbeat with
    | false => rfl
    | true => simp [Event.routine, heartbeat] at routine
  simp [admits, other]

theorem admits_of_verbose (verbose : o.verbose = true) : o.admits e = e.level.reaches o.threshold := by
  simp [admits, verbose]

theorem admits_heartbeat_of_quiet (quiet : o.verbose = false) (heartbeat : e.isHeartbeat = true) :
    o.admits e = false := by
  simp [admits, quiet, heartbeat]

end Interest

/-- What a listener has heard of what a journal keeps, and goes on to hear. -/
def Journal.heard (j : Journal) (o : Interest) : Journal := ⟨j.newestFirst.filter o.admits, o.threshold⟩

def Monitor.heard (b : Monitor) (o : Interest) : Monitor := { b with journal := b.journal.heard o }

/-- The emulator with a listener. -/
def Emulator.heard (e : Emulator) (o : Interest) : Emulator :=
  { e with monitor := e.monitor.heard o, verbose := o.verbose }

def Clock.Rig.listening (r : Clock.Rig Monitor) (threshold : Level) : Clock.Rig Monitor :=
  { r with board := r.board.listening threshold }

namespace Journal

variable {j : Journal} {o : Interest}

theorem record_of_debug (all : j.threshold = .debug) (es : List Event) :
    j.record es = { j with newestFirst := es.reverseAux j.newestFirst } := by
  have kept : es.filter j.keeps = es := by
    refine List.filter_eq_self.mpr fun e mem => ?_
    simp [keeps, all, Level.reaches, Level.rank]
  rw [record, kept]

theorem heard_record (all : j.threshold = .debug) (es : List Event) :
    (j.record es).heard o =
      { j.heard o with newestFirst := (es.filter o.admits).reverseAux (j.heard o).newestFirst } := by
  rw [record_of_debug all]
  simp [heard, List.reverseAux_eq]

theorem record_heard (all : j.threshold = .debug) {es : List Event}
    (same : ∀ e ∈ es, o.admits e = e.level.reaches o.threshold) :
    (j.heard o).record es = (j.record es).heard o := by
  have kept : es.filter (j.heard o).keeps = es.filter o.admits :=
    List.filter_congr fun e mem => (same e mem).symm
  rw [heard_record all, record, kept]

end Journal

namespace Monitor

variable {o : Interest} {a b : Monitor}

theorem heard_listening (b : Monitor) (threshold : Level) :
    b.heard ⟨threshold, true⟩ = b.listening threshold := by
  have same : Interest.admits ⟨threshold, true⟩ = fun e => e.level.reaches threshold := by
    funext e
    exact Interest.admits_of_verbose rfl
  rw [heard, Journal.heard, same]
  rfl

/-- The one monitor keeps everything, and the other what a listener wants to hear of it. -/
def Hears (o : Interest) (a b : Monitor) : Prop := a.journal.threshold = .debug ∧ b = a.heard o

theorem hears_note (h : Hears o a b) {event : Event}
    (same : o.admits event = event.level.reaches o.threshold) :
    Hears o (a.note event) (b.note event) := by
  obtain ⟨all, rfl⟩ := h
  refine ⟨all, ?_⟩
  have noted := Journal.record_heard all fun e (mem : e ∈ [event]) => List.mem_singleton.mp mem ▸ same
  simp only [heard, note, noted]

theorem simulation_hears (o : Interest) : Board.Simulation (Hears o) := by
  constructor
  · rintro a b ⟨-, rfl⟩
    rfl
  · rintro a b m es routine ⟨all, rfl⟩
    refine ⟨all, ?_⟩
    have recorded : (a.journal.heard o).record es = (a.journal.record es).heard o :=
      Journal.record_heard all fun e mem => Interest.admits_of_routine (routine e mem)
    exact congrArg (Monitor.mk m) recorded

theorem hears_listening (b : Monitor) (threshold : Level) :
    Hears ⟨threshold, true⟩ (b.listening .debug) (b.listening threshold) := by
  refine ⟨rfl, ?_⟩
  rw [heard_listening]
  simp [listening, Journal.listening, Level.reaches, Level.rank]

theorem Hears.eq_listening {threshold : Level} (h : Hears ⟨threshold, true⟩ a b) :
    b = a.listening threshold := by
  rw [h.2, heard_listening]

theorem session_listening (b : Monitor) (threshold : Level) (cs : List Machine.Call) :
    session Board.perform (b.listening threshold) cs =
      (session Board.perform (b.listening .debug) cs).map (·.listening threshold) id := by
  have sim := simulation_hears ⟨threshold, true⟩
  exact (agree_session (fun c h => sim.perform h c) (b.hears_listening threshold) cs).eq_map
    Hears.eq_listening

end Monitor

theorem Clock.Rig.session_listening (r : Rig Monitor) (threshold : Level) (cs : List Call) :
    session perform (r.listening threshold) cs =
      (session perform (r.listening .debug) cs).map (·.listening threshold) id := by
  have sim := Monitor.simulation_hears ⟨threshold, true⟩
  have start : Alike (Monitor.Hears ⟨threshold, true⟩) (r.listening .debug) (r.listening threshold) :=
    ⟨rfl, r.board.hears_listening threshold⟩
  refine (agree_session (fun c h => alike_perform sim h c) start cs).eq_map ?_
  rintro ⟨clock, a⟩ ⟨clock', b⟩ ⟨rfl, hears⟩
  exact congrArg (Rig.mk clock) hears.eq_listening

namespace Emulator

open Monitor (Hears)

theorem hosts_hears (o : Interest) : Hosts (Hears o) true o.verbose := by
  refine ⟨Monitor.simulation_hears o, fun {a b} event heartbeat h => ?_, fun {a b} h => ?_⟩
  · rw [if_pos rfl]
    cases verbose : o.verbose with
    | true => exact Monitor.hears_note h (Interest.admits_of_verbose verbose)
    | false =>
      obtain ⟨all, rfl⟩ := h
      refine ⟨all, ?_⟩
      have silent := Interest.admits_heartbeat_of_quiet verbose heartbeat
      have unheard : (a.journal.record [event]).heard o = a.journal.heard o := by
        rw [Journal.heard_record all, List.filter_cons_of_neg (by simp [silent])]
        rfl
      simp only [Monitor.heard, Monitor.note, unheard]
      rfl
  · exact Monitor.hears_note h (by simp [Interest.admits, Event.isHeartbeat])

theorem alike_heard (e : Emulator) (o : Interest) :
    Alike (Hears o) true o.verbose (e.heard .everything) (e.heard o) := by
  have twice : e.monitor.heard o = (e.monitor.heard .everything).heard o := by
    have all : e.monitor.journal.newestFirst.filter Interest.everything.admits =
        e.monitor.journal.newestFirst :=
      List.filter_eq_self.mpr fun event _ => Interest.admits_everything event
    simp only [Monitor.heard, Journal.heard, all]
  exact ⟨⟨rfl, twice⟩, rfl, rfl, rfl, rfl, rfl, rfl, rfl, rfl, rfl, rfl⟩

theorem Alike.eq_heard {o : Interest} {e e' : Emulator} (h : Alike (Hears o) true o.verbose e e') :
    e' = e.heard o := by
  rw [h.eq, h.monitor.2]
  rfl

theorem AlikeRuns.eq_heard {o : Interest} {p q : List Emulator × Emulator}
    (h : AlikeRuns (Hears o) true o.verbose p q) :
    q = p.map (List.map (·.heard o)) (·.heard o) := by
  obtain ⟨waits, last⟩ := h
  refine Prod.ext ?_ last.eq_heard
  simp only [Prod.map]
  generalize p.1 = ws at waits ⊢
  generalize q.1 = ws' at waits ⊢
  induction waits with
  | nil => rfl
  | cons first _ ih => rw [first.eq_heard, ih, List.map_cons]

theorem session_heard (e : Emulator) (o : Interest) (cs : List Call) :
    session perform (e.heard o) cs = (session perform (e.heard .everything) cs).map (·.heard o) id :=
  (agree_session (fun c h => alike_perform (hosts_hears o) h c) (e.alike_heard o) cs).eq_map
    Alike.eq_heard

theorem runScript_heard (e : Emulator) (o : Interest) (limit : Option Int) (script : List Moment) :
    (e.heard o).runScript limit script =
      ((e.heard .everything).runScript limit script).map
        (Prod.map (List.map (·.heard o)) (·.heard o)) := by
  have both := alike_runScript (hosts_hears o) (e.alike_heard o) limit script
  generalize (e.heard .everything).runScript limit script = x at both ⊢
  generalize (e.heard o).runScript limit script = y at both ⊢
  cases both with
  | ok h => exact congrArg Except.ok h.eq_heard
  | refused refusal => rfl

/-! ## Signs of life -/

/-- The signs of life that the journal keeps. -/
def heartbeats (e : Emulator) : Nat := e.monitor.journal.events.countP Event.isHeartbeat

/-- The signs of life that are kept of an iteration, by its place in the run. -/
def lifeSigns (verbose : Bool) (threshold : Level) (i : Nat) : Nat :=
  if verbose ∧ Level.info.reaches threshold ∧ i % 60 = 0 then 1 else 0

/-- The journal keeps events from a threshold on, and so many signs of life are among them. -/
def Told (threshold : Level) (k : Nat) (b : Monitor) : Prop := b.Kept Event.isHeartbeat threshold k

variable {threshold : Level} {k : Nat} {e e' : Emulator}

theorem told_settle (h : Told threshold k e.monitor) :
    Told threshold (k + lifeSigns e.verbose threshold e.frameCount) e.settle.monitor := by
  obtain ⟨keeps, count⟩ := kept_report Event.not_isHeartbeat h
  have same := (reporting_report e).same
  change Told _ _ e.updateTone.reportFault.present.beat.monitor
  generalize e.updateTone.reportFault.present = f at keeps count same ⊢
  rw [← same.frameCount, ← same.verbose]
  by_cases due : f.frameCount % 60 = 0
  · rw [beat_of_due due]
    cases verbose : f.verbose with
    | false => exact ⟨keeps, by simp [lifeSigns, count]⟩
    | true =>
      refine ⟨keeps, ?_⟩
      have level : f.heartbeat.level = .info := rfl
      have heartbeat : f.heartbeat.isHeartbeat = true := rfl
      simp only [if_true, Monitor.note, Journal.events_record, List.countP_append, count, lifeSigns]
      by_cases heard : Level.info.reaches threshold = true
      · simp [Journal.keeps, keeps, level, heard, heartbeat, due]
      · simp [Journal.keeps, keeps, level, heard]
  · rw [beat_of_not_due due]
    exact ⟨keeps, by simp [lifeSigns, due, count]⟩

theorem told_finish (h : Told threshold k e.monitor) : Told threshold k e.finish.monitor := by
  unfold finish
  simp only
  cases e.window with
  | none => exact h
  | some w => exact Monitor.kept_record e.monitor.machine (by simp [Event.isHeartbeat]) h

theorem told_perform (h : Told threshold k e.monitor) {c : Call} (other : ∀ n, c ≠ .run n) :
    Told threshold k (e.perform c).1.monitor := by
  have sim := Monitor.simulation_kept threshold k Event.not_isHeartbeat
  have self := alike_self h
  cases c with
  | machine call => exact (sim.perform ⟨rfl, h⟩ call).1.2
  | loadRom path found => exact (agree_of_both self (alike_loadRom sim self path found)).1.monitor.2
  | restart => exact (alike_restart sim self).monitor.2
  | run maxFrames => exact absurd rfl (other maxFrames)
  | handle input => exact (alike_handle sim self input).1.monitor.2
  | keyMap => exact h

/-- One more iteration of a run, and its sign of life if it is due and is kept. -/
structure Beaten (e e' : Emulator) : Prop where
  verbose : e'.verbose = e.verbose
  frameCount : e'.frameCount = e.frameCount + 1
  threshold : e'.monitor.journal.threshold = e.monitor.journal.threshold
  heartbeats : e'.heartbeats =
    e.heartbeats + lifeSigns e.verbose e.monitor.journal.threshold e.frameCount

theorem beaten_settle {e₀ : Emulator} (same : SameRun e₀ e)
    (told : Told e₀.monitor.journal.threshold e₀.heartbeats e.monitor) : Beaten e₀ e.settle := by
  have settled := told_settle told
  rw [same.verbose, same.frameCount] at settled
  refine ⟨(verbose_settle e).trans same.verbose, ?_, settled.1, settled.2⟩
  rw [frameCount_settle, same.frameCount]

theorem beaten_iterate (e : Emulator) : Beaten e e.iterate :=
  beaten_settle ⟨rfl, rfl, rfl, rfl⟩ (kept_passFrame Event.not_isHeartbeat ⟨rfl, rfl⟩)

theorem beaten_round {moment : Moment} (round : e.round moment = some e') : Beaten e e' := by
  obtain ⟨heard, millis, passed, handled, -, passes, rfl⟩ := round_parts round
  have same := sameRun_handleAll e moment.inputs
  have told : Told e.monitor.journal.threshold e.heartbeats (e.handleAll moment.inputs).1.monitor :=
    kept_handleAll Event.not_isHeartbeat ⟨rfl, rfl⟩ moment.inputs
  rw [handled] at same told
  exact beaten_settle (same.trans (sameRun_passMillis passes))
    (kept_passMillis Event.not_isHeartbeat passes told)

/-- How far a run has come, and whose run it is. -/
structure Along (e : Emulator) (frames : Nat) (e' : Emulator) : Prop where
  verbose : e'.verbose = e.verbose
  frameCount : e'.frameCount = frames
  threshold : e'.monitor.journal.threshold = e.monitor.journal.threshold

theorem Along.next {now after : Emulator} {frames : Nat} (along : Along e frames now)
    (beaten : Beaten now after) : Along e (frames + 1) after ∧
      after.heartbeats = now.heartbeats + lifeSigns e.verbose e.monitor.journal.threshold frames := by
  obtain ⟨verbose, frameCount, threshold, heartbeats⟩ := beaten
  rw [along.verbose, along.frameCount, along.threshold] at heartbeats
  refine ⟨⟨verbose.trans along.verbose, ?_, threshold.trans along.threshold⟩, heartbeats⟩
  rw [frameCount, along.frameCount]

theorem along_reached {limit : Option Int} {script : List Moment} {done rest : List Round}
    (split : rounds limit e.start script = done ++ rest) :
    Along e done.length (e.start.reached done) := by
  have along : Along e done.reverse.length (e.start.reached done) :=
    reached_keeps (P := fun past now => Along e past.length now) (e := e.start)
      (fun along round => (along.next (beaten_round round)).1) ⟨rfl, rfl, rfl⟩ split
  rw [List.length_reverse] at along
  exact along

theorem iterations_succ (e : Emulator) (n : Nat) : e.iterations (n + 1) = (e.iterations n).iterate := by
  induction n generalizing e with
  | zero => rfl
  | succ n ih => exact ih e.iterate

theorem along_iterations (e : Emulator) (n : Nat) : Along e n (e.start.iterations n) := by
  induction n with
  | zero => exact ⟨rfl, rfl, rfl⟩
  | succ n ih =>
    rw [iterations_succ]
    exact (ih.next (beaten_iterate _)).1

theorem heartbeats_runScript {limit : Option Int} {script : List Moment} {waits : List Emulator}
    {last : Emulator} (ran : e.runScript limit script = .ok (waits, last)) :
    last.heartbeats = (e.start.reached (rounds limit e.start script)).heartbeats := by
  unfold runScript at ran
  cases present : e.rom with
  | none =>
    rw [present] at ran
    cases ran
  | some rom =>
    cases played : play limit e.start script with
    | error refusal =>
      simp only [present, played] at ran
      cases ran
    | ok result =>
      obtain ⟨waits', ended⟩ := result
      simp only [present, played] at ran
      cases ran
      obtain ⟨-, -, inputs, rfl⟩ := play_rounds played
      exact (told_finish (kept_handleAll Event.not_isHeartbeat ⟨rfl, rfl⟩ inputs)).2

theorem heartbeats_run {maxFrames : Int} {last : Emulator} (ran : e.run maxFrames = .ok last) :
    last.heartbeats = (e.start.iterations (max 1 maxFrames.toNat)).heartbeats := by
  unfold run at ran
  cases present : e.rom with
  | none =>
    rw [present] at ran
    cases ran
  | some rom =>
    rw [present] at ran
    cases ran
    exact (told_finish ⟨rfl, rfl⟩).2

/-! ## The main statement -/

/-- **Who listens changes nothing.** With a higher threshold the calls of a machine, of a clock and of
an emulator, and the loop of a window, give the same answers and lead to the same states, and what is
kept is what was to be heard at the lowest threshold, less what does not reach the higher one. An
emulator that gives no signs of life does the same as one that does, less the signs of life; each
iteration that a run completes gives one if its place in the run is a multiple of sixty, and nothing
else gives any: not an iteration that is cut short, not the end, and no other call. -/
theorem observing_disturbs_nothing :
    (∀ (b : Monitor) (threshold : Level) (cs : List Machine.Call),
      session Board.perform (b.listening threshold) cs =
        (session Board.perform (b.listening .debug) cs).map (·.listening threshold) id) ∧
    (∀ (r : Clock.Rig Monitor) (threshold : Level) (cs : List Clock.Call),
      session Clock.Rig.perform (r.listening threshold) cs =
        (session Clock.Rig.perform (r.listening .debug) cs).map (·.listening threshold) id) ∧
    (∀ (e : Emulator) (o : Interest) (cs : List Call),
      session perform (e.heard o) cs =
        (session perform (e.heard .everything) cs).map (·.heard o) id) ∧
    (∀ (e : Emulator) (o : Interest) (limit : Option Int) (script : List Moment),
      (e.heard o).runScript limit script =
        ((e.heard .everything).runScript limit script).map
          (Prod.map (List.map (·.heard o)) (·.heard o))) ∧
    (∀ (e : Emulator) (limit : Option Int) (script : List Moment) (waits : List Emulator)
        (last : Emulator), e.runScript limit script = .ok (waits, last) →
      let done := rounds limit e.start script
      (∀ before r after, done = before ++ r :: after →
        r.after.heartbeats = (e.start.reached before).heartbeats +
          lifeSigns e.verbose e.monitor.journal.threshold before.length) ∧
      last.heartbeats = (e.start.reached done).heartbeats) ∧
    (∀ (e : Emulator) (maxFrames : Int) (last : Emulator), e.run maxFrames = .ok last →
      let n := max 1 maxFrames.toNat
      (∀ i, i < n → (e.start.iterations (i + 1)).heartbeats = (e.start.iterations i).heartbeats +
        lifeSigns e.verbose e.monitor.journal.threshold i) ∧
      last.heartbeats = (e.start.iterations n).heartbeats) ∧
    ∀ (e : Emulator) (c : Call), (∀ n, c ≠ .run n) →
      (e.perform c).1.heartbeats = e.heartbeats := by
  refine ⟨Monitor.session_listening, Clock.Rig.session_listening, session_heard, runScript_heard,
    ?_, ?_, ?_⟩
  · intro e limit script waits last ran done
    refine ⟨fun before r after split => ?_, heartbeats_runScript ran⟩
    exact ((along_reached split).next (beaten_round (round_of_split split))).2
  · intro e maxFrames last ran n
    refine ⟨fun i _ => ?_, heartbeats_run ran⟩
    rw [iterations_succ]
    exact ((along_iterations e i).next (beaten_iterate _)).2
  · intro e c other
    exact (told_perform ⟨rfl, rfl⟩ other).2

/-- A loop that is interrupted in its second iteration, and a run of sixty-one frames: the iterations
at the places 0 and 60 give a sign of life, the one that is cut short and a step from outside none. -/
theorem heartbeats_at_zero_and_sixty :
    let setup : Setup := { windowScale := some 1 }
    let script : List Moment := [⟨[], .elapsed 0⟩, ⟨[], .interrupt⟩]
    ∃ made waits last r final, create setup (some ("a.ch8", .file [0x12, 0x00])) = .ok made ∧
      let e : Emulator := { made with verbose := true }
      e.runScript none script = .ok (waits, last) ∧
        rounds none e.start script = [] ++ r :: [] ∧
        r.after.heartbeats = e.start.heartbeats + 1 ∧ last.heartbeats = r.after.heartbeats ∧
        e.run 61 = .ok final ∧ 60 < max 1 (61 : Int).toNat ∧
        final.heartbeats = (e.start.iterations 60).heartbeats + 1 ∧
        (∀ n, Call.machine .step ≠ .run n) ∧
        (e.perform (.machine .step)).1.heartbeats = e.heartbeats := by
  intro setup script
  obtain ⟨made, created, present, bounded, keeps⟩ :
      ∃ made, create setup (some ("a.ch8", .file [0x12, 0x00])) = .ok made ∧
        made.rom.isSome = true ∧ made.clock.timeBudget < 1000000 ∧
        made.monitor.journal.threshold = .debug :=
    ⟨_, rfl, rfl, by decide, rfl⟩
  obtain ⟨rom, present⟩ := Option.isSome_iff_exists.mp present
  have step : ∀ n, Call.machine .step ≠ .run n := by
    intro n same
    cases same
  obtain ⟨-, -, -, -, windowed, headless, others⟩ := observing_disturbs_nothing
  let e : Emulator := { made with verbose := true }
  have rom : e.rom = some rom := present
  have passes : e.start.passMillis 0 = .ok e.start := passMillis_zero bounded
  have rounds : Emulator.rounds none e.start script = [] ++ ⟨⟨[], .elapsed 0⟩, e.start.settle⟩ :: [] :=
    rounds_of_round (round_of_passes rfl passes)
  have ran : e.runScript none script =
      .ok ([e.start, e.start.settle], e.start.settle.finish) := by
    simp only [runScript, rom, script, play, handleAll, passes, isComplete]
    rfl
  have final : e.run 61 = .ok (e.start.iterations 61).finish := by
    simp only [run, rom]
    rfl
  obtain ⟨each, ended⟩ := windowed e none script _ _ ran
  obtain ⟨frame, total⟩ := headless e 61 _ final
  have first := each [] _ [] rounds
  have last := frame 60 (by decide)
  have signs (i : Nat) (due : i % 60 = 0) :
      lifeSigns e.verbose e.monitor.journal.threshold i = 1 := by
    have threshold : e.monitor.journal.threshold = .debug := keeps
    rw [threshold]
    exact if_pos ⟨rfl, rfl, due⟩
  rw [rounds] at ended
  rw [List.length_nil, signs 0 rfl] at first
  rw [signs 60 rfl] at last
  exact ⟨made, _, _, _, _, created, ran, rounds, first, ended, final, by decide, total.trans last,
    step, others e (.machine .step) step⟩

/-- An iteration that is cut short gives no sign of life, whatever its place: here the first one of a
run is left at once. -/
theorem no_heartbeat_when_cut_short :
    let setup : Setup := { windowScale := some 1 }
    let script : List Moment := [⟨[.quit], .elapsed 17⟩]
    ∃ made last, create setup (some ("a.ch8", .file [0x12, 0x00])) = .ok made ∧
      let e : Emulator := { made with verbose := true }
      e.runScript none script = .ok ([], last) ∧
        e.start.frameCount % 60 = 0 ∧ last.heartbeats ≠ e.start.heartbeats + 1 :=
  ⟨_, _, rfl, rfl, rfl, by decide +kernel⟩

end Emulator

end ChipEight
