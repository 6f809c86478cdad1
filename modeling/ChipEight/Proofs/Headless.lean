import ChipEight.Proofs.Messages
import ChipEight.Proofs.Observation

/-! # Runs without a window

A run without a window asks after each frame whether it was the last one (`loop`), and so it makes
exactly as many frames as it is allowed, though at least one. Nothing but the clock and its machine
takes part in them. What has been reported of a machine is carried from one run to the next, so two
runs in a row report what one long run does, but for the signs of life, which are counted from the
beginning of each run. -/
namespace ChipEight

/-- The events that a journal keeps, less the signs of life. -/
def Journal.withoutSigns (j : Journal) : List Event := j.events.filter fun e => !e.isHeartbeat

theorem Journal.withoutSigns_record (j : Journal) (es : List Event) :
    (j.record es).withoutSigns =
      j.withoutSigns ++ (es.filter fun e => !e.isHeartbeat).filter j.keeps := by
  rw [withoutSigns, withoutSigns, events_record, List.filter_append, List.filter_comm]

namespace Monitor

/-- The monitors carry one machine and have kept the same, but for signs of life. -/
structure InStep (a b : Monitor) : Prop where
  machine : a.machine = b.machine
  threshold : a.journal.threshold = b.journal.threshold
  kept : a.journal.withoutSigns = b.journal.withoutSigns

theorem InStep.record {a b : Monitor} (h : InStep a b) (m : Machine) {es fs : List Event}
    (same : (es.filter fun e => !e.isHeartbeat) = fs.filter fun e => !e.isHeartbeat) :
    InStep ⟨m, a.journal.record es⟩ ⟨m, b.journal.record fs⟩ := by
  refine ⟨rfl, h.threshold, ?_⟩
  rw [Journal.withoutSigns_record, Journal.withoutSigns_record, h.kept,
    Journal.keeps_congr h.threshold, same]

theorem simulation_inStep : Board.Simulation InStep :=
  ⟨fun h => h.machine, fun m _ _ h => h.record m rfl⟩

end Monitor

namespace Emulator

variable {e e' : Emulator}

/-! ## One iteration -/

/-- The clock of the emulator and a bare machine. -/
def bare (e : Emulator) : Clock.Rig Machine := ⟨e.clock, e.machine⟩

theorem frameCount_iterate (e : Emulator) : e.iterate.frameCount = e.frameCount + 1 :=
  frameCount_settle e.passFrame

theorem running_iterate (e : Emulator) : e.iterate.running = e.running := running_settle e.passFrame

theorem headless_settle (headless : e.window = none) : e.settle.window = none := by
  have closed : e.settle.window.isSome = false := by rw [window_settle, headless, Option.isSome_none]
  exact Option.not_isSome_iff_eq_none.mp (by rw [closed]; exact Bool.false_ne_true)

theorem headless_iterate (headless : e.window = none) : e.iterate.window = none :=
  headless_settle (e := e.passFrame) headless

theorem machine_settle_of_headless (headless : e.window = none) : e.settle.machine = e.machine := by
  rw [machine_settle, seen, headless]
  rfl

theorem bare_passFrame (e : Emulator) : e.passFrame.bare = e.bare.frame.1 := by
  obtain ⟨clock, machine⟩ := (Clock.Rig.alike_frame Board.simulation_machine
    (⟨rfl, rfl⟩ : Clock.Rig.Alike (Board.machine · = ·) e.rig e.bare)).1
  exact congrArg₂ Clock.Rig.mk clock machine

theorem bare_iterate (headless : e.window = none) : e.iterate.bare = e.bare.after .tickFrame := by
  have machine := machine_settle_of_headless (e := e.passFrame) headless
  have same : e.iterate.bare = e.passFrame.bare :=
    congrArg₂ Clock.Rig.mk (clock_settle e.passFrame) machine
  rw [same, bare_passFrame]
  rfl

/-! ## The loop -/

/-- The loop of a run without a window. -/
def loop (limit : Int) (e : Emulator) : Emulator :=
  if e.running then
    let after := e.iterate
    if after.isComplete (some limit) then after else loop limit after
  else e
termination_by (limit - e.frameCount).toNat
decreasing_by
  rename_i short
  have count := frameCount_iterate e
  have below : ¬ limit ≤ e.iterate.frameCount := fun reached => short (decide_eq_true reached)
  omega

/-- The frames are counted after each iteration, so there is always one. -/
theorem loop_eq_iterations (limit : Int) (running : e.running = true) :
    e.loop limit = e.iterations (max 1 (limit - e.frameCount).toNat) := by
  fun_induction loop limit e with
  | case1 e active after complete =>
    have count : after.frameCount = e.frameCount + 1 := frameCount_iterate e
    have reached : limit ≤ after.frameCount := of_decide_eq_true complete
    have one : max 1 (limit - e.frameCount).toNat = 1 := by omega
    rw [one]
    rfl
  | case2 e active after short ih =>
    have count : after.frameCount = e.frameCount + 1 := frameCount_iterate e
    have below : ¬ limit ≤ after.frameCount := fun reached => short (decide_eq_true reached)
    have more : max 1 (limit - e.frameCount).toNat =
        max 1 (limit - after.frameCount).toNat + 1 := by omega
    rw [ih ((running_iterate e).trans active), more]
    rfl
  | case3 e idle => exact absurd running idle

theorem iterations_keeps {P : Emulator → Prop} (keeps : ∀ e, P e → P e.iterate) (h : P e) (n : Nat) :
    P (e.iterations n) := by
  induction n generalizing e with
  | zero => exact h
  | succ n ih => exact ih (keeps e h)

theorem iterations_add (e : Emulator) (m n : Nat) :
    e.iterations (m + n) = (e.iterations m).iterations n := by
  induction m generalizing e with
  | zero => rw [Nat.zero_add]; rfl
  | succ m ih => rw [Nat.succ_add]; exact ih e.iterate

theorem headless_iterations (headless : e.window = none) (n : Nat) : (e.iterations n).window = none :=
  iterations_keeps (P := fun e => e.window = none) (fun _ => headless_iterate) headless n

theorem bare_iterations (headless : e.window = none) (n : Nat) :
    (e.iterations n).bare = e.bare.afterAll (List.replicate n .tickFrame) := by
  induction n generalizing e with
  | zero => rfl
  | succ n ih =>
    rw [List.replicate_succ, Clock.Rig.afterAll_cons, ← bare_iterate headless]
    exact ih (headless_iterate headless)

theorem finish_of_headless (headless : e.window = none) : e.finish = { e with running := false } := by
  unfold finish
  simp only [headless]

/-! ## Two runs in a row -/

/-- Two emulators without a window that differ in the place they have come to in a run at most, and in
the signs of life they have given. -/
structure Alongside (e e' : Emulator) : Prop where
  headless : e.window = none
  headless' : e'.window = none
  monitor : Monitor.InStep e.monitor e'.monitor
  clock : e.clock = e'.clock
  toneOn : e.toneOn = e'.toneOn
  faultReported : e.faultReported = e'.faultReported

theorem alongside_passFrame (h : Alongside e e') : Alongside e.passFrame e'.passFrame := by
  have passed := Clock.alike_tickFrame Monitor.simulation_inStep e.clock h.monitor
  have clock : (e.clock.tickFrame e.monitor).clock = (e'.clock.tickFrame e'.monitor).clock := by
    rw [← h.clock]
    exact passed.clock
  have monitor : Monitor.InStep (e.clock.tickFrame e.monitor).board
      (e'.clock.tickFrame e'.monitor).board := by
    rw [← h.clock]
    exact passed.board
  exact { h with monitor, clock }

theorem alongside_settle (h : Alongside e e') : Alongside e.settle e'.settle := by
  have machine : e.machine = e'.machine := h.monitor.machine
  have tone : e.toneNews = e'.toneNews := by rw [toneNews, toneNews, machine, h.toneOn]
  have fault : e.faultNews = e'.faultNews := by rw [faultNews, faultNews, machine, h.faultReported]
  have settled (d : Emulator) (headless : d.window = none) :
      d.settle.monitor = ⟨d.machine, d.monitor.journal.record d.messages⟩ := by
    rw [← machine_settle_of_headless headless, ← journal_settle]
    rfl
  refine ⟨headless_settle h.headless, headless_settle h.headless', ?_, ?_, ?_, ?_⟩
  · rw [settled e h.headless, settled e' h.headless', ← machine]
    refine h.monitor.record e.machine ?_
    have news (d : Emulator) :
        (d.messages.filter fun event => !event.isHeartbeat) = d.toneNews ++ d.faultNews :=
      filter_messages (fun _ => rfl) (fun _ => rfl) rfl
    rw [news, news, tone, fault]
  · rw [clock_settle, clock_settle, h.clock]
  · rw [toneOn_settle, toneOn_settle, machine]
  · rw [faultReported_settle, faultReported_settle, machine, h.faultReported]

theorem alongside_iterations (h : Alongside e e') (n : Nat) :
    Alongside (e.iterations n) (e'.iterations n) := by
  induction n generalizing e e' with
  | zero => exact h
  | succ n ih => exact ih (alongside_settle (alongside_passFrame h))

/-! ## The main statement -/

theorem run_of_program (program : e.rom.isSome = true) (n : Int) :
    e.run n = .ok (e.start.iterations (max 1 n.toNat)).finish := by
  obtain ⟨rom, present⟩ := Option.isSome_iff_exists.mp program
  simp only [run, present]

/-- Two runs in a row and one run of all their frames end side by side. -/
theorem run_add (headless : e.window = none) (program : e.rom.isSome = true) {a b : Int}
    (some : 1 ≤ a) (more : 1 ≤ b) : ∃ first second whole,
      e.run a = .ok first ∧ first.run b = .ok second ∧ e.run (a + b) = .ok whole ∧
        Alongside second whole := by
  have frames : max 1 (a + b).toNat = max 1 a.toNat + max 1 b.toNat := by omega
  have ran := run_of_program program a
  have whole := run_of_program program (a + b)
  have closed := headless_iterations (e := e.start) headless (max 1 a.toNat)
  have kept : (e.start.iterations (max 1 a.toNat)).rom = e.rom :=
    iterations_keeps (e := e.start) (P := fun now => now.rom = e.rom)
      (fun now same => (rom_settle _).trans same) rfl _
  rw [frames, iterations_add] at whole
  generalize e.start.iterations (max 1 a.toNat) = now at ran whole closed kept
  rw [finish_of_headless closed] at ran
  have side : Alongside { now with running := false }.start now :=
    ⟨closed, closed, ⟨rfl, rfl, rfl⟩, rfl, rfl, rfl⟩
  have ends := alongside_iterations side (max 1 b.toNat)
  have present : { now with running := false }.rom.isSome = true := by rw [← program, ← kept]
  rw [finish_of_headless ends.headless'] at whole
  refine ⟨_, _, _, ran, run_of_program present b, whole, ?_⟩
  rw [finish_of_headless ends.headless]
  exact { ends with }

/-- **A run without a window is frames of the clock.** Without a program a run is refused and nothing
changes. With one it makes `max 1 n` frames if `n` are asked for: clock and machine go where the clock
takes a bare machine in so many frames, whatever happens in them. Two runs in a row lead to what one
run of all their frames leads to, and report the same but for signs of life. -/
theorem run_is_frames :
    (∀ (e : Emulator) (n : Int), e.rom = none → e.perform (.run n) = (e, .error .noProgram)) ∧
    ∀ e : Emulator, e.window = none → e.rom.isSome = true →
      (∀ n : Int, ∃ e', e.run n = .ok e' ∧ e' = (e.start.loop n).finish ∧
        (⟨e'.clock, e'.machine⟩ : Clock.Rig Machine) =
          (⟨e.clock, e.machine⟩ : Clock.Rig Machine).afterAll
            (List.replicate (max 1 n).toNat .tickFrame) ∧
        (e'.frameCount : Int) = max 1 n ∧ e'.running = false) ∧
      ∀ a b : Int, 1 ≤ a → 1 ≤ b → ∃ first second whole,
        e.run a = .ok first ∧ first.run b = .ok second ∧ e.run (a + b) = .ok whole ∧
          second.machine = whole.machine ∧ second.clock = whole.clock ∧
          second.toneOn = whole.toneOn ∧ second.faultReported = whole.faultReported ∧
          second.monitor.journal.withoutSigns = whole.monitor.journal.withoutSigns := by
  refine ⟨fun e n absent => ?_, fun e headless program => ⟨fun n => ?_, fun a b some more => ?_⟩⟩
  · simp only [perform, run, absent]
  · have frames : (max 1 n).toNat = max 1 n.toNat := by omega
    have count : (e.start.iterations (max 1 n.toNat)).frameCount = max 1 n.toNat :=
      (along_iterations e _).frameCount
    have reached := bare_iterations (e := e.start) headless (max 1 n.toNat)
    have closed := headless_iterations (e := e.start) headless (max 1 n.toNat)
    have looped : e.start.loop n = e.start.iterations (max 1 n.toNat) := by
      rw [loop_eq_iterations n rfl]
      exact congrArg (fun k : Int => e.start.iterations (max 1 k.toNat)) (Int.sub_zero n)
    rw [frames, looped]
    refine ⟨_, run_of_program program n, rfl, ?_⟩
    generalize e.start.iterations (max 1 n.toNat) = last at count reached closed ⊢
    rw [finish_of_headless closed]
    refine ⟨reached, ?_, rfl⟩
    rw [count]
    omega
  · obtain ⟨first, second, whole, ran, ran', ran'', side⟩ := run_add headless program some more
    exact ⟨first, second, whole, ran, ran', ran'', side.monitor.machine, side.clock, side.toneOn,
      side.faultReported, side.monitor.kept⟩

/-- A program that switches the tone on and then returns from nowhere, so that the machine is halted in
the middle of the first frame. The tone ends in the second of two runs. -/
theorem runs_across_fault :
    let program : List Byte := [0x60, 0x09, 0xF0, 0x18, 0x00, 0xEE]
    ∃ e first second whole, create {} (some ("a.ch8", .file program)) = .ok e ∧
      e.window = none ∧ e.rom.isSome = true ∧ (1 : Int) ≤ 2 ∧ (1 : Int) ≤ 10 ∧
      e.run 2 = .ok first ∧ first.run 10 = .ok second ∧ e.run (2 + 10) = .ok whole ∧
      second.machine = whole.machine ∧ second.clock = whole.clock ∧
      second.monitor.journal.withoutSigns = whole.monitor.journal.withoutSigns ∧
      (∃ e', e.run (-3) = .ok e' ∧ (e'.frameCount : Int) = max 1 (-3)) ∧
      { e with rom := none }.perform (.run 5) = ({ e with rom := none }, .error .noProgram) := by
  intro program
  obtain ⟨refused, frames⟩ := run_is_frames
  obtain ⟨e, created, headless, present⟩ : ∃ e,
      create {} (some ("a.ch8", .file program)) = .ok e ∧ e.window = none ∧ e.rom.isSome = true :=
    ⟨_, rfl, rfl, rfl⟩
  obtain ⟨each, row⟩ := frames e headless present
  obtain ⟨first, second, whole, ran, ran', ran'', machine, clock, -, -, kept⟩ :=
    row 2 10 (by decide) (by decide)
  obtain ⟨e', once, -, -, count, -⟩ := each (-3)
  exact ⟨e, first, second, whole, created, headless, present, by decide, by decide, ran, ran', ran'',
    machine, clock, kept, ⟨e', once, count⟩, refused { e with rom := none } 5 rfl⟩

end Emulator

end ChipEight
