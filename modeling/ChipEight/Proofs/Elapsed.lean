import Mathlib.Algebra.GroupWithZero.Nat
import ChipEight.Clock.Call
import ChipEight.Proofs.Frame

/-! # Elapsed time

The calls of a clock follow one another in histories, like those of a machine. An interval is worth a
number of frames and leaves a rest of time, and both depend on the sum of the intervals alone
(`elapses_eq`): neither the state nor the counts show how real time was cut up. -/
namespace ChipEight.Clock

/-- What holds of the clock of two frequencies between its calls. -/
structure InBounds (cpuHz timerHz : Nat) (c : Clock) : Prop where
  cpu : c.cpuHz = cpuHz
  timer : c.timerHz = timerHz
  steps : c.stepBudget < timerHz
  time : c.timeBudget < 1000000

variable {σ : Type}

namespace Rig

/-! ## The same again and again -/

section Times

variable {r : Rig σ} {pass : Rig σ → Rig σ × Nat}

theorem times_add (pass : Rig σ → Rig σ × Nat) (r : Rig σ) (m n : Nat) :
    times pass r (m + n) =
      ((times pass (times pass r m).1 n).1,
        (times pass r m).2 ++ (times pass (times pass r m).1 n).2) := by
  induction m generalizing r with
  | zero => simp [times]
  | succ m ih =>
    rw [Nat.succ_add]
    simp only [times, ih, List.cons_append]

theorem times_keeps {P : Rig σ → Prop} (keeps : ∀ r, P r → P (pass r).1) (h : P r) (n : Nat) :
    P (times pass r n).1 := by
  induction n generalizing r with
  | zero => exact h
  | succ n ih => exact ih (keeps r h)

end Times

variable [Board σ] {r : Rig σ}

/-! ## Histories -/

def after (r : Rig σ) (c : Call) : Rig σ := (r.perform c).1

def answer (r : Rig σ) (c : Call) : Except Refusal Answer := (r.perform c).2

def afterAll (r : Rig σ) (cs : List Call) : Rig σ := cs.foldl after r

def answers (r : Rig σ) : List Call → List (Except Refusal Answer)
  | [] => []
  | c :: cs => r.answer c :: (r.after c).answers cs

@[simp] theorem afterAll_cons (r : Rig σ) (c : Call) (cs : List Call) :
    r.afterAll (c :: cs) = (r.after c).afterAll cs := rfl

/-- The rigs that some history leads to from a clock just made, on whatever board. -/
def Reachable (r : Rig σ) : Prop :=
  ∃ (cpuHz timerHz : Int) (clock : Clock) (board : σ) (cs : List Call),
    create cpuHz timerHz = .ok clock ∧ (Rig.mk clock board).afterAll cs = r

/-- The answer to a call that let time pass. -/
def counted (steps : Nat) : Except Refusal Answer := .ok (.number steps)

/-- Frames in a row, one call each. -/
theorem replicate_tickFrame (r : Rig σ) (n : Nat) :
    r.afterAll (List.replicate n .tickFrame) = (times frame r n).1 ∧
      r.answers (List.replicate n .tickFrame) = (times frame r n).2.map counted := by
  induction n generalizing r with
  | zero => exact ⟨rfl, rfl⟩
  | succ n ih =>
    obtain ⟨state, answers⟩ := ih r.frame.1
    exact ⟨state, congrArg (counted r.frame.2 :: ·) answers⟩

/-! ## Frames and the rest of time -/

/-- The rig with another rest of time. -/
def setTime (r : Rig σ) (time : Nat) : Rig σ :=
  { r with clock := { r.clock with timeBudget := time } }

/-- The rig after whole frames that leave a rest of time, and the steps that executed an
instruction. -/
def cover (r : Rig σ) (frames rest : Nat) : Rig σ × Nat :=
  ((times frame r frames).1.setTime rest, (times frame r frames).2.sum)

theorem frame_setTime (r : Rig σ) (time : Nat) :
    (r.setTime time).frame = (r.frame.1.setTime time, r.frame.2) := rfl

theorem times_frame_setTime (r : Rig σ) (time n : Nat) :
    times frame (r.setTime time) n = ((times frame r n).1.setTime time, (times frame r n).2) := by
  induction n generalizing r with
  | zero => rfl
  | succ n ih => simp only [times, frame_setTime, ih]

theorem times_frame_timerHz (r : Rig σ) (n : Nat) :
    (times frame r n).1.clock.timerHz = r.clock.timerHz :=
  times_keeps (P := fun q => q.clock.timerHz = r.clock.timerHz) (fun _ h => h) rfl n

/-- The frames do not see the rest of time, so two stretches of frames are one. -/
theorem cover_add (r : Rig σ) (m s n t : Nat) :
    r.cover (m + n) t =
      (((r.cover m s).1.cover n t).1, (r.cover m s).2 + ((r.cover m s).1.cover n t).2) := by
  simp only [cover, times_frame_setTime, times_add, List.sum_append]
  rfl

theorem framesFrom_eq_times (r : Rig σ) (steps n : Nat) :
    framesFrom ⟨r.clock, r.board, steps⟩ n =
      ⟨(times frame r n).1.clock, (times frame r n).1.board,
        steps + (times frame r n).2.sum⟩ := by
  induction n generalizing r steps with
  | zero => rfl
  | succ n ih =>
    have next := ih r.frame.1 (steps + r.frame.2)
    simp only [framesFrom, times, List.sum_cons]
    rw [← Nat.add_assoc]
    exact next

/-! ## Intervals -/

/-- The rig after an interval, and the steps that executed an instruction. -/
def elapse (r : Rig σ) (micros : Nat) : Rig σ × Nat := ofProgress (r.clock.advance r.board micros)

theorem elapse_eq_cover (r : Rig σ) (micros : Nat) :
    r.elapse micros =
      r.cover ((r.clock.timeBudget + micros * r.clock.timerHz) / 1000000)
        ((r.clock.timeBudget + micros * r.clock.timerHz) % 1000000) := by
  have frames := framesFrom_eq_times
    (r.setTime ((r.clock.timeBudget + micros * r.clock.timerHz) % 1000000)) 0
    ((r.clock.timeBudget + micros * r.clock.timerHz) / 1000000)
  rw [times_frame_setTime, Nat.zero_add] at frames
  exact congrArg ofProgress frames

theorem elapse_zero (bounded : r.clock.timeBudget < 1000000) : r.elapse 0 = (r, 0) := by
  rw [elapse_eq_cover, Nat.zero_mul, Nat.add_zero, Nat.div_eq_of_lt bounded,
    Nat.mod_eq_of_lt bounded]
  rfl

/-- Two intervals one after the other do what an interval of their sum does. -/
theorem elapse_add (r : Rig σ) (u v : Nat) :
    r.elapse (u + v) =
      (((r.elapse u).1.elapse v).1, (r.elapse u).2 + ((r.elapse u).1.elapse v).2) := by
  have timer : (r.elapse u).1.clock.timerHz = r.clock.timerHz := by
    rw [elapse_eq_cover]
    exact times_frame_timerHz r _
  have time : (r.elapse u).1.clock.timeBudget =
      (r.clock.timeBudget + u * r.clock.timerHz) % 1000000 := by
    rw [elapse_eq_cover]
    rfl
  -- what is left of the first interval counts in the second
  have total : r.clock.timeBudget + (u + v) * r.clock.timerHz =
      ((r.clock.timeBudget + u * r.clock.timerHz) % 1000000 + v * r.clock.timerHz) +
        (r.clock.timeBudget + u * r.clock.timerHz) / 1000000 * 1000000 := by
    rw [Nat.add_mul]
    omega
  rw [elapse_eq_cover (r.elapse u).1 v, timer, time, elapse_eq_cover r u, ← cover_add,
    elapse_eq_cover r (u + v), total, Nat.add_mul_div_right _ _ (by decide),
    Nat.add_mul_mod_self_right, Nat.add_comm (_ / 1000000)]

theorem elapse_time_lt (r : Rig σ) (micros : Nat) :
    (r.elapse micros).1.clock.timeBudget < 1000000 := by
  rw [elapse_eq_cover]
  exact Nat.mod_lt _ (by decide)

theorem ticks_times_frame (r : Rig σ) (n : Nat) :
    (times frame r n).1.clock.totalTicks = r.clock.totalTicks + n := by
  induction n generalizing r with
  | zero => rfl
  | succ n ih =>
    rw [times, ih, Nat.add_comm n 1, ← Nat.add_assoc]
    rfl

/-- What an interval adds to the ticks and to the rest of time. -/
theorem ticks_elapse (r : Rig σ) (micros : Nat) :
    1000000 * (r.elapse micros).1.clock.totalTicks + (r.elapse micros).1.clock.timeBudget =
      1000000 * r.clock.totalTicks + r.clock.timeBudget + micros * r.clock.timerHz := by
  rw [elapse_eq_cover]
  have ticks := ticks_times_frame r ((r.clock.timeBudget + micros * r.clock.timerHz) / 1000000)
  simp only [cover, setTime, ticks]
  omega

/-- Intervals one after another, and the steps of each. -/
def elapses (r : Rig σ) : List Nat → Rig σ × List Nat
  | [] => (r, [])
  | u :: us => (((r.elapse u).1.elapses us).1, (r.elapse u).2 :: ((r.elapse u).1.elapses us).2)

/-- Intervals one after another do what one interval of their sum does. -/
theorem elapses_eq (bounded : r.clock.timeBudget < 1000000) (us : List Nat) :
    (r.elapses us).1 = (r.elapse us.sum).1 ∧ (r.elapses us).2.sum = (r.elapse us.sum).2 := by
  induction us generalizing r with
  | nil =>
    rw [List.sum_nil, elapse_zero bounded]
    exact ⟨rfl, rfl⟩
  | cons u us ih =>
    obtain ⟨state, steps⟩ := ih (elapse_time_lt r u)
    rw [List.sum_cons, elapse_add]
    exact ⟨state, congrArg ((r.elapse u).2 + ·) steps⟩

theorem perform_advance {seconds : Binary64} {micros : Nat}
    (interval : Interval.ofSeconds seconds = .ok micros) :
    r.perform (.advance seconds) = ((r.elapse micros).1, counted (r.elapse micros).2) := by
  simp only [perform, interval]
  rfl

theorem perform_advance_refused {seconds : Binary64} {e : Refusal}
    (interval : Interval.ofSeconds seconds = .error e) :
    r.perform (.advance seconds) = (r, .error e) := by
  simp only [perform, interval]

theorem perform_advances {seconds : Binary64} {micros : Nat}
    (interval : Interval.ofSeconds seconds = .ok micros) (n : Nat) :
    r.perform (.advances seconds n) =
      ((times (elapse · micros) r n).1, .ok (.numbers (times (elapse · micros) r n).2)) := by
  cases n with
  | zero => rfl
  | succ n =>
    simp only [perform, interval]
    rfl

theorem perform_advances_refused {seconds : Binary64} {e : Refusal}
    (interval : Interval.ofSeconds seconds = .error e) (n : Nat) :
    (r.perform (.advances seconds n)).1 = r := by
  cases n with
  | zero => rfl
  | succ n => simp only [perform, interval]

theorem map_advance {intervals : List Binary64} {us : List Nat}
    (micros : intervals.map Interval.ofSeconds = us.map .ok) :
    r.afterAll (intervals.map .advance) = (r.elapses us).1 ∧
      r.answers (intervals.map .advance) = (r.elapses us).2.map counted := by
  induction intervals generalizing r us with
  | nil =>
    obtain rfl : us = [] := List.map_eq_nil_iff.mp micros.symm
    exact ⟨rfl, rfl⟩
  | cons seconds rest ih =>
    cases us with
    | nil => cases micros
    | cons u us =>
      obtain ⟨first, others⟩ := List.cons_eq_cons.mp micros
      have call := perform_advance (r := r) first
      obtain ⟨state, answers⟩ := ih (r := (r.elapse u).1) others
      constructor
      · rw [List.map_cons, afterAll_cons, after, call]
        exact state
      · simp only [List.map_cons, Rig.answers, answer, after, call, elapses, answers]

/-! ## Between the calls -/

variable {cpuHz timerHz : Nat}

theorem frame_inBounds (h : r.clock.InBounds cpuHz timerHz) :
    r.frame.1.clock.InBounds cpuHz timerHz := by
  obtain ⟨cpu, timer, steps, time⟩ := h
  refine ⟨cpu, timer, ?_, time⟩
  rw [frame, tickFrame_eq_spend, ← timer]
  exact (paid_spend _ _ _).left_lt r.clock.timerHz_pos

theorem cover_inBounds (h : r.clock.InBounds cpuHz timerHz) (frames : Nat) {rest : Nat}
    (bounded : rest < 1000000) : (r.cover frames rest).1.clock.InBounds cpuHz timerHz := by
  obtain ⟨cpu, timer, steps, -⟩ : (times frame r frames).1.clock.InBounds cpuHz timerHz :=
    times_keeps (P := fun q => q.clock.InBounds cpuHz timerHz) (fun _ => frame_inBounds) h frames
  exact ⟨cpu, timer, steps, bounded⟩

theorem elapse_inBounds (h : r.clock.InBounds cpuHz timerHz) (micros : Nat) :
    (r.elapse micros).1.clock.InBounds cpuHz timerHz := by
  rw [elapse_eq_cover]
  exact cover_inBounds h _ (Nat.mod_lt _ (by decide))

theorem after_inBounds (h : r.clock.InBounds cpuHz timerHz) (c : Call) :
    (r.after c).clock.InBounds cpuHz timerHz := by
  have many (n : Nat) {pass : Rig σ → Rig σ × Nat}
      (keeps : ∀ q : Rig σ, q.clock.InBounds cpuHz timerHz →
        (pass q).1.clock.InBounds cpuHz timerHz) :
      (times pass r n).1.clock.InBounds cpuHz timerHz :=
    times_keeps (P := fun q => q.clock.InBounds cpuHz timerHz) keeps h n
  cases c with
  | machine call => exact h
  | tickFrame => exact frame_inBounds h
  | tickFrames n => exact many n fun _ => frame_inBounds
  | advance seconds =>
    cases interval : Interval.ofSeconds seconds with
    | ok micros =>
      rw [after, perform_advance interval]
      exact elapse_inBounds h micros
    | error e =>
      rw [after, perform_advance_refused interval]
      exact h
  | advances seconds n =>
    cases interval : Interval.ofSeconds seconds with
    | ok micros =>
      rw [after, perform_advances interval]
      exact many n fun q hq => elapse_inBounds hq micros
    | error e =>
      rw [after, perform_advances_refused interval]
      exact h
  | resetTotals => exact ⟨h.cpu, h.timer, h.timer ▸ r.clock.timerHz_pos, Nat.zero_lt_succ _⟩
  | cpuHz => exact h
  | stepsPerTick => exact h

theorem afterAll_inBounds (h : r.clock.InBounds cpuHz timerHz) (cs : List Call) :
    (r.afterAll cs).clock.InBounds cpuHz timerHz := by
  induction cs generalizing r with
  | nil => exact h
  | cons c cs ih => exact ih (after_inBounds h c)

theorem create_inBounds {cpuHz timerHz : Int} {clock : Clock}
    (made : create cpuHz timerHz = .ok clock) : clock.InBounds cpuHz.toNat timerHz.toNat := by
  unfold create at made
  split at made
  · rename_i positive
    cases made
    exact ⟨rfl, rfl, by simp only; omega, Nat.zero_lt_succ _⟩
  · cases made

theorem Reachable.time_lt (reach : r.Reachable) : r.clock.timeBudget < 1000000 := by
  obtain ⟨cpuHz, timerHz, clock, board, cs, made, rfl⟩ := reach
  exact (afterAll_inBounds (create_inBounds made) cs).time

/-! ## Real time, however it is cut up -/

theorem after_advance_of_error {seconds : Binary64} {e : Refusal}
    (refused : r.answer (.advance seconds) = .error e) : r.after (.advance seconds) = r := by
  cases interval : Interval.ofSeconds seconds with
  | ok micros =>
    rw [answer, perform_advance interval] at refused
    cases refused
  | error e => rw [after, perform_advance_refused interval]

/-- **Only the total of real time counts.** Intervals one after another lead to the state that as many
frames lead to as their sum is worth, and count the same steps; what the sum leaves over is the rest of
time. An interval of no microseconds changes nothing, and neither does one that is refused. -/
theorem advance_depends_on_total (reach : r.Reachable) :
    (∀ (intervals : List Binary64) (us : List Nat),
      intervals.map Interval.ofSeconds = us.map .ok →
      let time := r.clock.timeBudget + r.clock.timerHz * us.sum
      let frames : List Call := List.replicate (time / 1000000) .tickFrame
      r.afterAll (intervals.map .advance) = (r.afterAll frames).setTime (time % 1000000) ∧
        ∃ counts frameCounts : List Nat,
          r.answers (intervals.map .advance) = counts.map counted ∧
            r.answers frames = frameCounts.map counted ∧ counts.sum = frameCounts.sum) ∧
    (∀ (intervals others : List Binary64) (us vs : List Nat),
      intervals.map Interval.ofSeconds = us.map .ok → others.map Interval.ofSeconds = vs.map .ok →
      us.sum = vs.sum → r.afterAll (intervals.map .advance) = r.afterAll (others.map .advance)) ∧
    (∀ seconds, Interval.ofSeconds seconds = .ok 0 →
      r.perform (.advance seconds) = (r, counted 0)) ∧
    (∀ seconds e, r.answer (.advance seconds) = .error e → r.after (.advance seconds) = r) ∧
    (∀ seconds, seconds.value = .infinite false →
      r.perform (.advance seconds) = (r, .error .intervalInfinite)) := by
  have bounded := reach.time_lt
  refine ⟨fun intervals us micros => ?_, fun intervals others us vs micros others same => ?_,
    fun seconds none => ?_, fun seconds e refused => ?_, fun seconds infinite => ?_⟩
  · intro time frames
    obtain ⟨state, answers⟩ := map_advance (r := r) micros
    obtain ⟨sumState, sumSteps⟩ := elapses_eq bounded us
    obtain ⟨frameState, frameAnswers⟩ := replicate_tickFrame r (time / 1000000)
    have total : r.elapse us.sum = r.cover (time / 1000000) (time % 1000000) := by
      rw [elapse_eq_cover, Nat.mul_comm us.sum]
    rw [total] at sumState sumSteps
    refine ⟨?_, _, _, answers, frameAnswers, sumSteps⟩
    rw [state, sumState, frameState]
    rfl
  · rw [(map_advance micros).1, (map_advance others).1, (elapses_eq bounded us).1,
      (elapses_eq bounded vs).1, same]
  · rw [perform_advance none, elapse_zero bounded]
  · exact after_advance_of_error refused
  · have refused : Interval.ofSeconds seconds = .error .intervalInfinite := by
      simp only [Interval.ofSeconds, infinite]
    rw [perform_advance_refused refused]

/-- Thirty-five milliseconds at sixty frames a second, in two intervals and in one, after ten that were
not enough for a frame. The program begins a wait for a key in the first frame. -/
theorem advance_in_two_splittings :
    let clock : Clock := { cpuHz := 500, timerHz := 60, timerHz_pos := by decide }
    let r := (Rig.mk clock (Machine.fresh (Generator.ofSeed 0))).afterAll
      [.machine (.load [0x60, 0x05, 0xF0, 0x0A]), .advance ⟨0x3F847AE147AE147B⟩]
    let pieces : List Binary64 := [⟨0x3F847AE147AE147B⟩, ⟨0x3F9999999999999A⟩]
    let whole : List Binary64 := [⟨0x3FA1EB851EB851EC⟩, ⟨0⟩]
    create 500 60 = .ok clock ∧ r.clock.timeBudget = 600000 ∧
      pieces.map Interval.ofSeconds = [10000, 25000].map .ok ∧
      whole.map Interval.ofSeconds = [35000, 0].map .ok ∧
      r.afterAll (pieces.map .advance) = (r.afterAll (List.replicate 2 .tickFrame)).setTime 700000 ∧
      (r.afterAll (pieces.map .advance)).board.isWaiting = true ∧
      r.afterAll (pieces.map .advance) = r.afterAll (whole.map .advance) ∧
      r.perform (.advance ⟨0⟩) = (r, counted 0) ∧
      r.perform (.advance ⟨0x7FF0000000000000⟩) = (r, .error .intervalInfinite) := by
  intro clock r pieces whole
  have made : create 500 60 = .ok clock := rfl
  have reach : r.Reachable := ⟨500, 60, clock, _, _, made, rfl⟩
  have rest : r.clock.timeBudget = 600000 := by decide +kernel
  have total : r.clock.timeBudget + r.clock.timerHz * [10000, 25000].sum = 2700000 := by
    decide +kernel
  have waits : (r.afterAll (pieces.map .advance)).board.isWaiting = true := by decide +kernel
  have micros : pieces.map Interval.ofSeconds = [10000, 25000].map .ok := by decide +kernel
  have same : whole.map Interval.ofSeconds = [35000, 0].map .ok := by decide +kernel
  have none : Interval.ofSeconds ⟨0⟩ = .ok 0 := by decide +kernel
  have infinite : (Binary64.mk 0x7FF0000000000000).value = .infinite false := by decide +kernel
  clear_value r
  obtain ⟨frames, splitting, nothing, -, endless⟩ := advance_depends_on_total reach
  have state := (frames pieces [10000, 25000] micros).1
  rw [total] at state
  exact ⟨made, rest, micros, same, state, waits,
    splitting pieces whole [10000, 25000] [35000, 0] micros same rfl, nothing _ none,
    endless _ infinite⟩

end Rig

end ChipEight.Clock
