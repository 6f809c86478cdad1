import Mathlib.Data.List.Induction
import ChipEight.Proofs.Footprint
import ChipEight.Proofs.LastWord

/-! # What the timers show along a history

A timer shows what was written to it last, less the ticks since then, and never less than nothing
(`remaining`); the writes of the other timer do not matter to it. The history of a machine is read as calls
of its timers (`Machine.timerCalls`): a step is a write if it executes one of the two instructions that
are for it and nothing at all otherwise, so the law is the same there in every mode. -/
namespace ChipEight

namespace Timers

variable {written : Call → Option Int} {c : Call}

/-- The timers after a call. -/
def after (t : Timers) (c : Call) : Timers := (t.perform c).1

/-- What a call answers. -/
def answer (t : Timers) (c : Call) : Answer := (t.perform c).2

/-- The timers after a history of calls. -/
def afterAll (t : Timers) (cs : List Call) : Timers := cs.foldl after t

theorem afterAll_append (t : Timers) (cs ds : List Call) :
    t.afterAll (cs ++ ds) = (t.afterAll cs).afterAll ds := List.foldl_append

/-! ## One timer -/

/-- What a call writes to the delay timer. -/
def Call.delay : Call → Option Int
  | .setDelay value => some value
  | .reset => some 0
  | _ => none

/-- What a call writes to the sound timer. -/
def Call.sound : Call → Option Int
  | .setSound value => some value
  | .reset => some 0
  | _ => none

/-- What a call makes of a timer that it writes to or lets count down. -/
def Call.moves (written : Call → Option Int) (c : Call) (b : Byte) : Byte :=
  match written c with
  | some value => BitVec.ofInt 8 value
  | none => if c = .tick then countDown b else b

theorem delay_after (t : Timers) (c : Call) : (t.after c).delay = c.moves Call.delay t.delay := by
  cases c <;> rfl

theorem sound_after (t : Timers) (c : Call) : (t.after c).sound = c.moves Call.sound t.sound := by
  cases c <;> rfl

/-- What is left of the value that was written last: it is reduced to a byte, and every tick since then
has taken one off. -/
def remaining (written : Call → Option Int) (cs : List Call) : Int :=
  max 0 ((lastWord written cs).getD 0 % 256 - (sinceLast written cs).count .tick)

theorem toNat_countDown (b : Byte) : ((countDown b).toNat : Int) = max 0 ((b.toNat : Int) - 1) := by
  by_cases zero : b = 0
  · rw [countDown, if_pos zero, zero]
    rfl
  · have positive : b.toNat ≠ 0 := fun none => zero (BitVec.eq_of_toNat_eq none)
    rw [countDown, if_neg zero]
    bv_omega

theorem remaining_concat_of_some {value : Int} (wrote : written c = some value) (cs : List Call) :
    remaining written (cs ++ [c]) = value % 256 := by
  rw [remaining, sinceLast_concat_of_some wrote, lastWord_append, lastWord_singleton, wrote]
  simp only [Option.some_or, Option.getD_some, List.count_nil]
  omega

theorem remaining_concat_of_none (silent : written c = none) (cs : List Call) :
    remaining written (cs ++ [c]) =
      if c = .tick then max 0 (remaining written cs - 1) else remaining written cs := by
  rw [remaining, sinceLast_concat_of_none silent, lastWord_append, lastWord_singleton, silent,
    List.count_append, List.count_singleton, remaining]
  by_cases tick : c = .tick
  · simp only [tick, Option.none_or, BEq.rfl, if_true]
    omega
  · simp [tick]

/-- A timer that moves with its own writes and the ticks shows what is left of the last write. -/
theorem toNat_eq_remaining (view : Timers → Byte)
    (moves : ∀ (t : Timers) (c : Call), view (t.after c) = c.moves written (view t)) (rest : view fresh = 0)
    (cs : List Call) : ((view (fresh.afterAll cs)).toNat : Int) = remaining written cs := by
  induction cs using List.reverseRecOn with
  | nil => simp [afterAll, rest, remaining, lastWord, sinceLast]
  | append_singleton cs c ih =>
    rw [afterAll_append, afterAll, List.foldl_cons, List.foldl_nil, moves, Call.moves]
    cases wrote : written c with
    | some value =>
      rw [remaining_concat_of_some wrote, BitVec.toNat_ofInt]
      omega
    | none =>
      rw [remaining_concat_of_none wrote, ← ih]
      dsimp only
      split
      · exact toNat_countDown _
      · rfl

/-- A timer does not notice a call that is no tick and writes nothing to it. -/
theorem afterAll_insert (view : Timers → Byte)
    (moves : ∀ (t : Timers) (c : Call), view (t.after c) = c.moves written (view t)) (t : Timers) (c : Call)
    (silent : written c = none) (other : c ≠ .tick) (before later : List Call) :
    view (t.afterAll (before ++ c :: later)) = view (t.afterAll (before ++ later)) := by
  have folds : ∀ (cs : List Call) (t : Timers),
      view (t.afterAll cs) = cs.foldl (fun b c => c.moves written b) (view t) := fun cs t => by
    induction cs generalizing t with
    | nil => rfl
    | cons c cs ih =>
      rw [List.foldl_cons, ← moves]
      exact ih (t.after c)
  have unmoved (b : Byte) : c.moves written b = b := by rw [Call.moves, silent]; exact if_neg other
  rw [folds, folds, List.foldl_append, List.foldl_cons, unmoved, List.foldl_append]

/-! ## Both timers and the tone -/

theorem settled_after {t : Timers} (h : t.Settled) (c : Call) : (t.after c).Settled := by
  cases c with
  | tick => exact settled_settle _
  | setSound value => exact settled_settle _
  | reset => exact settled_fresh
  | _ => exact h

theorem settled_afterAll {t : Timers} (h : t.Settled) (cs : List Call) : (t.afterAll cs).Settled := by
  induction cs generalizing t with
  | nil => exact h
  | cons c cs ih => exact ih (settled_after h c)

/-- Both timers show what is left of what the calls have written to them, and the tone sounds while
there is something left of the sound timer. -/
structure Follows (t : Timers) (cs : List Call) : Prop where
  delay : (t.delay.toNat : Int) = remaining Call.delay cs
  sound : (t.sound.toNat : Int) = remaining Call.sound cs
  tone : t.tone = true ↔ 0 < t.sound.toNat

theorem follows_afterAll (cs : List Call) : (fresh.afterAll cs).Follows cs where
  delay := toNat_eq_remaining _ delay_after rfl cs
  sound := toNat_eq_remaining _ sound_after rfl cs
  tone := settled_afterAll settled_fresh cs

theorem tone_tick (t : Timers) : t.tick.tone = decide (0 < t.tick.sound.toNat) := by
  rw [Bool.eq_iff_iff, decide_eq_true_iff]
  exact settled_settle _

end Timers

/-! ## The timers of a machine -/

theorem Byte.ofInt_toNat (b : Byte) : BitVec.ofInt 8 b.toNat = b := by
  rw [BitVec.ofInt_natCast, BitVec.ofNat_toNat, BitVec.setWidth_eq]

namespace Machine

variable {m : Machine}

/-- What a single call is to the timers. A step writes one of them if it executes `Fx15` or `Fx18`; a
program that fits starts them over. -/
def timerCall (m : Machine) : Call → List Timers.Call
  | .step =>
    if m.mode ≠ .running then []
    else if m.fetch.Misc 0x15 then [.setDelay (m.registers.get m.fetch.x).toNat]
    else if m.fetch.Misc 0x18 then [.setSound (m.registers.get m.fetch.x).toNat]
    else []
  | .tick => [.tick]
  | .reset => [.reset]
  | .load data => if data.length ≤ 3584 then [.reset] else []
  | .setDelay value => [.setDelay value]
  | .setSound value => [.setSound value]
  | _ => []

/-- What single calls are to the timers, one after the other. -/
def timerTrace (m : Machine) : List Call → List Timers.Call
  | [] => []
  | c :: cs => m.timerCall c ++ (m.after c).timerTrace cs

/-- What a history of calls is to the timers. -/
def timerCalls (m : Machine) (cs : List Call) : List Timers.Call := m.timerTrace (m.unroll cs)

theorem step_setDelay (mode : m.mode = .running) (misc : m.fetch.Misc 0x15) :
    m.step.1.timers = m.timers.setDelay (m.registers.get m.fetch.x) := by
  have fetched : Instruction.decode m.fetch = .setDelay m.fetch.x :=
    (Instruction.decode_eq_iff rfl).mpr ⟨misc.1, misc.2, rfl⟩
  rw [step_of_simple mode (by rw [fetched]; rfl), proceed, fetched]
  rfl

theorem step_setSound (mode : m.mode = .running) (misc : m.fetch.Misc 0x18) :
    m.step.1.timers = m.timers.setSound (m.registers.get m.fetch.x) := by
  have fetched : Instruction.decode m.fetch = .setSound m.fetch.x :=
    (Instruction.decode_eq_iff rfl).mpr ⟨misc.1, misc.2, rfl⟩
  rw [step_of_simple mode (by rw [fetched]; rfl), proceed, fetched]
  rfl

theorem step_timers (noDelay : ¬ (m.mode = .running ∧ m.fetch.Misc 0x15))
    (noSound : ¬ (m.mode = .running ∧ m.fetch.Misc 0x18)) : m.step.1.timers = m.timers := by
  have delay : m.step.1.timers.delay = m.timers.delay :=
    not_not.mp fun changed => noDelay ((touched_step m).delay changed)
  have sound : (m.step.1.timers.sound, m.step.1.timers.tone) = (m.timers.sound, m.timers.tone) :=
    not_not.mp fun changed => noSound ((touched_step m).sound changed)
  obtain ⟨sound, tone⟩ := Prod.mk.inj sound
  calc m.step.1.timers = ⟨m.step.1.timers.delay, m.step.1.timers.sound, m.step.1.timers.tone⟩ := rfl
    _ = m.timers := by rw [delay, sound, tone]

theorem timers_after_step (m : Machine) :
    (m.after .step).timers = m.timers.afterAll (m.timerCall .step) := by
  by_cases mode : m.mode = .running
  · rw [timerCall, if_neg (not_not.mpr mode)]
    by_cases delay : m.fetch.Misc 0x15
    · rw [if_pos delay, after_step, step_setDelay mode delay]
      exact congrArg m.timers.setDelay (Byte.ofInt_toNat _).symm
    · rw [if_neg delay]
      by_cases sound : m.fetch.Misc 0x18
      · rw [if_pos sound, after_step, step_setSound mode sound]
        exact congrArg m.timers.setSound (Byte.ofInt_toNat _).symm
      · rw [if_neg sound, after_step]
        exact step_timers (fun writes => delay writes.2) (fun writes => sound writes.2)
  · rw [timerCall, if_pos mode, after_step]
    exact step_timers (fun writes => mode writes.1) (fun writes => mode writes.1)

theorem timers_after {c : Call} (single : c.single = true) :
    (m.after c).timers = m.timers.afterAll (m.timerCall c) := by
  cases c with
  | step => exact timers_after_step m
  | load data =>
    by_cases fits : data.length ≤ 3584
    · rw [after, perform_load_of_fits fits, timerCall, if_pos fits]
      rfl
    · rw [after, perform_load_of_too_large (Nat.lt_of_not_le fits), timerCall, if_neg fits]
      rfl
  | press k =>
    rw [after, perform_press, Board.withKey]
    split <;> rfl
  | release k =>
    rw [after, Board.perform, Board.withKey]
    split <;> rfl
  | steps n => cases single
  | run n => cases single
  | ticks n => cases single
  | tick =>
    rw [after_tick]
    rfl
  | reset =>
    rw [after_reset]
    rfl
  | setSound value =>
    rw [after_setSound]
    rfl
  | _ => rfl

theorem timers_timerTrace {cs : List Call} (single : ∀ c ∈ cs, c.single = true) :
    (m.afterAll cs).timers = m.timers.afterAll (m.timerTrace cs) := by
  induction cs generalizing m with
  | nil => rfl
  | cons c cs ih =>
    rw [List.forall_mem_cons] at single
    rw [afterAll_cons, ih single.2, timers_after single.1, timerTrace, Timers.afterAll_append]

theorem timers_afterAll (m : Machine) (cs : List Call) :
    (m.afterAll cs).timers = m.timers.afterAll (m.timerCalls cs) := by
  have single : ∀ c ∈ m.unroll cs, c.single = true := fun c mem =>
    (kind_of_mem_unroll (K := fun _ => True) (fun _ _ => trivial) c mem).2
  rw [← afterAll_unroll, timers_timerTrace single, timerCalls]

end Machine

/-- The timers after any history of calls, of their own or of a machine: each shows what is left of what
was written to it last, whatever was written to the other, the tone sounds while the sound timer is not at
rest, and a tick answers whether it does. A tick of a machine that runs, waits or is halted is a tick of
its timers, and a step is a write of one of them or nothing. -/
theorem timers_follow_history (cs : List Timers.Call) (random : Generator) (ds : List Machine.Call) :
    (Timers.fresh.afterAll cs).Follows cs ∧
    (∀ t : Timers, t.answer .tick = .flag (decide (0 < (t.after .tick).sound.toNat))) ∧
    (∀ (before later : List Timers.Call) (value : Int),
      (Timers.fresh.afterAll (before ++ .setSound value :: later)).delay =
        (Timers.fresh.afterAll (before ++ later)).delay ∧
      (Timers.fresh.afterAll (before ++ .setDelay value :: later)).sound =
        (Timers.fresh.afterAll (before ++ later)).sound) ∧
    ((Machine.fresh random).afterAll ds).timers.Follows ((Machine.fresh random).timerCalls ds) ∧
    ∀ m : Machine, (m.after .step).timers = m.timers.afterAll (m.timerCall .step) ∧
      (m.after .tick).timers = m.timers.after .tick ∧
      m.answer .tick = .ok (.flag (decide (0 < (m.after .tick).timers.sound.toNat))) := by
  refine ⟨Timers.follows_afterAll cs, fun t => ?_, fun before later value => ⟨?_, ?_⟩, ?_,
    fun m => ⟨m.timers_after_step, congrArg Machine.timers (Machine.after_tick m), ?_⟩⟩
  · exact congrArg Answer.flag t.tone_tick
  · exact Timers.afterAll_insert _ Timers.delay_after _ (.setSound value) rfl nofun before later
  · exact Timers.afterAll_insert _ Timers.sound_after _ (.setDelay value) rfl nofun before later
  · rw [Machine.timers_afterAll]
    exact Timers.follows_afterAll _
  · rw [Machine.after_tick, Machine.answer_tick]
    exact congrArg (fun tone => Except.ok (Answer.flag tone)) m.timers.tone_tick

end ChipEight
