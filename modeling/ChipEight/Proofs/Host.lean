import ChipEight.Emulator.Run
import ChipEight.Proofs.Driving
import ChipEight.Proofs.KeyWait

/-! # What the host does to its machine

The host reaches its machine by calls only: a program that is started again is loaded, a key of the
keyboard is pressed or released, and time that passes becomes steps and ticks. `Driven` sums up what
any inputs and any time do to an emulator, from one report of its state to the next. -/
namespace ChipEight

theorem Board.load_loaded {σ : Type} [Board σ] (b : σ) {data : List Byte}
    (fits : data.length ≤ 3584) :
    Board.load b data =
      .ok (Board.update b ((Board.machine b).loaded data) (Machine.loadEvents data.length)) := by
  rw [Board.load_eq, Machine.load_of_fits fits]
  rfl

/-- Whether an input ends a run. -/
def Keyboard.Input.stops : Keyboard.Input → Bool
  | quit => true
  | keyDown code => code == escape
  | _ => false

namespace Emulator

variable {e e' : Emulator}

/-- The clock and the board that it drives. -/
def rig (e : Emulator) : Clock.Rig Monitor := ⟨e.clock, e.monitor⟩

/-! ## Programs -/

/-- Only the program file, the machine and what has been counted and reported of it are new. -/
structure Started (e e' : Emulator) (m : Machine) : Prop where
  machine : e'.machine = m
  clock : e'.clock = e.clock.resetTotals
  toneOn : e'.toneOn = false
  faultReported : e'.faultReported = false
  window : e'.window = e.window
  listens : e'.listens = e.listens

theorem insert_eq (e : Emulator) (rom : Rom) :
    ∃ e', e.insert rom = .ok e' ∧ e'.rom = some rom ∧ Started e e' (e.machine.loaded rom.data) := by
  rw [insert, Board.load_loaded _ rom.fits.2]
  exact ⟨_, rfl, rfl, rfl, rfl, rfl, rfl, rfl, rfl⟩

theorem loadRom_eq_ok {path : String} {found : Entry} (loaded : e.loadRom path found = .ok e') :
    ∃ rom, Rom.ofEntry path found = .ok rom ∧ e'.rom = some rom ∧
      Started e e' (e.machine.loaded rom.data) := by
  unfold loadRom at loaded
  cases read : Rom.ofEntry path found with
  | error refusal =>
    rw [read] at loaded
    cases loaded
  | ok rom =>
    rw [read] at loaded
    obtain ⟨e'', inserted, present, started⟩ := e.insert_eq rom
    obtain rfl : e'' = e' := Except.ok.inj (inserted.symm.trans loaded)
    exact ⟨rom, rfl, present, started⟩

/-- The call of the machine that starts the present program again. -/
def restartCall (e : Emulator) : Machine.Call :=
  match e.rom with
  | none => .reset
  | some rom => .load rom.data

theorem restart_rom (e : Emulator) : e.restart.rom = e.rom := rfl

/-- A program that is started again finds a machine just reset or loaded. -/
theorem after_restartCall (e : Emulator) : e.machine.after e.restartCall = e.machine.reset ∨
    ∃ data, e.machine.after e.restartCall = e.machine.loaded data := by
  unfold restartCall
  cases e.rom with
  | none => exact .inl e.machine.after_reset
  | some rom =>
    refine .inr ⟨rom.data, ?_⟩
    rw [Machine.after, Machine.perform_load_of_fits rom.fits.2]

theorem started_restart (e : Emulator) : Started e e.restart (e.machine.after e.restartCall) := by
  refine ⟨?_, rfl, rfl, rfl, rfl, rfl⟩
  unfold restart restartCall
  cases e.rom with
  | none =>
    simp only [Board.reset_eq]
    exact e.machine.after_reset.symm
  | some rom =>
    simp only [Board.load_loaded _ rom.fits.2]
    rw [Machine.after, Machine.perform_load_of_fits rom.fits.2]
    rfl

/-! ## Inputs -/

/-- The input that starts the program again. -/
def restartKey : Keyboard.Input := .keyDown Keyboard.restart

/-- What taking notice of an input can come to. -/
inductive Heard (e : Emulator) (input : Keyboard.Input) : Emulator × Bool → Prop
  | stops (stop : input.stops = true) : Heard e input (e, false)
  /-- The input means nothing to the emulator. -/
  | passes (other : e.listens = true → input ≠ restartKey) : Heard e input (e, true)
  | restarts (same : input = restartKey) : Heard e input (e.restart, true)
  /-- A key of the machine goes down or comes up. -/
  | keys {monitor : Monitor} {k : Nibble} (other : input ≠ restartKey)
      (machine : monitor.machine = e.machine.press k ∨ monitor.machine = e.machine.release k) :
      Heard e input ({ e with monitor }, true)

theorem heard_key {input : Keyboard.Input} (other : input ≠ restartKey) (code : Int) (down : Bool)
    (act : Monitor → Nibble → Monitor)
    (keys : ∀ (b : Monitor) (k : Nibble),
      (act b k).machine = b.machine.press k ∨ (act b k).machine = b.machine.release k) :
    Heard e input (match Keyboard.key? code with
      | none => (e, true)
      | some k =>
        let e := e.note (.hostKey down code k)
        ({ e with monitor := act e.monitor k }, true)) := by
  cases Keyboard.key? code with
  | none => exact .passes fun _ => other
  | some k => exact .keys other (keys _ k)

theorem heard_handle (e : Emulator) (input : Keyboard.Input) : Heard e input (e.handle input) := by
  unfold handle
  by_cases listens : e.listens = true
  · rw [if_pos listens]
    cases input with
    | quit => exact .stops rfl
    | other => exact .passes fun _ => nofun
    | keyUp code =>
      have other : Keyboard.Input.keyUp code ≠ restartKey := nofun
      exact heard_key other code false Board.release fun b k => .inr rfl
    | keyDown code =>
      by_cases escape : code = Keyboard.escape
      · simp only [if_pos escape]
        exact .stops (beq_iff_eq.mpr escape)
      · by_cases restart : code = Keyboard.restart
        · subst restart
          exact .restarts rfl
        · have other : Keyboard.Input.keyDown code ≠ restartKey := fun same =>
            restart (Keyboard.Input.keyDown.inj same)
          simp only [if_neg escape, if_neg restart]
          exact heard_key other code true Board.press fun b k =>
            .inl (congrArg Monitor.machine (Board.press_eq b k))
  · rw [if_neg listens]
    exact .passes fun h => absurd h listens

/-! ## From one report to the next -/

/-- What inputs and time do to an emulator. Its machine is called, though never for its picture, and
what has been reported of it is forgotten when the program is started again. -/
structure Driven (restarted : Bool) (e e' : Emulator) : Prop where
  rom : e'.rom = e.rom
  listens : e'.listens = e.listens
  window : e'.window = e.window
  toneOn : e'.toneOn = (!restarted && e.toneOn)
  faultReported : e'.faultReported = (!restarted && e.faultReported)
  machine : ∃ cs, e'.machine = e.machine.afterAll cs ∧ .look ∉ cs ∧
    (restarted = false → ∀ c ∈ cs, c.kind = .drive)

theorem Driven.refl (e : Emulator) : Driven false e e :=
  ⟨rfl, rfl, rfl, rfl, rfl, [], rfl, nofun, fun _ => nofun⟩

theorem Driven.trans {e'' : Emulator} {a b : Bool} (h : Driven a e e') (h' : Driven b e' e'') :
    Driven (a || b) e e'' := by
  obtain ⟨cs, reached, unseen, drives⟩ := h.machine
  obtain ⟨ds, reached', unseen', drives'⟩ := h'.machine
  refine ⟨h'.rom.trans h.rom, h'.listens.trans h.listens, h'.window.trans h.window, ?_, ?_,
    cs ++ ds, ?_, ?_, fun none c mem => ?_⟩
  · rw [h'.toneOn, h.toneOn, Bool.not_or, Bool.and_assoc, Bool.and_left_comm]
  · rw [h'.faultReported, h.faultReported, Bool.not_or, Bool.and_assoc, Bool.and_left_comm]
  · rw [reached', reached, Machine.afterAll_append]
  · exact fun mem => (List.mem_append.mp mem).elim unseen unseen'
  · obtain ⟨none, none'⟩ := Bool.or_eq_false_iff.mp none
    exact (List.mem_append.mp mem).elim (drives none c) (drives' none' c)

theorem Driven.call {c : Machine.Call} {monitor : Monitor} (drives : c.kind = .drive)
    (unseen : c ≠ .look) (reached : monitor.machine = e.machine.after c) :
    Driven false e { e with monitor } := by
  refine ⟨rfl, rfl, rfl, rfl, rfl, [c], reached, fun look => ?_, fun _ d mem => ?_⟩
  · exact unseen (List.mem_singleton.mp look).symm
  · rw [List.mem_singleton.mp mem]
    exact drives

theorem driven_restart (e : Emulator) : Driven true e e.restart := by
  obtain ⟨machine, -, toneOn, faultReported, window, listens⟩ := started_restart e
  refine ⟨e.restart_rom, listens, window, toneOn, faultReported, [e.restartCall], machine, ?_, nofun⟩
  intro look
  have call := List.mem_singleton.mp look
  unfold restartCall at call
  cases present : e.rom with
  | none =>
    rw [present] at call
    cases call
  | some rom =>
    rw [present] at call
    cases call

theorem driven_handle {input : Keyboard.Input} (listens : e.listens = true)
    (goesOn : e.handle input = (e', true)) : Driven (restartKey == input) e e' := by
  have heard := heard_handle e input
  rw [goesOn] at heard
  cases heard with
  | passes other =>
    rw [beq_eq_false_iff_ne.mpr (other listens).symm]
    exact .refl _
  | restarts same =>
    rw [beq_iff_eq.mpr same.symm]
    exact driven_restart _
  | keys other machine =>
    rename_i monitor k
    rw [beq_eq_false_iff_ne.mpr other.symm]
    rcases machine with down | up
    · exact .call (c := .press k.toNat) rfl nofun (down.trans (Machine.after_press_move _ k).symm)
    · exact .call (c := .release k.toNat) rfl nofun (up.trans (Machine.after_release_move _ k).symm)

theorem driven_handleAll {inputs : List Keyboard.Input} (listens : e.listens = true)
    (goesOn : e.handleAll inputs = (e', true)) : Driven (inputs.contains restartKey) e e' := by
  induction inputs generalizing e with
  | nil =>
    cases goesOn
    exact .refl _
  | cons input inputs ih =>
    rw [handleAll] at goesOn
    rcases first : e.handle input with ⟨next, _ | _⟩
    · rw [first] at goesOn
      cases goesOn
    · rw [first] at goesOn
      have driven := driven_handle listens first
      rw [List.contains_cons]
      exact driven.trans (ih (driven.listens.trans listens) goesOn)

theorem passMillis_eq {millis : Int} {micros : Nat} (interval : Interval.ofMillis millis = .ok micros) :
    e.passMillis millis = .ok (e.afterProgress (e.clock.advance e.monitor micros)) := by
  simp only [passMillis, interval]

theorem passMillis_eq_ok {millis : Int} (passes : e.passMillis millis = .ok e') :
    ∃ micros, Interval.ofMillis millis = .ok micros ∧
      e' = e.afterProgress (e.clock.advance e.monitor micros) := by
  unfold passMillis at passes
  cases interval : Interval.ofMillis millis with
  | error refusal =>
    rw [interval] at passes
    cases passes
  | ok micros =>
    rw [interval] at passes
    cases passes
    exact ⟨micros, rfl, rfl⟩

theorem passMillis_eq_error {millis : Int} {refusal : Refusal}
    (refused : e.passMillis millis = .error refusal) :
    Interval.ofMillis millis = .error refusal := by
  unfold passMillis at refused
  cases interval : Interval.ofMillis millis with
  | error other =>
    rw [interval] at refused
    cases refused
    rfl
  | ok micros =>
    rw [interval] at refused
    cases refused

theorem passMillis_zero (bounded : e.clock.timeBudget < 1000000) : e.passMillis 0 = .ok e := by
  have interval : Interval.ofMillis 0 = .ok 0 := by decide +kernel
  have idle : (e.rig.elapse 0).1 = e.rig := congrArg Prod.fst (Clock.Rig.elapse_zero bounded)
  have clock : (e.clock.advance e.monitor 0).clock = e.clock := congrArg Clock.Rig.clock idle
  have board : (e.clock.advance e.monitor 0).board = e.monitor := congrArg Clock.Rig.board idle
  rw [passMillis_eq interval, afterProgress, clock, board]

theorem driven_passMillis {millis : Int} (passes : e.passMillis millis = .ok e') :
    Driven false e e' := by
  obtain ⟨micros, -, rfl⟩ := passMillis_eq_ok passes
  refine ⟨rfl, rfl, rfl, rfl, rfl, _, e.rig.machine_elapse micros, fun look => ?_, fun _ c mem => ?_⟩
  · rcases Clock.Rig.mem_aheadCalls look with h | h
    · cases h
    · cases h
  · rcases Clock.Rig.mem_aheadCalls mem with rfl | rfl
    · rfl
    · rfl

end Emulator

end ChipEight
