import ChipEight.Proofs.Reports
import ChipEight.Proofs.Restart
import ChipEight.Proofs.Rounds

/-! # Inputs of a run that ends

The inputs before one that ends a run are delivered, and those after it are not
(`handleAll_of_stops`). To deliver inputs takes no time and draws nothing: keys go down and come up,
and starting again makes up for all of them (`keyed_handleAll`). -/
namespace ChipEight.Emulator

open Keyboard (Input)

variable {e e' : Emulator}

theorem handle_of_stops {input : Input} (listens : e.listens = true) (stop : input.stops = true) :
    e.handle input = (e, false) := by
  unfold handle
  rw [if_pos listens]
  cases input with
  | quit => rfl
  | other => cases stop
  | keyUp code => cases stop
  | keyDown code => exact if_pos (beq_iff_eq.mp stop)

theorem handle_of_not_stops {input : Input} (goesOn : input.stops = false) :
    e.handle input = ((e.handle input).1, true) := by
  have heard := heard_handle e input
  generalize e.handle input = result at heard ⊢
  cases heard with
  | stops stop =>
    rw [stop] at goesOn
    cases goesOn
  | passes other => rfl
  | restarts same => rfl
  | keys other machine => rfl

theorem handleAll_cons {input : Input} (goesOn : input.stops = false) (inputs : List Input) :
    e.handleAll (input :: inputs) = (e.handle input).1.handleAll inputs := by
  rw [handleAll, handle_of_not_stops goesOn]

theorem handleAll_of_not_stops {inputs : List Input}
    (goesOn : ∀ input ∈ inputs, input.stops = false) :
    e.handleAll inputs = ((e.handleAll inputs).1, true) := by
  induction inputs generalizing e with
  | nil => rfl
  | cons input inputs ih =>
    rw [handleAll_cons (goesOn input List.mem_cons_self)]
    exact ih fun i mem => goesOn i (List.mem_cons_of_mem _ mem)

/-- An input that ends the run leaves those after it undelivered. -/
theorem handleAll_of_stops {before later : List Input} {stop : Input} (listens : e.listens = true)
    (goesOn : ∀ input ∈ before, input.stops = false) (stops : stop.stops = true) :
    e.handleAll (before ++ stop :: later) = ((e.handleAll before).1, false) := by
  induction before generalizing e with
  | nil => simp only [List.nil_append, handleAll, handle_of_stops listens stops]
  | cons input before ih =>
    have first := goesOn input List.mem_cons_self
    rw [List.cons_append, handleAll_cons first, handleAll_cons first]
    exact ih ((sameRun_handle e input).listens.trans listens)
      fun i mem => goesOn i (List.mem_cons_of_mem _ mem)

/-- Keys have gone down or come up, and nothing else has happened. No time has passed, and nothing has
been drawn. -/
structure Keyed (e e' : Emulator) : Prop where
  clock : e'.clock = e.clock
  rom : e'.rom = e.rom
  window : e'.window = e.window
  frameCount : e'.frameCount = e.frameCount
  machine : ∃ keypad, e'.machine = { e.machine with keypad }

theorem Keyed.refl (e : Emulator) : Keyed e e := ⟨rfl, rfl, rfl, rfl, _, rfl⟩

theorem Keyed.trans {e'' : Emulator} (h : Keyed e e') (h' : Keyed e' e'') : Keyed e e'' := by
  obtain ⟨keypad, machine⟩ := h.machine
  obtain ⟨keypad', machine'⟩ := h'.machine
  refine ⟨h'.clock.trans h.clock, h'.rom.trans h.rom, h'.window.trans h.window,
    h'.frameCount.trans h.frameCount, keypad', ?_⟩
  rw [machine', machine]

/-- A machine that is started again keeps nothing but the source of random bytes. -/
theorem machine_restart (e : Emulator) : e.restart.machine =
    match e.rom with
    | none => Machine.fresh e.machine.random
    | some rom => Machine.freshWith e.machine.random rom.data := by
  rw [(started_restart e).machine]
  unfold restartCall
  cases e.rom with
  | none => rfl
  | some rom =>
    rw [Machine.after, Machine.perform_load_of_fits rom.fits.2]
    rfl

theorem machine_restart_congr (rom : e'.rom = e.rom)
    (random : e'.machine.random = e.machine.random) : e'.restart.machine = e.restart.machine := by
  rw [machine_restart, machine_restart, rom, random]

/-- Starting again makes up for all that the keys have done. -/
theorem Keyed.restart (h : Keyed e e') : Keyed e.restart e'.restart := by
  obtain ⟨keypad, machine⟩ := h.machine
  have random : e'.machine.random = e.machine.random := by rw [machine]
  exact ⟨congrArg Clock.resetTotals h.clock, h.rom, h.window, h.frameCount, _,
    machine_restart_congr h.rom random⟩

theorem keyed_restart_restart (e : Emulator) : Keyed e.restart e.restart.restart := by
  have random : e.restart.machine.random = e.machine.random := by
    rw [machine_restart]
    cases e.rom with
    | none => rfl
    | some rom => rfl
  exact ⟨rfl, rfl, rfl, rfl, _, machine_restart_congr e.restart_rom random⟩

/-- Whatever inputs are delivered, the program is started again if one of them asks for that, and
keys go down and come up. -/
theorem keyed_handleAll {inputs : List Input} (listens : e.listens = true)
    (goesOn : ∀ input ∈ inputs, input.stops = false) :
    Keyed (if inputs.contains restartKey then e.restart else e) (e.handleAll inputs).1 := by
  induction inputs generalizing e with
  | nil => exact .refl e
  | cons input inputs ih =>
    have first := goesOn input List.mem_cons_self
    have listening : (e.handle input).1.listens = true :=
      (sameRun_handle e input).listens.trans listens
    have others := ih listening fun i mem => goesOn i (List.mem_cons_of_mem _ mem)
    rw [handleAll_cons first, List.contains_cons]
    have heard := heard_handle e input
    generalize e.handle input = result at heard others ⊢
    cases heard with
    | stops stop =>
      rw [stop] at first
      cases first
    | passes other =>
      rw [beq_eq_false_iff_ne.mpr (other listens).symm, Bool.false_or]
      exact others
    | restarts same =>
      rw [beq_iff_eq.mpr same.symm, Bool.true_or, if_pos rfl]
      split at others
      · exact (keyed_restart_restart e).trans others
      · exact others
    | keys other machine =>
      rename_i monitor k
      have keyed : Keyed e { e with monitor } := by
        refine ⟨rfl, rfl, rfl, rfl, monitor.machine.keypad, ?_⟩
        rcases machine with down | up
        · exact down.trans (by rw [down]; rfl)
        · exact up.trans (by rw [up]; rfl)
      rw [beq_eq_false_iff_ne.mpr other.symm, Bool.false_or]
      split at others
      · rename_i again
        rw [if_pos again]
        exact keyed.restart.trans others
      · rename_i once
        rw [if_neg once]
        exact keyed.trans others

end ChipEight.Emulator
