import ChipEight.CommandLine.Run
import ChipEight.Proofs.Lasting
import ChipEight.Proofs.Loading

/-! # How a command line ends

Several things can be wrong with what a command line asks for, and each is found out by a check of its
own, in the options, the surroundings, the clock, the program file, the window or the run (`Fails`). The
checks come in a fixed order, which the code does not spell out anywhere: the first that fails says what is
printed, and a command line of which none fails ends with status 0, though a run only when something that
it meets stops it (`comes_run`). -/
namespace ChipEight

open CommandLine (Failure)
open Emulator (Encounter Over)

/-! ## Making an emulator -/

/-- A window is wanted, and opening it fails with an error that is passed on. -/
def Setup.Shut (setup : Setup) (error : Raised) : Prop :=
  ∃ scale, setup.windowScale = some scale ∧ setup.windowSystem.opening scale = some error ∧
    error.belongs .importing = false

namespace Emulator

variable {setup : Setup} {path : String} {found : Entry}

theorem create_of_nonpositive (stands : setup.cpuHz ≤ 0) (path : String) (found : Entry) :
    ∃ journal, create setup (some (path, found)) =
      .error (.badFrequencies setup.cpuHz Clock.standardTimerHz, journal) := by
  have refused : Clock.create setup.cpuHz Clock.standardTimerHz =
      .error (.badFrequencies setup.cpuHz Clock.standardTimerHz) :=
    dif_neg fun positive => absurd positive.1 (Int.not_lt.mpr stands)
  simp only [create, refused]
  exact ⟨_, rfl⟩

theorem clock_of_positive {cpuHz : Int} (goes : 0 < cpuHz) :
    ∃ clock, Clock.create cpuHz Clock.standardTimerHz = .ok clock :=
  ⟨_, dif_pos ⟨goes, by decide⟩⟩

theorem create_of_refused {refusal : Refusal} (goes : 0 < setup.cpuHz)
    (refused : Rom.Refused path found refusal) :
    ∃ journal, create setup (some (path, found)) = .error (refusal, journal) := by
  obtain ⟨clock, made⟩ := clock_of_positive goes
  simp only [create, made, loadRom, refused.ofEntry]
  exact ⟨_, rfl⟩

theorem openWindow_of_shut {error : Raised} (e : Emulator) (shut : setup.Shut error) :
    e.openWindow setup = .error (.outside error) := by
  obtain ⟨scale, wanted, fails, other⟩ := shut
  simp only [openWindow, wanted, fails, other, Bool.false_eq_true, if_false]

theorem openWindow_of_not_shut (e : Emulator) (opens : ∀ error, ¬ setup.Shut error) :
    ∃ e', e.openWindow setup = .ok e' := by
  cases wanted : setup.windowScale with
  | none =>
    simp only [openWindow, wanted]
    exact ⟨_, rfl⟩
  | some scale =>
    cases fails : setup.windowSystem.opening scale with
    | none =>
      simp only [openWindow, wanted, fails]
      exact ⟨_, rfl⟩
    | some error =>
      have importing : error.belongs .importing = true :=
        Bool.of_not_eq_false fun other => opens error ⟨scale, wanted, fails, other⟩
      simp only [openWindow, wanted, fails, importing, if_true]
      exact ⟨_, rfl⟩

/-- Whether a program that fits gets its emulator is up to the window. -/
theorem create_of_fit {rom : Rom} (goes : 0 < setup.cpuHz)
    (accepted : Rom.ofEntry path found = .ok rom) : ∃ e : Emulator,
      (∀ refusal, e.openWindow setup = .error refusal →
        ∃ journal, create setup (some (path, found)) = .error (refusal, journal)) ∧
      ∀ opened, e.openWindow setup = .ok opened →
        ∃ e', create setup (some (path, found)) = .ok e' := by
  obtain ⟨clock, made⟩ := clock_of_positive goes
  obtain ⟨e, inserted, -⟩ := insert_eq
    { monitor := Monitor.fresh (Generator.ofSeed setup.seed), clock
      listens := setup.windowSystem.isInstalled } rom
  simp only [create, made, loadRom, accepted]
  refine ⟨e, fun refusal refused => ?_, fun opened opens => ?_⟩
  · simp only [inserted, refused]
    exact ⟨_, rfl⟩
  · simp only [inserted, opens]
    exact ⟨_, rfl⟩

/-- An emulator that was made for a program file can run it. -/
theorem create_listens {e : Emulator} (made : create setup (some (path, found)) = .ok e) :
    e.rom.isSome = true ∧ (e.window.isSome = true → e.listens = true) := by
  refine ⟨?_, fun windowed => (opened_create made windowed).listens⟩
  obtain ⟨clock, loaded, opened, -, loads, opens, rfl⟩ := create_parts made
  obtain ⟨rom, -, present, -⟩ := loadRom_eq_ok loads
  have kept : opened.rom = loaded.rom := by
    cases opens with
    | _ => rfl
  exact congrArg Option.isSome (kept.trans present)

end Emulator

namespace CommandLine

variable {o : Options} {around : Surroundings} {met : List Encounter} {place : Nat} {text : List String}

/-! ## What can be wrong -/

/-- The path of the program file. -/
def Options.path (o : Options) : String := o.rom.getD ""

/-- The emulator is made for the settings and is about to run. -/
def Options.Makes (o : Options) (around : Surroundings) (e : Emulator) : Prop :=
  ∃ scale printed, o.scale = .number scale ∧ o.prepare around scale o.path = .ok (e, printed)

/-- A window of a scale is wanted, and opening it fails with an error that is passed on. -/
def Surroundings.Shut (around : Surroundings) (scale : Int) (error : Raised) : Prop :=
  around.headless = false ∧ around.windowSystem.opening scale.toNat = some error ∧
    error.belongs .importing = false

/-- What is printed about an error. -/
def announced (error : Raised) : List String := (Failure.ofRaised error).announcement

/-- What can be wrong: the place of the check that finds it out, and what is printed below the banner. Any
number of these things can be wrong at once. -/
inductive Fails (o : Options) (around : Surroundings) (met : List Encounter) :
    Nat → List String → Prop
  | noPath (empty : o.path = "") : Fails o around met 0
      ["Error: Se requiere especificar una ROM", "Uso: python main.py <ruta_a_rom.ch8> [--debug]"]
  | badScale {scale : Int} (number : o.scale = .number scale) (stands : scale ≤ 0) :
      Fails o around met 1
        ["Error: --scale debe ser positivo (recibido " ++ toString scale ++ ")"]
  | noWindowSystem (runs : o.disassemble = false) (lacks : lacksWindowSystem around = true) :
      Fails o around met 2
        ["\n❌ ERROR: Pygame no está instalado.\n\nInstala con: pip install pygame-ce"]
  | noSeed (runs : o.disassemble = false) (empty : o.seed = some .empty) :
      Fails o around met 3 (announced SettingError.notASeed.raised)
  | noFrequency (runs : o.disassemble = false) (empty : o.cpuHz = .empty) :
      Fails o around met 4 (announced SettingError.unordered.raised)
  | badFrequency {hz : Int} (runs : o.disassemble = false) (number : o.cpuHz = .number hz)
      (stands : hz ≤ 0) : Fails o around met 5 (announced (Refusal.badFrequencies hz 60).raised)
  | badProgram {refusal : Refusal} (refused : Rom.Refused o.path (around.found o.path) refusal) :
      Fails o around met 6 (announced refusal.raised)
  | noWindow {scale : Int} {error : Raised} (runs : o.disassemble = false)
      (number : o.scale = .number scale) (shut : around.Shut scale error) :
      Fails o around met 7 (announced error)
  | brokenRun {e last : Emulator} {error : Raised} (runs : o.disassemble = false)
      (made : o.Makes around e) (broken : e.course none met = .error ⟨last, some error⟩) :
      Fails o around met 8 (o.summary e ++ announced error)

/-- The checks before a place find nothing wrong. -/
def Passes (o : Options) (around : Surroundings) (met : List Encounter) (place : Nat) : Prop :=
  ∀ p t, Fails o around met p t → place ≤ p

theorem passes_zero : Passes o around met 0 := fun _ _ _ => Nat.zero_le _

theorem Passes.succ (h : Passes o around met place) (fine : ∀ t, ¬ Fails o around met place t) :
    Passes o around met (place + 1) := by
  intro p t fails
  refine Nat.lt_of_le_of_ne (h p t fails) ?_
  rintro rfl
  exact fine t fails

/-- There are nine checks. -/
theorem Passes.all (h : Passes o around met 9) (p : Nat) (t : List String) :
    ¬ Fails o around met p t := by
  intro fails
  have last := h p t fails
  cases fails <;> omega

/-- What a command line comes to. A run that is still going comes to nothing. -/
inductive Comes (o : Options) (around : Surroundings) (met : List Encounter) : Option Outcome → Prop
  | fails {place : Nat} {text : List String} {journal : Journal}
      (fails : Fails o around met place text) (first : Passes o around met place) :
      Comes o around met
        (some { status := 1, printed := banner ++ text, journal, threshold := o.threshold })
  | lists {rom : Rom} (lists : o.disassemble = true)
      (accepted : Rom.ofEntry o.path (around.found o.path) = .ok rom) (passes : Passes o around met 9) :
      Comes o around met (some (o.list o.path (around.found o.path)))
  | ends {e last : Emulator} (runs : o.disassemble = false) (made : o.Makes around e)
      (ended : e.course none met = .error ⟨last, none⟩) (passes : Passes o around met 9) :
      Comes o around met
        (some
          { status := 0
            printed := banner ++ o.summary e
            journal := last.monitor.journal
            threshold := o.threshold })
  | going {e now : Emulator} (runs : o.disassemble = false) (made : o.Makes around e)
      (going : e.course none met = .ok now) (passes : Passes o around met 9) : Comes o around met none

/-! ## Check by check -/

/-- What the settings lead to. -/
def Options.finish (o : Options) (around : Surroundings) (met : List Encounter) : Option Outcome :=
  match o.stage around with
  | .ended outcome => some outcome
  | .ready o e printed => o.conclude printed (e.course none met)

theorem run_of_parsed {arguments : List String} (parsed : parse arguments = .ok (.options o)) :
    run around arguments met = o.finish around met := by
  simp only [run, stage, parsed]
  rfl

theorem validate_of_no_path (empty : o.path = "") :
    o.validate = .error (o.turnedAway
      ["Error: Se requiere especificar una ROM", "Uso: python main.py <ruta_a_rom.ch8> [--debug]"]) :=
  if_pos empty

theorem validate_of_nonpositive {scale : Int} (given : o.path ≠ "") (number : o.scale = .number scale)
    (stands : scale ≤ 0) :
    o.validate = .error (o.turnedAway
      ["Error: --scale debe ser positivo (recibido " ++ toString scale ++ ")"]) := by
  rw [Options.validate]
  simp only [show o.rom.getD "" ≠ "" from given, if_false, number, if_pos stands]

theorem validate_of_positive {scale : Int} (given : o.path ≠ "") (number : o.scale = .number scale)
    (goes : ¬ scale ≤ 0) : o.validate = .ok (o.path, scale) := by
  rw [Options.validate]
  simp only [show o.rom.getD "" ≠ "" from given, if_false, number, if_neg goes]
  rfl

variable {scale hz : Int}

/-- The numbers that a run needs are there. -/
structure Options.Numbered (o : Options) (hz : Int) : Prop where
  seed : o.seed ≠ some .empty
  cpuHz : o.cpuHz = .number hz

/-- What is made of the settings when their numbers are there. -/
structure Suits (setup : Setup) (around : Surroundings) (scale hz : Int) : Prop where
  cpuHz : setup.cpuHz = hz
  windowScale : setup.windowScale = if around.headless then none else some scale.toNat
  windowSystem : setup.windowSystem = around.windowSystem

theorem setup_of_numbered (h : o.Numbered hz) (around : Surroundings) (scale : Int) :
    ∃ setup, o.setup around scale = .ok setup ∧ Suits setup around scale hz := by
  obtain ⟨seed, cpuHz⟩ := h
  cases seeded : o.seed with
  | none =>
    simp only [Options.setup, seeded, Option.getD_none, cpuHz]
    exact ⟨_, rfl, rfl, rfl, rfl⟩
  | some setting =>
    cases setting with
    | empty => exact absurd seeded seed
    | number n =>
      simp only [Options.setup, seeded, Option.getD_some, cpuHz]
      exact ⟨_, rfl, rfl, rfl, rfl⟩

theorem Suits.shut_iff {setup : Setup} (h : Suits setup around scale hz) {error : Raised} :
    setup.Shut error ↔ around.Shut scale error := by
  unfold Setup.Shut Surroundings.Shut
  rw [h.windowScale, h.windowSystem]
  cases around.headless with
  | true => simp
  | false => simp

theorem prepare_of_no_seed (empty : o.seed = some .empty) (around : Surroundings) (scale : Int)
    (path : String) : ∃ journal, o.prepare around scale path =
      .error (o.failed (.ofRaised SettingError.notASeed.raised) journal) := by
  simp only [Options.prepare, Options.setup, empty, Option.getD_some]
  exact ⟨_, rfl⟩

theorem prepare_of_no_frequency (seed : o.seed ≠ some .empty) (empty : o.cpuHz = .empty)
    (around : Surroundings) (scale : Int) (path : String) : ∃ journal, o.prepare around scale path =
      .error (o.failed (.ofRaised SettingError.unordered.raised) journal) := by
  cases seeded : o.seed with
  | none =>
    simp only [Options.prepare, Options.setup, seeded, Option.getD_none, empty]
    exact ⟨_, rfl⟩
  | some setting =>
    cases setting with
    | empty => exact absurd seeded seed
    | number n =>
      simp only [Options.prepare, Options.setup, seeded, Option.getD_some, empty]
      exact ⟨_, rfl⟩

theorem prepare_of_error {setup : Setup} {path : String} {refusal : Refusal} {journal : Journal}
    (made : o.setup around scale = .ok setup)
    (refused : Emulator.create setup (some (path, around.found path)) = .error (refusal, journal)) :
    o.prepare around scale path = .error (o.failed (.ofRaised refusal.raised) journal) := by
  simp only [Options.prepare, made, refused]

theorem prepare_of_nonpositive (h : o.Numbered hz) (stands : hz ≤ 0) (around : Surroundings)
    (scale : Int) (path : String) : ∃ journal, o.prepare around scale path =
      .error (o.failed (.ofRaised (Refusal.badFrequencies hz 60).raised) journal) := by
  obtain ⟨setup, made, suits⟩ := setup_of_numbered h around scale
  obtain rfl := suits.cpuHz
  obtain ⟨journal, refused⟩ := Emulator.create_of_nonpositive stands path (around.found path)
  exact ⟨journal, prepare_of_error made refused⟩

theorem prepare_of_refused {path : String} {refusal : Refusal} (h : o.Numbered hz) (goes : 0 < hz)
    (refused : Rom.Refused path (around.found path) refusal) (scale : Int) : ∃ journal,
      o.prepare around scale path = .error (o.failed (.ofRaised refusal.raised) journal) := by
  obtain ⟨setup, made, suits⟩ := setup_of_numbered h around scale
  obtain rfl := suits.cpuHz
  obtain ⟨journal, refused⟩ := Emulator.create_of_refused goes refused
  exact ⟨journal, prepare_of_error made refused⟩

section Fit

variable {path : String} {rom : Rom} (h : o.Numbered hz) (goes : 0 < hz)
  (accepted : Rom.ofEntry path (around.found path) = .ok rom)
include h goes accepted

theorem prepare_of_shut {error : Raised} (shut : around.Shut scale error) : ∃ journal,
    o.prepare around scale path = .error (o.failed (.ofRaised error) journal) := by
  obtain ⟨setup, made, suits⟩ := setup_of_numbered h around scale
  obtain rfl := suits.cpuHz
  obtain ⟨e, fails, -⟩ := Emulator.create_of_fit goes accepted
  obtain ⟨journal, refused⟩ := fails _ (e.openWindow_of_shut (suits.shut_iff.mpr shut))
  exact ⟨journal, prepare_of_error made refused⟩

theorem prepare_of_fit (opens : ∀ error, ¬ around.Shut scale error) :
    ∃ e, o.prepare around scale path = .ok (e, banner ++ o.summary e) := by
  obtain ⟨setup, made, suits⟩ := setup_of_numbered h around scale
  obtain rfl := suits.cpuHz
  obtain ⟨e, -, succeeds⟩ := Emulator.create_of_fit goes accepted
  obtain ⟨opened, opens⟩ := e.openWindow_of_not_shut fun error shut =>
    opens error (suits.shut_iff.mp shut)
  obtain ⟨e', created⟩ := succeeds opened opens
  simp only [Options.prepare, made, created]
  exact ⟨_, rfl⟩

end Fit

/-- What is made for a program file can run it. -/
theorem Options.Makes.listens {e : Emulator} (made : o.Makes around e) :
    e.rom.isSome = true ∧ (e.window.isSome = true → e.listens = true) := by
  obtain ⟨scale, printed, -, prepared⟩ := made
  unfold Options.prepare at prepared
  cases settled : o.setup around scale with
  | error e =>
    simp only [settled] at prepared
    cases prepared
  | ok setup =>
    simp only [settled] at prepared
    cases created : Emulator.create setup (some (o.path, around.found o.path)) with
    | error e =>
      simp only [created] at prepared
      cases prepared
    | ok e =>
      simp only [created] at prepared
      cases prepared
      have ready := Emulator.create_listens created
      exact ready

/-- For a listing only the path, the scale and the program matter. -/
theorem Fails.of_lists (fails : Fails o around met place text) (lists : o.disassemble = true) :
    place = 0 ∨ place = 1 ∨ place = 6 := by
  have never (runs : o.disassemble = false) : False := by
    rw [lists] at runs
    cases runs
  cases fails with
  | noPath => exact .inl rfl
  | badScale => exact .inr (.inl rfl)
  | badProgram => exact .inr (.inr rfl)
  | noWindowSystem runs => exact (never runs).elim
  | noSeed runs => exact (never runs).elim
  | noFrequency runs => exact (never runs).elim
  | badFrequency runs => exact (never runs).elim
  | noWindow runs => exact (never runs).elim
  | brokenRun runs => exact (never runs).elim

theorem Passes.program {rom : Rom} (h : Passes o around met 6)
    (accepted : Rom.ofEntry o.path (around.found o.path) = .ok rom) : Passes o around met 7 := by
  refine h.succ fun t fails => ?_
  cases fails with
  | badProgram refused => cases refused.ofEntry.symm.trans accepted

theorem comes_list (lists : o.disassemble = true) (passes : Passes o around met 2) :
    Comes o around met (some (o.list o.path (around.found o.path))) := by
  have six : Passes o around met 6 := fun p t fails => by
    have late := passes p t fails
    have only := fails.of_lists lists
    omega
  rcases Rom.refused_or_accepted o.path (around.found o.path) with ⟨refusal, refused⟩ | ⟨rom, accepted⟩
  · rw [Options.list, refused.ofEntry]
    exact .fails (.badProgram refused) six
  · refine .lists lists accepted fun p t fails => ?_
    have late := six.program accepted p t fails
    have only := fails.of_lists lists
    omega

theorem Options.Makes.unique {e e' : Emulator} (h : o.Makes around e) (h' : o.Makes around e') :
    e' = e := by
  obtain ⟨scale, printed, number, prepared⟩ := h
  obtain ⟨scale', printed', number', prepared'⟩ := h'
  obtain rfl := Setting.number.inj (number'.symm.trans number)
  cases prepared'.symm.trans prepared
  rfl

/-- A run comes to an end without an error or with one, or to none yet. -/
theorem comes_run {e : Emulator} (runs : o.disassemble = false) (made : o.Makes around e)
    (passes : Passes o around met 8) :
    Comes o around met (o.conclude (banner ++ o.summary e) (e.course none met)) := by
  have last (whole : ∀ last error, e.course none met ≠ .error ⟨last, some error⟩) :
      Passes o around met 9 := passes.succ fun t fails => by
    cases fails with
    | brokenRun _ made' broken =>
      rw [made.unique made'] at broken
      exact whole _ _ broken
  cases went : e.course none met with
  | ok now => exact .going runs made went (last fun _ _ broken => by cases went.symm.trans broken)
  | error ended =>
    obtain ⟨reached, error⟩ := ended
    cases error with
    | none => exact .ends runs made went (last fun _ _ broken => by cases went.symm.trans broken)
    | some error =>
      rw [Options.conclude, List.append_assoc]
      exact .fails (.brokenRun runs made went) passes

/-- From the seed on, the checks are made while an emulator is made and run. -/
theorem comes_prepare (runs : o.disassemble = false) (number : o.scale = .number scale)
    (passes : Passes o around met 3) :
    Comes o around met
      (match o.prepare around scale o.path with
        | .error outcome => some outcome
        | .ok (e, printed) => o.conclude printed (e.course none met)) := by
  by_cases seed : o.seed = some .empty
  · obtain ⟨journal, refused⟩ := prepare_of_no_seed seed around scale o.path
    rw [refused]
    exact .fails (.noSeed runs seed) passes
  have seeded : Passes o around met 4 := passes.succ fun t fails => by
    cases fails with
    | noSeed _ empty => exact seed empty
  cases rate : o.cpuHz with
  | empty =>
    obtain ⟨journal, refused⟩ := prepare_of_no_frequency seed rate around scale o.path
    rw [refused]
    exact .fails (.noFrequency runs rate) seeded
  | number hz =>
    have numbered : o.Numbered hz := ⟨seed, rate⟩
    have rated : Passes o around met 5 := seeded.succ fun t fails => by
      cases fails with
      | noFrequency _ empty => cases rate.symm.trans empty
    by_cases stands : hz ≤ 0
    · obtain ⟨journal, refused⟩ := prepare_of_nonpositive numbered stands around scale o.path
      rw [refused]
      exact .fails (.badFrequency runs rate stands) rated
    have goes : 0 < hz := Int.not_le.mp stands
    have clocked : Passes o around met 6 := rated.succ fun t fails => by
      cases fails with
      | badFrequency _ number stands' =>
        cases rate.symm.trans number
        exact stands stands'
    rcases Rom.refused_or_accepted o.path (around.found o.path) with
      ⟨refusal, refused⟩ | ⟨rom, accepted⟩
    · obtain ⟨journal, ended⟩ := prepare_of_refused numbered goes refused scale
      rw [ended]
      exact .fails (.badProgram refused) clocked
    have programmed := clocked.program accepted
    by_cases shut : ∃ error, around.Shut scale error
    · obtain ⟨error, shut⟩ := shut
      obtain ⟨journal, ended⟩ := prepare_of_shut numbered goes accepted shut
      rw [ended]
      exact .fails (.noWindow runs number shut) programmed
    have opened : Passes o around met 8 := programmed.succ fun t fails => by
      cases fails with
      | noWindow _ number' shut' =>
        cases number.symm.trans number'
        exact shut ⟨_, shut'⟩
    obtain ⟨e, prepared⟩ := prepare_of_fit numbered goes accepted (not_exists.mp shut)
    rw [prepared]
    exact comes_run runs ⟨scale, _, number, prepared⟩ opened

/-- Whatever the settings are, if only the scale is a number or not looked at. -/
theorem comes_finish (number : o.path = "" ∨ o.scale ≠ .empty) :
    Comes o around met (o.finish around met) := by
  by_cases given : o.path = ""
  · rw [Options.finish, Options.stage, validate_of_no_path given]
    exact .fails (.noPath given) passes_zero
  have named : Passes o around met 1 := passes_zero.succ fun t fails => by
    cases fails with
    | noPath empty => exact given empty
  obtain ⟨scale, number⟩ : ∃ scale, o.scale = .number scale := by
    cases scaled : o.scale with
    | empty => exact absurd scaled (number.resolve_left given)
    | number scale => exact ⟨scale, rfl⟩
  by_cases stands : scale ≤ 0
  · rw [Options.finish, Options.stage, validate_of_nonpositive given number stands]
    exact .fails (.badScale number stands) named
  have scaled : Passes o around met 2 := named.succ fun t fails => by
    cases fails with
    | badScale number' stands' =>
      cases number.symm.trans number'
      exact stands stands'
  rw [Options.finish, Options.stage, validate_of_positive given number stands]
  by_cases lists : o.disassemble = true
  · simp only [if_pos lists]
    exact comes_list lists scaled
  have runs : o.disassemble = false := eq_false_of_ne_true lists
  simp only [if_neg lists]
  by_cases lacks : lacksWindowSystem around = true
  · rw [if_pos lacks]
    exact .fails (.noWindowSystem runs lacks) scaled
  have windowed : Passes o around met 3 := scaled.succ fun t fails => by
    cases fails with
    | noWindowSystem _ lacks' => exact lacks lacks'
  have ended := comes_prepare runs number windowed
  rw [if_neg lacks]
  cases prepared : o.prepare around scale o.path with
  | error outcome => rwa [prepared] at ended
  | ok made => rwa [prepared] at ended

/-! ## What follows -/

theorem Fails.unique {text' : List String} (fails : Fails o around met place text)
    (fails' : Fails o around met place text') : text = text' := by
  cases fails with
  | noPath => cases fails'; rfl
  | badScale number =>
    cases fails' with
    | badScale number' => rw [Setting.number.inj (number.symm.trans number')]
  | noWindowSystem => cases fails'; rfl
  | noSeed => cases fails'; rfl
  | noFrequency => cases fails'; rfl
  | badFrequency _ number =>
    cases fails' with
    | badFrequency _ number' => rw [Setting.number.inj (number.symm.trans number')]
  | badProgram refused =>
    cases fails' with
    | badProgram refused' => rw [Except.error.inj (refused.ofEntry.symm.trans refused'.ofEntry)]
  | noWindow _ number shut =>
    cases fails' with
    | noWindow _ number' shut' =>
      obtain rfl := Setting.number.inj (number.symm.trans number')
      rw [Option.some.inj (shut.2.1.symm.trans shut'.2.1)]
  | brokenRun _ made broken =>
    cases fails' with
    | brokenRun _ made' broken' =>
      rw [made.unique made'] at broken' ⊢
      cases broken.symm.trans broken'
      rfl

theorem list_of_accepted {rom : Rom} {path : String} {found : Entry}
    (accepted : Rom.ofEntry path found = .ok rom) :
    (o.list path found).status = 0 ∧ (o.list path found).escaped = none ∧
      (o.list path found).usageError = none ∧
      (o.list path found).printed =
        banner ++ ["\n📦 " ++ rom.title ++ " (" ++ toString rom.size ++ " bytes)\n"] ++
          disassemble rom.data Memory.programStart := by
  rw [Options.list, accepted]
  exact ⟨rfl, rfl, rfl, rfl⟩

section Comes

variable {out : Option Outcome}

theorem Comes.announced (h : Comes o around met out) : ∀ outcome, out = some outcome →
    outcome.escaped = none ∧ outcome.usageError = none ∧
      (outcome.status = 0 ∨ outcome.status = 1) := by
  rintro outcome rfl
  cases h with
  | fails => exact ⟨rfl, rfl, .inr rfl⟩
  | lists lists accepted passes =>
    obtain ⟨status, escaped, usage, -⟩ := list_of_accepted (o := o) accepted
    exact ⟨escaped, usage, .inl status⟩
  | ends => exact ⟨rfl, rfl, .inl rfl⟩

theorem Comes.first (h : Comes o around met out) (fails : Fails o around met place text)
    (first : Passes o around met place) :
    ∃ outcome, out = some outcome ∧ outcome.status = 1 ∧ outcome.printed = banner ++ text := by
  cases h with
  | fails fails' first' =>
    obtain rfl := Nat.le_antisymm (first _ _ fails') (first' _ _ fails)
    rw [fails.unique fails']
    exact ⟨_, rfl, rfl, rfl⟩
  | lists lists accepted passes => exact absurd fails (passes.all _ _)
  | ends runs made ended passes => exact absurd fails (passes.all _ _)
  | going runs made going passes => exact absurd fails (passes.all _ _)

/-- The run of an emulator that is made for the settings, and whether what it meets stops it. -/
theorem Options.Makes.going_iff {e : Emulator} (made : o.Makes around e) (met : List Encounter) :
    (∃ now, e.course none met = .ok now) ↔ ∀ m ∈ met, m.stops e.window.isSome = false :=
  Emulator.going_iff made.listens.1 made.listens.2 met

/-- A command line of which nothing is wrong comes to nothing as long as nothing stops its run. -/
theorem Comes.none_iff (h : Comes o around met out) : out = none ↔
    (∀ p t, ¬ Fails o around met p t) ∧ o.disassemble = false ∧
      ∃ e, o.Makes around e ∧ ∀ m ∈ met, m.stops e.window.isSome = false := by
  constructor
  · rintro rfl
    cases h with
    | going runs made going passes =>
      exact ⟨passes.all, runs, _, made, (made.going_iff met).mp ⟨_, going⟩⟩
  · rintro ⟨fine, runs, e, made, goesOn⟩
    obtain ⟨now, going⟩ := (made.going_iff met).mpr goesOn
    cases h with
    | fails fails => exact absurd fails (fine _ _)
    | lists lists => cases runs.symm.trans lists
    | ends _ made' ended =>
      rw [made.unique made'] at ended
      cases going.symm.trans ended
    | going => rfl

theorem Comes.zero_iff (h : Comes o around met out) :
    (∃ outcome, out = some outcome ∧ outcome.status = 0) ↔
      (∀ p t, ¬ Fails o around met p t) ∧ (o.disassemble = true ∨
        ∃ e, o.Makes around e ∧ ∃ m ∈ met, m.stops e.window.isSome = true) := by
  cases h with
  | fails fails =>
    refine ⟨?_, fun fine => absurd fails (fine.1 _ _)⟩
    rintro ⟨outcome, same, zero⟩
    cases same
    cases zero
  | lists lists accepted passes =>
    exact ⟨fun _ => ⟨passes.all, .inl lists⟩, fun _ => ⟨_, rfl, (list_of_accepted (o := o) accepted).1⟩⟩
  | ends runs made ended passes =>
    refine ⟨fun _ => ⟨passes.all, .inr ⟨_, made, ?_⟩⟩, fun _ => ⟨_, rfl, rfl⟩⟩
    by_contra goesOn
    simp only [not_exists, not_and, Bool.not_eq_true] at goesOn
    obtain ⟨now, going⟩ := (made.going_iff met).mpr goesOn
    cases going.symm.trans ended
  | going runs made going passes =>
    refine ⟨nofun, ?_⟩
    rintro ⟨-, lists | ⟨e, made', m, mem, stops⟩⟩
    · cases runs.symm.trans lists
    · have goesOn := (made.going_iff met).mp ⟨_, going⟩ m mem
      rw [← made.unique made', stops] at goesOn
      cases goesOn

/-- A program file that is as large as a program may be is found at the path. -/
def Options.Fits (o : Options) (around : Surroundings) (data : List Byte) : Prop :=
  around.found o.path = .file data ∧ 1 ≤ data.length ∧ data.length ≤ 3584

theorem fails_none_of_fits (lists : o.disassemble = true) (number : o.scale = .number scale)
    {data : List Byte} (given : o.path ≠ "") (goes : 0 < scale) (fits : o.Fits around data) (p : Nat)
    (t : List String) : ¬ Fails o around met p t := by
  obtain ⟨found, some, room⟩ := fits
  intro fails
  have only := fails.of_lists lists
  cases fails with
  | noPath empty => exact given empty
  | badScale number' stands =>
    cases number.symm.trans number'
    exact absurd goes (Int.not_lt.mpr stands)
  | badProgram refused =>
    rw [found] at refused
    cases refused.ofEntry.symm.trans (Rom.ofEntry_file o.path ⟨some, room⟩)
  | _ => omega

/-- A listing is made exactly of what can be run, and it is the lines of the program below its name and
size. -/
theorem Comes.listing (h : Comes o around met out) (lists : o.disassemble = true)
    (number : o.path = "" ∨ o.scale ≠ .empty) : ∃ outcome, out = some outcome ∧
      (outcome.status = 0 ↔ o.path ≠ "" ∧ (∃ scale, o.scale = .number scale ∧ 0 < scale) ∧
        ∃ data, o.Fits around data) ∧
      ∀ data, outcome.status = 0 → around.found o.path = .file data →
        outcome.printed = banner ++ ["\n📦 " ++ (Path.ofString o.path).stem ++ " (" ++
          toString data.length ++ " bytes)\n"] ++ disassemble data 0x200 := by
  cases h with
  | fails fails =>
    refine ⟨_, rfl, ⟨nofun, ?_⟩, nofun⟩
    rintro ⟨given, ⟨scale, number, goes⟩, data, fits⟩
    exact absurd fails (fails_none_of_fits lists number given goes fits _ _)
  | ends runs => cases runs.symm.trans lists
  | going runs => cases runs.symm.trans lists
  | @lists rom _ accepted passes =>
    obtain ⟨file, path⟩ := Rom.ofEntry_eq_ok accepted
    obtain ⟨zero, -, -, lines⟩ := list_of_accepted (o := o) accepted
    have given : o.path ≠ "" := fun empty => passes.all _ _ (.noPath empty)
    refine ⟨_, rfl, ⟨fun _ => ⟨given, ?_, rom.data, file, rom.fits⟩, fun _ => zero⟩, ?_⟩
    · cases scaled : o.scale with
      | empty => exact absurd scaled (number.resolve_left given)
      | number scale =>
        exact ⟨scale, rfl, Int.not_le.mp fun stands => passes.all _ _ (.badScale scaled stands)⟩
    · intro data _ found
      obtain rfl := Entry.file.inj (found.symm.trans file)
      rw [lines, Rom.title, path]
      rfl

theorem Comes.running {outcome : Outcome} (h : Comes o around met (some outcome))
    (runs : o.disassemble = false) (zero : outcome.status = 0) :
    ∃ e last, o.Makes around e ∧ e.course none met = .error ⟨last, none⟩ ∧
      outcome.printed = banner ++ o.summary e ∧ outcome.journal = last.monitor.journal := by
  cases h with
  | fails => cases zero
  | lists lists => cases lists.symm.trans runs
  | ends _ made ended => exact ⟨_, _, made, ended, rfl, rfl⟩

end Comes

/-- What a listing does not look at does not matter to it. -/
theorem finish_congr_of_lists {o' : Options} {around' : Surroundings} {met' : List Encounter}
    (lists : o.disassemble = true) (lists' : o'.disassemble = true) (rom : o'.rom = o.rom)
    (scale : o'.scale = o.scale) (debug : o'.debug = o.debug) (verbose : o'.verbose = o.verbose)
    (found : around'.found = around.found) : o'.finish around' met' = o.finish around met := by
  have validated : o'.validate = o.validate := by
    simp only [Options.validate, Options.turnedAway, Options.threshold, rom, scale, debug, verbose]
  have listed (path : String) (found : Entry) : o'.list path found = o.list path found := by
    simp only [Options.list, Options.failed, Options.threshold, debug, verbose]
  simp only [Options.finish, Options.stage, validated, lists, lists', listed, found, if_true]
  cases o.validate <;> rfl

/-- Without the window system that it wants, a command line does not look at its program file. -/
theorem finish_congr_of_lacks {found : String → Entry} {met' : List Encounter}
    (runs : o.disassemble = false) (lacks : lacksWindowSystem around = true) :
    o.finish { around with found } met' = o.finish around met := by
  have lacks' : lacksWindowSystem { around with found } = true := lacks
  simp only [Options.finish, Options.stage, runs, lacks, lacks', if_true]
  cases o.validate <;> rfl

/-- Nothing that would have been met later changes an outcome. -/
theorem finish_append {outcome : Outcome} (ended : o.finish around met = some outcome)
    (later : List Encounter) : o.finish around (met ++ later) = some outcome := by
  unfold Options.finish at ended ⊢
  cases staged : o.stage around with
  | ended earlier => simpa only [staged] using ended
  | ready o e printed =>
    simp only [staged] at ended ⊢
    cases went : e.course none met with
    | ok now =>
      rw [went] at ended
      cases ended
    | error last => rwa [Emulator.course_append went, ← went]

/-! ## The heading of an error -/

theorem belongs_of_within {f g : Family} {r : Raised} (has : r.belongs f = true)
    (within : ∀ h : Family, h.within f = true → h.within g = true) : r.belongs g = true := by
  obtain ⟨h, mem, inside⟩ := List.any_eq_true.mp has
  exact List.any_eq_true.mpr ⟨h, mem, within h inside⟩

/-- Two of the families that are tried lie within others, so three are left to ask for. -/
theorem Failure.kind_ofRaised (r : Raised) : (Failure.ofRaised r).kind =
    if r.belongs .system ∨ r.belongs .value then .loading
    else if r.belongs .runtime then .execution else .unexpected := by
  have missing : (r.belongs .missing || (r.belongs .system || r.belongs .value)) =
      (r.belongs .system || r.belongs .value) := by
    cases has : r.belongs .missing with
    | false => rfl
    | true => rw [belongs_of_within has fun h => by cases h <;> decide]; rfl
  have unimplemented : (r.belongs .unimplemented || r.belongs .runtime) = r.belongs .runtime := by
    cases has : r.belongs .unimplemented with
    | false => rfl
    | true => rw [belongs_of_within has fun h => by cases h <;> decide]; rfl
  simp only [ofRaised, handlers, List.find?_cons, List.find?_nil, List.any_cons, List.any_nil,
    Bool.or_false, missing, unimplemented]
  cases r.belongs .system <;> cases r.belongs .value <;> cases r.belongs .runtime <;> rfl

/-- The heading under which an error is announced. -/
def heading (r : Raised) : String :=
  if r.belongs .system ∨ r.belongs .value then "\n❌ Error al cargar ROM: "
  else if r.belongs .runtime then "\n❌ Error de ejecución: " else "\n❌ Error inesperado: "

theorem announced_head (r : Raised) : (announced r).head? = some (heading r ++ r.text) := by
  have kind := Failure.kind_ofRaised r
  unfold announced Failure.announcement heading
  by_cases loading : r.belongs .system ∨ r.belongs .value
  · rw [if_pos loading] at kind ⊢
    rw [kind]
    rfl
  · rw [if_neg loading] at kind ⊢
    by_cases execution : r.belongs .runtime
    · rw [if_pos execution] at kind ⊢
      rw [kind]
      rfl
    · rw [if_neg execution] at kind ⊢
      rw [kind]
      rfl

/-! ## The end of a command line -/

/-- **How a command line ends.** If its scale is a number or not looked at, nothing breaks it off
unannounced, and it ends with status 0 or 1 unless its run is still going: then nothing is wrong, and
nothing that the run has met stops it. Whatever is wrong, the first check that fails says what is printed.
A listing depends on the program file and on nothing that only a run needs; a run without the window system
that it wants does not depend on the file. An error is announced under the heading of its families. -/
theorem command_line_ends {arguments : List String} (parsed : parse arguments = .ok (.options o))
    (number : o.path = "" ∨ o.scale ≠ .empty) (around : Surroundings) (met : List Encounter) :
    let out := run around arguments met
    (∀ outcome, out = some outcome →
      (outcome.escaped = none ∧ outcome.usageError = none ∧
        (outcome.status = 0 ∨ outcome.status = 1)) ∧
      ∀ later, run around arguments (met ++ later) = some outcome) ∧
    (out = none ↔ (∀ place text, ¬ Fails o around met place text) ∧ o.disassemble = false ∧
      ∃ e, o.Makes around e ∧ ∀ m ∈ met, m.stops e.window.isSome = false) ∧
    (∀ place text, Fails o around met place text →
      (∀ p t, Fails o around met p t → place ≤ p) →
        ∃ outcome, out = some outcome ∧ outcome.status = 1 ∧ outcome.printed = banner ++ text) ∧
    ((∃ outcome, out = some outcome ∧ outcome.status = 0) ↔
      (∀ place text, ¬ Fails o around met place text) ∧ (o.disassemble = true ∨
        ∃ e, o.Makes around e ∧ ∃ m ∈ met, m.stops e.window.isSome = true)) ∧
    (o.disassemble = true →
      (∃ outcome, out = some outcome ∧
        (outcome.status = 0 ↔ o.path ≠ "" ∧ (∃ scale, o.scale = .number scale ∧ 0 < scale) ∧
          ∃ data, o.Fits around data) ∧
        ∀ data, outcome.status = 0 → around.found o.path = .file data →
          outcome.printed = banner ++ ["\n📦 " ++ (Path.ofString o.path).stem ++ " (" ++
            toString data.length ++ " bytes)\n"] ++ disassemble data 0x200) ∧
      ∀ arguments' o' around' met', parse arguments' = .ok (.options o') → o'.disassemble = true →
        o'.rom = o.rom → o'.scale = o.scale → o'.debug = o.debug → o'.verbose = o.verbose →
        around'.found = around.found → run around' arguments' met' = out) ∧
    (o.disassemble = false →
      (∀ outcome, out = some outcome → outcome.status = 0 →
        ∃ e last, o.Makes around e ∧ e.course none met = .error ⟨last, none⟩ ∧
          outcome.printed = banner ++ o.summary e ∧ outcome.journal = last.monitor.journal) ∧
      (around.headless = false → around.windowSystem = .missing →
        ∀ found met', run { around with found } arguments met' = out)) ∧
    ∀ r : Raised, (announced r).head? = some (heading r ++ r.text) := by
  intro out
  have finished : out = o.finish around met := run_of_parsed parsed
  have comes : Comes o around met out := by
    rw [finished]
    exact comes_finish number
  refine ⟨fun outcome ended => ⟨comes.announced outcome ended, fun later => ?_⟩, comes.none_iff,
    fun place text fails first => comes.first fails first, comes.zero_iff, fun lists => ?_,
    fun runs => ⟨?_, ?_⟩, announced_head⟩
  · rw [run_of_parsed parsed]
    exact finish_append (finished.symm.trans ended) later
  · refine ⟨comes.listing lists number, ?_⟩
    intro arguments' o' around' met' parsed' lists' rom scale debug verbose found
    rw [run_of_parsed parsed', finished]
    exact finish_congr_of_lists lists lists' rom scale debug verbose found
  · intro outcome ended zero
    rw [ended] at comes
    exact comes.running runs zero
  · intro headless windowSystem found met'
    have lacks : lacksWindowSystem around = true := by
      rw [lacksWindowSystem, headless, windowSystem]
      rfl
    rw [run_of_parsed parsed, finished]
    exact finish_congr_of_lacks runs lacks

/-- A double hyphen in place of the number of an option is taken by the parser. Nothing else is wrong with
either command line, yet without a seed none ends with status 0, and without a scale nothing even
announces the failure. Where no hyphen stands a window that does not open ends everything, and without a
window a run may pass as many frames as it will and never end. -/
theorem double_hyphen_is_no_setting :
    let around : Surroundings :=
      { found := fun _ => .file [0x60, 0x05, 0x00, 0xE0, 0x12, 0x00]
        headless := true
        windowSystem := .installed fun _ => none }
    (∃ o, parse ["a.ch8", "--seed=--"] = .ok (.options o) ∧ o.path = "a.ch8" ∧
      o.scale = .number 10 ∧ o.disassemble = false ∧ o.cpuHz = .number 500 ∧
      ((run around ["a.ch8", "--seed=--"] []).map (·.status)) = some 1) ∧
    (∃ o, parse ["a.ch8", "--scale=--"] = .ok (.options o) ∧
      ((run around ["a.ch8", "--scale=--"] []).map (·.escaped)) = some (some .unordered)) ∧
    (let broken : Raised := ⟨[.runtime], "No available video device"⟩
      let closed : Surroundings :=
        { around with headless := false, windowSystem := .installed fun _ => some broken }
      ((run closed ["a.ch8"] []).map (·.status)) = some 1) ∧
    ∀ frames, run around ["a.ch8"] (List.replicate frames {}) = none := by
  intro around
  refine ⟨⟨_, rfl, ?_⟩, ⟨_, rfl, ?_⟩, ?_, fun frames => ?_⟩
  · decide +kernel
  · decide +kernel
  · decide +kernel
  let o : Options := { rom := some "a.ch8" }
  have parsed : parse ["a.ch8"] = .ok (.options o) := by decide +kernel
  let data : List Byte := [0x60, 0x05, 0x00, 0xE0, 0x12, 0x00]
  have fits : 0 < data.length ∧ data.length ≤ Memory.programCapacity := by decide
  have numbered : o.Numbered 500 := ⟨nofun, rfl⟩
  have accepted : Rom.ofEntry o.path (around.found o.path) = .ok ⟨_, data, fits⟩ :=
    Rom.ofEntry_file o.path fits
  have opens : ∀ error, ¬ around.Shut 10 error := fun _ shut => nomatch shut.1
  obtain ⟨e, prepared⟩ := prepare_of_fit numbered (by decide) accepted opens
  have made : o.Makes around e := ⟨10, _, rfl, prepared⟩
  obtain ⟨now, going⟩ := (made.going_iff (List.replicate frames {})).mpr fun m mem => by
    rw [List.eq_of_mem_replicate mem]
    cases e.window.isSome <;> rfl
  have staged : o.stage around = .ready o e (banner ++ o.summary e) := by
    have valid : o.validate = .ok (o.path, 10) := validate_of_positive (by decide) rfl (by decide)
    have wanted : lacksWindowSystem around = false := rfl
    rw [Options.stage, valid]
    simp only [show o.disassemble = false from rfl, wanted, prepared, Bool.false_eq_true, if_false]
  rw [run_of_parsed parsed, Options.finish, staged]
  simp only [going, Options.conclude]

/-- A directory is to run at no frequency: the frequency is what is complained of, for it is tested first.
Without a window system that would have been the complaint. A program of two bytes is listed all the same. -/
theorem frequency_before_directory :
    let o : Options := { rom := some "a.ch8", cpuHz := .number 0 }
    let listing : Options := { o with disassemble := true }
    let around : Surroundings :=
      { found := fun _ => .directory
        headless := false
        windowSystem := .installed fun _ => none }
    let found (_ : String) : Entry := .file [0x00, 0xE0]
    let bare : Surroundings := { around with windowSystem := .missing }
    parse ["a.ch8", "--cpu-hz=0"] = .ok (.options o) ∧
      Fails o around [] 6 (announced (Refusal.fileUnreadable "a.ch8").raised) ∧
      (∃ outcome, run around ["a.ch8", "--cpu-hz=0"] [] = some outcome ∧ outcome.status = 1 ∧
        outcome.printed = banner ++
          ["\n❌ Error al cargar ROM: Frecuencias inválidas: cpu_hz=0, timer_hz=60"]) ∧
      run { bare with found } ["a.ch8", "--cpu-hz=0"] [{}] = run bare ["a.ch8", "--cpu-hz=0"] [] ∧
      parse ["a.ch8", "--cpu-hz=0", "--disassemble"] = .ok (.options listing) ∧
      ∃ outcome, run { around with found } ["a.ch8", "--cpu-hz=0", "--disassemble"] [] = some outcome ∧
        outcome.status = 0 ∧
        outcome.printed = banner ++ ["\n📦 " ++ (Path.ofString "a.ch8").stem ++ " (" ++
          toString 2 ++ " bytes)\n"] ++ ["200: 00E0  CLS"] := by
  intro o listing around found bare
  have parsed : parse ["a.ch8", "--cpu-hz=0"] = .ok (.options o) := by decide +kernel
  have parsed' : parse ["a.ch8", "--cpu-hz=0", "--disassemble"] = .ok (.options listing) := by
    decide +kernel
  have wrong : Fails o around [] 5 (announced (Refusal.badFrequencies 0 60).raised) :=
    .badFrequency rfl rfl (Int.le_refl 0)
  have first : ∀ p t, Fails o around [] p t → 5 ≤ p := by
    intro p t fails
    cases fails with
    | noPath empty => exact absurd empty (by decide)
    | badScale number stands => cases number; exact absurd stands (by decide)
    | noWindowSystem _ lacks => exact absurd lacks (by decide)
    | noSeed _ empty => cases empty
    | noFrequency _ empty => cases empty
    | _ => decide
  obtain ⟨-, -, checks, -⟩ := command_line_ends parsed (.inr nofun) around []
  obtain ⟨-, -, -, -, -, unread, -⟩ := command_line_ends parsed (.inr nofun) bare []
  obtain ⟨-, -, -, -, listed, -⟩ := command_line_ends parsed' (.inr nofun) { around with found } []
  obtain ⟨outcome, ended, status, lines⟩ := (listed rfl).1
  obtain ⟨complaint, complained, failed, printed⟩ := checks 5 _ wrong first
  have fits : listing.Fits { around with found } [0x00, 0xE0] := ⟨rfl, by decide, by decide⟩
  have zero := status.mpr ⟨by decide, ⟨10, rfl, by decide⟩, _, fits⟩
  refine ⟨parsed, .badProgram .directory, ⟨complaint, complained, failed, ?_⟩,
    (unread rfl).2 rfl rfl found [{}], parsed', outcome, ended, zero, ?_⟩
  · rw [printed]
    decide +kernel
  · have line : disassemble [0x00, 0xE0] 0x200 = ["200: 00E0  CLS"] := by decide +kernel
    rw [lines _ zero rfl, line]
    rfl

end CommandLine

end ChipEight
