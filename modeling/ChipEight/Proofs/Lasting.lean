import ChipEight.Emulator.Live
import ChipEight.Proofs.Exits
import ChipEight.Proofs.Headless

/-! # How long a run lasts

A run that is given no limit goes on until something that it meets stops it (`going_iff`): an interrupt or
an error, and with a window an input that ends it or an interval that cannot be counted. What nothing
breaks off is a run as it is made without a window, frame after frame (`live_of_headless`), or as a script
leads through it (`live_of_play`). -/
namespace ChipEight

theorem bind_eq_ok {ε α β : Type} {x : Except ε α} {f : α → Except ε β} {b : β} :
    (x >>= f) = .ok b ↔ ∃ a, x = .ok a ∧ f a = .ok b := by
  cases x with
  | error e => exact ⟨nofun, nofun⟩
  | ok a => exact ⟨fun h => ⟨a, rfl, h⟩, fun ⟨_, same, h⟩ => Except.ok.inj same ▸ h⟩

theorem mapError_eq_ok {ε ε' α : Type} {x : Except ε α} {f : ε → ε'} {a : α} :
    x.mapError f = .ok a ↔ x = .ok a := by
  cases x with
  | error e => exact ⟨nofun, nofun⟩
  | ok b => simp only [Except.mapError, Except.ok.injEq]

namespace Emulator

open Keyboard (Input)

variable {e e' : Emulator} {limit : Option Int} {met : Encounter}

/-- Whether what an iteration meets ends a run. -/
def Encounter.stops (met : Encounter) (windowed : Bool) : Bool :=
  met.cut.isSome || windowed && (met.inputs.any Input.stops || !(Interval.ofMillis met.millis).isOk)

/-! ## One iteration -/

theorem reach_eq_ok {place : Place} (reached : met.reach place e = .ok e') :
    e = e' ∧ ∀ error, met.cut ≠ some (place, error) := by
  unfold Encounter.reach at reached
  cases cut : met.cut with
  | none =>
    rw [cut] at reached
    cases reached
    exact ⟨rfl, nofun⟩
  | some cut' =>
    obtain ⟨other, error⟩ := cut'
    simp only [cut] at reached
    split at reached
    · cases reached
    · rename_i past
      cases reached
      refine ⟨rfl, fun _ same => past ?_⟩
      cases same
      rfl

/-- An iteration that is not the last is not broken off anywhere. -/
theorem turn_eq_ok (turned : turn limit e met = .ok e') : met.cut = none ∧
    ∃ heard passed, e.attend met.inputs = .ok heard ∧ heard.pass met.millis = .ok passed ∧
      passed.settle.isComplete limit = false ∧ e' = passed.settle := by
  obtain ⟨_, reached, turned⟩ := bind_eq_ok.mp turned
  obtain ⟨rfl, inputs⟩ := reach_eq_ok reached
  obtain ⟨heard, attends, turned⟩ := bind_eq_ok.mp turned
  obtain ⟨_, reached, turned⟩ := bind_eq_ok.mp turned
  obtain ⟨rfl, wait⟩ := reach_eq_ok reached
  obtain ⟨passed, passes, turned⟩ := bind_eq_ok.mp turned
  obtain ⟨_, reached, turned⟩ := bind_eq_ok.mp turned
  obtain ⟨rfl, tone⟩ := reach_eq_ok reached
  obtain ⟨_, reached, turned⟩ := bind_eq_ok.mp turned
  obtain ⟨rfl, picture⟩ := reach_eq_ok reached
  refine ⟨?_, heard, passed, attends, passes, ?_⟩
  · rcases cut : met.cut with _ | ⟨place, error⟩
    · rfl
    · cases place with
      | inputs => exact absurd cut (inputs error)
      | wait => exact absurd cut (wait error)
      | tone => exact absurd cut (tone error)
      | picture => exact absurd cut (picture error)
  · change (if passed.settle.isComplete limit then _ else _) = _ at turned
    split at turned
    · cases turned
    · rename_i short
      exact ⟨eq_false_of_ne_true short, (Except.ok.inj turned).symm⟩

/-! How an iteration turns out, by the first of its parts that does not go on. -/

section Parts

variable {heard passed : Emulator} {last : Over} (inputs : met.reach .inputs e = .ok e)
include inputs

theorem turn_of_left (left : e.attend met.inputs = .error last) : turn limit e met = .error last := by
  simp only [turn, inputs, left, bind, Except.bind]

variable (attends : e.attend met.inputs = .ok heard)
include attends

theorem turn_of_cut (cut : met.reach .wait heard = .error last) : turn limit e met = .error last := by
  simp only [turn, inputs, attends, cut, bind, Except.bind]

variable (wait : met.reach .wait heard = .ok heard)
include wait

theorem turn_of_uncounted (uncounted : heard.pass met.millis = .error last) :
    turn limit e met = .error last := by
  simp only [turn, inputs, attends, wait, uncounted, bind, Except.bind]

end Parts

theorem reach_of_whole (whole : met.cut = none) (place : Place) (e : Emulator) :
    met.reach place e = .ok e := by
  rw [Encounter.reach, whole]

theorem turn_of_whole {heard passed : Emulator} (whole : met.cut = none)
    (attends : e.attend met.inputs = .ok heard) (passes : heard.pass met.millis = .ok passed) :
    turn limit e met =
      if passed.settle.isComplete limit then .error ⟨passed.settle, none⟩ else .ok passed.settle := by
  unfold turn
  simp only [reach_of_whole whole, attends, passes, bind, Except.bind]
  rfl

/-- What stays the same from one iteration to the next. -/
structure Stays (e e' : Emulator) : Prop where
  window : e'.window.isSome = e.window.isSome
  listens : e'.listens = e.listens

theorem Stays.settle (h : Stays e e') : Stays e e'.settle :=
  ⟨(window_settle e').trans h.window, (listens_settle e').trans h.listens⟩

theorem isOk_ofMillis {millis : Int} (counted : (Interval.ofMillis millis).isOk = true)
    (e : Emulator) : ∃ passed, e.passMillis millis = .ok passed := by
  cases interval : Interval.ofMillis millis with
  | error refusal =>
    rw [interval] at counted
    cases counted
  | ok micros => exact ⟨_, passMillis_eq interval⟩

theorem turn_of_goesOn (goesOn : met.stops e.window.isSome = false)
    (listens : e.window.isSome = true → e.listens = true) :
    ∃ e', turn none e met = .ok e' ∧ Stays e e' := by
  obtain ⟨whole, goesOn⟩ := Bool.or_eq_false_iff.mp goesOn
  have whole : met.cut = none := Option.isSome_eq_false_iff.mp whole |> Option.isNone_iff_eq_none.mp
  cases windowed : e.window.isSome with
  | false =>
    have attends : e.attend met.inputs = .ok e := by
      simp [attend, windowed]
    have passes : e.pass met.millis = .ok e.passFrame := by
      simp [pass, windowed]
    exact ⟨_, turn_of_whole whole attends passes, Stays.settle ⟨rfl, rfl⟩⟩
  | true =>
    rw [windowed, Bool.true_and] at goesOn
    obtain ⟨inputs, counted⟩ := Bool.or_eq_false_iff.mp goesOn
    have inputs : ∀ input ∈ met.inputs, input.stops = false := by simpa using inputs
    have handled := handleAll_of_not_stops (e := e) inputs
    have driven := driven_handleAll (listens windowed) handled
    have attends : e.attend met.inputs = .ok (e.handleAll met.inputs).1 := by
      rw [attend, if_pos windowed, handled]
    have shown : (e.handleAll met.inputs).1.window.isSome = true := by rw [driven.window, windowed]
    obtain ⟨passed, passes⟩ := isOk_ofMillis (by simpa using counted) (e.handleAll met.inputs).1
    have later := driven.trans (driven_passMillis passes)
    have passes : (e.handleAll met.inputs).1.pass met.millis = .ok passed := by
      rw [pass, if_pos shown, passes]
    refine ⟨_, turn_of_whole whole attends passes, Stays.settle ⟨?_, later.listens⟩⟩
    rw [later.window]

theorem not_stops_of_turn (listens : e.window.isSome = true → e.listens = true)
    (turned : turn none e met = .ok e') : met.stops e.window.isSome = false := by
  obtain ⟨whole, heard, passed, attends, passes, -⟩ := turn_eq_ok turned
  rw [Encounter.stops, whole]
  cases windowed : e.window.isSome with
  | false => rfl
  | true =>
    unfold attend at attends
    rw [if_pos windowed] at attends
    rcases handled : e.handleAll met.inputs with ⟨next, _ | _⟩
    · rw [handled] at attends
      cases attends
    rw [handled] at attends
    cases attends
    have inputs := not_stops_of_handleAll (listens windowed) handled
    have shown : heard.window.isSome = true := by
      rw [(driven_handleAll (listens windowed) handled).window, windowed]
    unfold pass at passes
    rw [if_pos shown] at passes
    cases millis : heard.passMillis met.millis with
    | error refusal =>
      rw [millis] at passes
      cases passes
    | ok _ =>
      obtain ⟨micros, counted, -⟩ := passMillis_eq_ok millis
      simpa [counted, Except.isOk, Except.toBool] using inputs

/-! ## A run -/

/-- A loop without a limit goes on as long as nothing stops it. -/
theorem live_goesOn_iff (listens : e.window.isSome = true → e.listens = true) (met : List Encounter) :
    (∃ now, live none e met = .ok now) ↔ ∀ m ∈ met, m.stops e.window.isSome = false := by
  induction met generalizing e with
  | nil => exact ⟨fun _ => nofun, fun _ => ⟨e, rfl⟩⟩
  | cons m met ih =>
    have later : live none e (m :: met) = turn none e m >>= fun e => live none e met := rfl
    rw [List.forall_mem_cons, later]
    constructor
    · rintro ⟨now, lives⟩
      obtain ⟨next, turned, lives⟩ := bind_eq_ok.mp lives
      have first := not_stops_of_turn listens turned
      obtain ⟨next', turned', stays⟩ := turn_of_goesOn first listens
      obtain rfl := Except.ok.inj (turned'.symm.trans turned)
      have others := (ih fun shown => stays.listens.trans (listens (stays.window.symm.trans shown))).mp
        ⟨now, lives⟩
      rw [stays.window] at others
      exact ⟨first, others⟩
    · rintro ⟨first, others⟩
      obtain ⟨next, turned, stays⟩ := turn_of_goesOn first listens
      rw [← stays.window] at others
      obtain ⟨now, lives⟩ :=
        (ih fun shown => stays.listens.trans (listens (stays.window.symm.trans shown))).mpr others
      exact ⟨now, bind_eq_ok.mpr ⟨next, turned, lives⟩⟩

theorem course_eq (program : e.rom.isSome = true) (limit : Option Int) (met : List Encounter) :
    e.course limit met = (live limit e.start met).mapError Over.finish := by
  obtain ⟨rom, present⟩ := Option.isSome_iff_exists.mp program
  simp only [course, present]

/-- A run without a limit goes on as long as nothing stops it. -/
theorem going_iff (program : e.rom.isSome = true) (listens : e.window.isSome = true → e.listens = true)
    (met : List Encounter) :
    (∃ now, e.course none met = .ok now) ↔ ∀ m ∈ met, m.stops e.window.isSome = false := by
  simp only [course_eq program, mapError_eq_ok]
  exact live_goesOn_iff (e := e.start) listens met

/-- What is over stays so, whatever else might have been met. -/
theorem course_append {last : Over} {met : List Encounter} (ended : e.course limit met = .error last)
    (later : List Encounter) : e.course limit (met ++ later) = .error last := by
  unfold course at ended ⊢
  cases present : e.rom with
  | none => simpa only [present] using ended
  | some rom =>
    simp only [present] at ended ⊢
    have split : live limit e.start (met ++ later) =
        live limit e.start met >>= fun e => live limit e later := List.foldlM_append
    rw [split]
    cases lives : live limit e.start met with
    | ok now =>
      rw [lives] at ended
      cases ended
    | error first =>
      rw [lives] at ended
      exact ended

/-! ## The same run told in other ways -/

theorem turn_of_headless (headless : e.window = none) (whole : met.cut = none) :
    turn limit e met =
      if e.iterate.isComplete limit then .error ⟨e.iterate, none⟩ else .ok e.iterate := by
  have closed : ¬ e.window.isSome = true := by
    rw [headless]
    exact nofun
  exact turn_of_whole whole (if_neg closed) (if_neg closed)

/-- Without a window a run passes frame after frame. -/
theorem live_of_headless (headless : e.window = none) (met : List Encounter)
    (whole : ∀ m ∈ met, m.cut = none) : live none e met = .ok (e.iterations met.length) := by
  induction met generalizing e with
  | nil => rfl
  | cons m met ih =>
    obtain ⟨first, others⟩ := List.forall_mem_cons.mp whole
    refine bind_eq_ok.mpr ⟨e.iterate, turn_of_headless headless first, ?_⟩
    exact ih (headless_iterate headless) others

/-- What an iteration of a script meets. -/
def Moment.encounter : Moment → Encounter
  | ⟨inputs, .elapsed millis⟩ => { inputs, millis }
  | ⟨inputs, .interrupt⟩ => { inputs, cut := some (.wait, none) }

/-- With a window a run goes through a script and comes to the same. -/
theorem live_of_play (windowed : e.window.isSome = true) (listens : e.listens = true)
    (script : List Moment) :
    match play limit e script with
    | .ok (_, last) => live limit e (script.map Moment.encounter) = .ok last ∨
        live limit e (script.map Moment.encounter) = .error ⟨last, none⟩
    | .error refusal => ∃ last,
        live limit e (script.map Moment.encounter) = .error ⟨last, some refusal.raised⟩ := by
  induction script generalizing e with
  | nil => exact .inl rfl
  | cons moment script ih =>
    have later : live limit e ((moment :: script).map Moment.encounter) =
        turn limit e moment.encounter >>= fun e => live limit e (script.map Moment.encounter) := rfl
    have turn := moment.turn
    rw [later, play]
    cases turn with
    | @stopped before behind stop wait goesOn stops =>
      have handled : e.handleAll (before ++ stop :: behind) = ((e.handleAll before).1, false) :=
        handleAll_of_stops listens goesOn stops
      have left : e.attend (before ++ stop :: behind) = .error ⟨(e.handleAll before).1, none⟩ := by
        rw [attend, if_pos windowed, handled]
      have turned : Emulator.turn limit e (Moment.encounter ⟨before ++ stop :: behind, wait⟩) =
          .error ⟨(e.handleAll before).1, none⟩ := by
        cases wait with
        | _ => exact turn_of_left rfl left
      rw [handled, turned]
      exact .inr rfl
    | @interrupted inputs goesOn =>
      have handled := handleAll_of_not_stops (e := e) goesOn
      have attends : e.attend inputs = .ok (e.handleAll inputs).1 := by
        rw [attend, if_pos windowed, handled]
      have turned : Emulator.turn limit e (Moment.encounter ⟨inputs, .interrupt⟩) =
          .error ⟨(e.handleAll inputs).1, none⟩ :=
        turn_of_cut rfl attends rfl
      rw [handled, turned]
      exact .inr rfl
    | @goesOn inputs millis goesOn =>
      have handled := handleAll_of_not_stops (e := e) goesOn
      have driven := driven_handleAll listens handled
      have attends : e.attend inputs = .ok (e.handleAll inputs).1 := by
        rw [attend, if_pos windowed, handled]
      have shown : (e.handleAll inputs).1.window.isSome = true := by rw [driven.window, windowed]
      rw [handled]
      cases passes : (e.handleAll inputs).1.passMillis millis with
      | error refusal =>
        have uncounted : (e.handleAll inputs).1.pass millis =
            .error ⟨(e.handleAll inputs).1, some refusal.raised⟩ := by
          rw [pass, if_pos shown, passes]
        have turned : Emulator.turn limit e (Moment.encounter ⟨inputs, .elapsed millis⟩) =
            .error ⟨(e.handleAll inputs).1, some refusal.raised⟩ :=
          turn_of_uncounted rfl attends rfl uncounted
        simp only [passes, turned]
        exact ⟨_, rfl⟩
      | ok passed =>
        have pays : (e.handleAll inputs).1.pass millis = .ok passed := by
          rw [pass, if_pos shown, passes]
        have turned : Emulator.turn limit e (Moment.encounter ⟨inputs, .elapsed millis⟩) =
            if passed.settle.isComplete limit then .error ⟨passed.settle, none⟩
            else .ok passed.settle :=
          turn_of_whole rfl attends pays
        have later := driven.trans (driven_passMillis passes)
        have stays : Stays e passed.settle := .settle ⟨congrArg Option.isSome later.window, later.listens⟩
        simp only [passes, turned]
        by_cases complete : passed.settle.isComplete limit = true
        · rw [if_pos complete, if_pos complete]
          exact .inr rfl
        · rw [if_neg complete, if_neg complete]
          have others := ih (stays.window.trans windowed) (stays.listens.trans listens)
          cases played : play limit passed.settle script with
          | error refusal =>
            rw [played] at others
            exact others
          | ok result =>
            rw [played] at others
            exact others

theorem live_of_limit {limit : Int} {n : Nat} (headless : e.window = none)
    (due : max 1 (limit - e.frameCount).toNat = n + 1) :
    live (some limit) e (List.replicate (n + 1) {}) = .error ⟨e.iterations (n + 1), none⟩ := by
  induction n generalizing e with
  | zero =>
    have last : e.iterate.isComplete (some limit) = true := by
      refine decide_eq_true ?_
      rw [frameCount_iterate]
      omega
    have turned : turn (some limit) e {} = .error ⟨e.iterate, none⟩ := by
      rw [turn_of_headless headless rfl, if_pos last]
    rw [List.replicate_succ, live, List.foldlM_cons, turned]
    rfl
  | succ n ih =>
    have count := frameCount_iterate e
    have short : ¬ e.iterate.isComplete (some limit) = true := fun complete => by
      have reached : limit ≤ e.iterate.frameCount := of_decide_eq_true complete
      omega
    have turned : turn (some limit) e {} = .ok e.iterate := by
      rw [turn_of_headless headless rfl, if_neg short]
    rw [List.replicate_succ, live, List.foldlM_cons, turned]
    exact ih (headless_iterate headless) (by omega)

/-- A run without a window, and with a limit. -/
theorem course_of_run (headless : e.window = none) (limit : Int) :
    match e.run limit with
    | .ok last =>
      e.course (some limit) (List.replicate (max 1 limit.toNat) {}) = .error ⟨last, none⟩
    | .error refusal => ∀ met, e.course (some limit) met = .error ⟨e, some refusal.raised⟩ := by
  cases present : e.rom with
  | none => simp only [run, course, present, implies_true]
  | some rom =>
    have program : e.rom.isSome = true := by rw [present]; rfl
    obtain ⟨n, due⟩ : ∃ n, max 1 limit.toNat = n + 1 := ⟨max 1 limit.toNat - 1, by omega⟩
    have lives : live (some limit) e.start (List.replicate (n + 1) {}) =
        .error ⟨e.start.iterations (n + 1), none⟩ := by
      refine live_of_limit headless ?_
      rw [← due, show e.start.frameCount = 0 from rfl]
      simp
    simp only [run, present]
    rw [course_eq program, due, lives]
    rfl

/-- A run with a window that goes through a script. -/
theorem course_of_runScript (windowed : e.window.isSome = true) (listens : e.listens = true)
    (script : List Moment) :
    match e.runScript limit script with
    | .ok (_, last) =>
      (∃ now, e.course limit (script.map Moment.encounter) = .ok now ∧ now.finish = last) ∨
        e.course limit (script.map Moment.encounter) = .error ⟨last, none⟩
    | .error refusal => ∃ last,
        e.course limit (script.map Moment.encounter) = .error ⟨last, some refusal.raised⟩ := by
  cases present : e.rom with
  | none =>
    simp only [runScript, course, present]
    exact ⟨e, rfl⟩
  | some rom =>
    have program : e.rom.isSome = true := by rw [present]; rfl
    have lives := @live_of_play e.start limit windowed listens script
    rw [course_eq program, runScript_eq program]
    cases played : play limit e.start script with
    | error refusal =>
      rw [played] at lives
      obtain ⟨last, lives⟩ := lives
      simp only [lives]
      exact ⟨last.finish, rfl⟩
    | ok result =>
      rw [played] at lives
      rcases lives with goes | ends
      · simp only [goes]
        exact .inl ⟨_, rfl, rfl⟩
      · simp only [ends]
        exact .inr rfl

end Emulator

end ChipEight
