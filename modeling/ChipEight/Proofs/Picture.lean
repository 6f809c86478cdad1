import ChipEight.Proofs.Rounds

/-! # The picture and the flag that asks for it

A machine raises a flag when its picture may have changed, and a look lowers it. Every call but a
look either redraws, and then the flag is up, or leaves the screen as it is (`pictured_after`). So
the flag says what has happened since the last look, and a window that shows the picture whenever it
finds the flag up never shows an old one. -/
namespace ChipEight

namespace Instruction

/-- `00E0` is the only word that turns the screen dark. -/
theorem decode_eq_clear_iff {w : Word} : decode w = clear ↔ w = 0x00E0#16 := decode_eq_iff rfl

/-- The words of class D are those that draw. -/
theorem exists_decode_eq_draw_iff {w : Word} :
    (∃ x y height, decode w = draw x y height) ↔ w.opClass = 0xD := by
  constructor
  · rintro ⟨x, y, height, decoded⟩
    exact (encodes_of_decode decoded).1
  · intro opClass
    exact ⟨w.x, w.y, w.n, decode_of_encodes rfl ⟨opClass, rfl, rfl, rfl⟩⟩

variable {m : Machine} {i : Instruction}

theorem execute_display (clears : i ≠ clear) (draws : ∀ x y height, i ≠ draw x y height) :
    (i.execute m).1.display = m.display := by
  cases i with
  | clear => exact absurd rfl clears
  | draw x y height => exact absurd rfl (draws x y height)
  | _ => rfl

end Instruction

namespace Machine

variable {m : Machine}

/-- The single calls after which the picture may be another. -/
inductive Redraws (m : Machine) : Call → Prop
  | clears (running : m.mode = .running) (fetched : m.fetch = 0x00E0#16) : Redraws m .step
  | draws (running : m.mode = .running) (fetched : m.fetch.opClass = 0xD) : Redraws m .step
  | resets : Redraws m .reset
  | loads {data : List Byte} (fits : data.length ≤ 3584) : Redraws m (.load data)

/-- Some single call of the history redraws. -/
def Redrawn (m : Machine) (cs : List Call) : Prop :=
  ∃ j c, (m.unroll cs)[j]? = some c ∧ (m.passed cs j).Redraws c

/-- What a call means for the picture, where `redraws` says what it was. -/
inductive Pictured (m n : Machine) (redraws : Prop) : Prop
  | redrawn (redraws : redraws) (dirty : n.display.dirty = true)
  | kept (still : ¬ redraws) (display : n.display = m.display)

theorem redraws_step_iff : m.Redraws .step ↔ m.mode = .running ∧
    (Instruction.decode m.fetch = .clear ∨
      ∃ x y height, Instruction.decode m.fetch = .draw x y height) := by
  rw [Instruction.decode_eq_clear_iff, Instruction.exists_decode_eq_draw_iff]
  constructor
  · intro h
    cases h with
    | clears running fetched => exact ⟨running, .inl fetched⟩
    | draws running fetched => exact ⟨running, .inr fetched⟩
  · rintro ⟨running, fetched | fetched⟩
    · exact .clears running fetched
    · exact .draws running fetched

theorem proceed_redraws (drawn : Instruction.decode m.fetch = .clear ∨
    ∃ x y height, Instruction.decode m.fetch = .draw x y height) :
    m.proceed.display.dirty = true := by
  unfold proceed
  rcases drawn with fetched | ⟨x, y, height, fetched⟩
  · rw [fetched]
    rfl
  · rw [fetched]
    rfl

theorem pictured_step (m : Machine) : Pictured m (m.after .step) (m.Redraws .step) := by
  rw [after_step]
  have turn := turn_step m
  generalize m.step = out at turn ⊢
  have asleep (other : m.mode ≠ .running) : ¬ m.Redraws .step :=
    fun h => other (redraws_step_iff.mp h).1
  cases turn with
  | halted mode => exact .kept (asleep (mode ▸ nofun)) rfl
  | waits mode empty => exact .kept (asleep (mode ▸ nofun)) rfl
  | resumes mode held => exact .kept (asleep (mode ▸ nofun)) rfl
  | faults mode fault =>
    refine .kept (fun h => ?_) rfl
    obtain ⟨-, clear | ⟨x, y, height, draw⟩⟩ := redraws_step_iff.mp h
    · rw [clear] at fault
      cases fault
    · rw [draw] at fault
      cases fault
  | suspends mode fetched =>
    refine .kept (fun h => ?_) rfl
    rw [redraws_step_iff, fetched] at h
    obtain ⟨-, clear | ⟨x, y, height, draw⟩⟩ := h
    · cases clear
    · cases draw
  | executes mode sound fetched =>
    by_cases drawn : Instruction.decode m.fetch = .clear ∨
        ∃ x y height, Instruction.decode m.fetch = .draw x y height
    · exact .redrawn (redraws_step_iff.mpr ⟨mode, drawn⟩) (proceed_redraws drawn)
    · obtain ⟨clears, draws⟩ := not_or.mp drawn
      refine .kept (fun h => drawn (redraws_step_iff.mp h).2) ?_
      exact Instruction.execute_display clears fun x y height h => draws ⟨x, y, height, h⟩

theorem display_withKey {act : Machine → Nibble → Machine}
    (same : ∀ n, (act m n).display = m.display) (k : Int) :
    (Board.withKey m k act).1.display = m.display := by
  cases key : Keypad.key k with
  | ok n =>
    rw [withKey_of_ok key]
    exact same n
  | error e => rw [Board.withKey, key]

theorem pictured_after {c : Call} (single : c.single = true) (unseen : c ≠ .look) :
    Pictured m (m.after c) (m.Redraws c) := by
  cases c
  case step => exact pictured_step m
  case reset => exact .redrawn .resets rfl
  case load data =>
    by_cases fits : data.length ≤ 3584
    · refine .redrawn (.loads fits) ?_
      rw [after, perform_load_of_fits fits]
      rfl
    · refine .kept (fun h => ?_) ?_
      · cases h with
        | loads fits' => exact fits fits'
      · rw [after, perform_load_of_too_large (Nat.lt_of_not_le fits)]
  case look => exact absurd rfl unseen
  case steps n => cases single
  case run n => cases single
  case ticks n => cases single
  case press k => exact .kept (fun h => by cases h) (display_withKey (fun _ => rfl) k)
  case release k => exact .kept (fun h => by cases h) (display_withKey (fun _ => rfl) k)
  all_goals exact .kept (fun h => by cases h) rfl

/-! ## Between two looks -/

theorem mem_singles {c d : Call} (h : d ∈ c.singles m) : d = c ∨ d = .step ∨ d = .tick := by
  cases c
  case steps n => exact .inr (.inl (List.eq_of_mem_replicate h))
  case run n => exact .inr (.inl (List.eq_of_mem_replicate h))
  case ticks n => exact .inr (.inr (List.eq_of_mem_replicate h))
  all_goals exact .inl (List.mem_singleton.mp h)

theorem look_mem_unroll {cs : List Call} (h : .look ∈ m.unroll cs) : .look ∈ cs := by
  induction cs generalizing m with
  | nil => exact h
  | cons c cs ih =>
    rcases List.mem_append.mp h with first | others
    · rcases mem_singles first with same | step | tick
      · exact same ▸ List.mem_cons_self
      · cases step
      · cases tick
    · exact List.mem_cons_of_mem c (ih others)

/-- Single calls in a row mean for the picture what one of them that redraws means, if there is one.
-/
theorem pictured_singles {ds : List Call} (unseen : .look ∉ ds) (single : ∀ d ∈ ds, d.single = true) :
    Pictured m (m.afterAll ds)
      (∃ j d, ds[j]? = some d ∧ (m.afterAll (ds.take j)).Redraws d) := by
  induction ds generalizing m with
  | nil =>
    refine .kept ?_ rfl
    rintro ⟨j, d, found, -⟩
    cases found
  | cons d ds ih =>
    have others : Pictured (m.after d) _ _ :=
      ih (fun h => unseen (List.mem_cons_of_mem d h)) fun c h => single c (List.mem_cons_of_mem d h)
    have first : Pictured m (m.after d) (m.Redraws d) :=
      pictured_after (single d List.mem_cons_self) fun h => unseen (h ▸ List.mem_cons_self)
    cases others with
    | redrawn redraws dirty =>
      obtain ⟨j, c, found, redraws⟩ := redraws
      exact .redrawn ⟨j + 1, c, found, redraws⟩ dirty
    | kept still display =>
      cases first with
      | redrawn redraws dirty => exact .redrawn ⟨0, d, rfl, redraws⟩ (display.symm ▸ dirty)
      | kept quiet same =>
        refine .kept ?_ (display.trans same)
        rintro ⟨j, c, found, redraws⟩
        cases j with
        | zero =>
          cases found
          exact quiet redraws
        | succ j => exact still ⟨j, c, found, redraws⟩

theorem pictured_afterAll {cs : List Call} (unseen : .look ∉ cs) :
    Pictured m (m.afterAll cs) (m.Redrawn cs) := by
  rw [← afterAll_unroll]
  exact pictured_singles (fun h => unseen (look_mem_unroll h)) fun d mem =>
    (kind_of_mem_unroll (K := fun _ => True) (fun _ _ => trivial) d mem).2

end Machine

/-! ## The window -/

namespace Emulator

/-- The window shows the picture of the machine, or the flag is up. -/
structure Current (e : Emulator) : Prop where
  listens : e.listens = true
  window : ∃ w, e.window = some w ∧ w.palette = Palette.mono ∧
    (e.machine.display.dirty = false → w.lastFrame = some e.machine.display.frame)

theorem current_round {e after : Emulator} {moment : Moment} (h : e.Current)
    (round : e.round moment = some after) :
    after.Current ∧ after.machine.display.dirty = false := by
  obtain ⟨passed, driven, rfl⟩ := round_eq_some h.listens round
  obtain ⟨w, window, mono, shown⟩ := h.window
  obtain ⟨cs, reached, unseen, -⟩ := driven.machine
  have settled := settled_settle (driven.window.trans window) mono
  obtain ⟨w', window', palette, -, -, lastFrame⟩ := settled.window
  have listens : passed.settle.listens = true :=
    (settled.listens.trans driven.listens).trans h.listens
  refine ⟨⟨listens, w', window', palette.trans mono, fun _ => ?_⟩, ?_⟩
  · -- a look changes no pixel
    have same : passed.settle.machine.display.frame = passed.machine.display.frame := by
      rw [settled.machine]
      rfl
    rw [lastFrame, same]
    by_cases dirty : passed.machine.display.dirty = true
    · rw [if_pos dirty]
    · rw [if_neg dirty]
      have pictured := Machine.pictured_afterAll unseen (m := e.machine)
      rw [← reached] at pictured
      cases pictured with
      | redrawn redraws up => exact absurd up dirty
      | kept still display =>
        rw [display] at dirty ⊢
        exact shown (Bool.not_eq_true _ ▸ dirty)
  · rw [settled.machine]
    rfl

theorem Opened.current {setup : Setup} {e : Emulator} (h : Opened setup e) : e.start.Current := by
  obtain ⟨scale, window⟩ := h.window
  obtain ⟨data, -, machine⟩ := h.machine
  refine ⟨h.listens, _, window, rfl, fun dirty => ?_⟩
  have up : e.start.machine.display.dirty = true := by
    change e.machine.display.dirty = true
    rw [machine]
    rfl
  rw [up] at dirty
  cases dirty

/-- Whenever an iteration of the loop is over the window shows what the machine has drawn. -/
theorem Current.rounds {e : Emulator} (h : e.Current) {limit : Option Int} {script : List Moment}
    {r : Round} (mem : r ∈ rounds limit e script) :
    ∃ w, r.after.window = some w ∧ w.lastFrame = some r.after.machine.display.frame := by
  obtain ⟨done, rest, split⟩ := List.append_of_mem mem
  -- the flag is down once an iteration is over
  have start : e.Current ∧ (([] : List Round) ≠ [] → e.machine.display.dirty = false) :=
    ⟨h, fun none => absurd rfl none⟩
  obtain ⟨current, low⟩ := rounds_keeps
    (P := fun past e => e.Current ∧ (past ≠ [] → e.machine.display.dirty = false))
    (fun h round => ⟨(current_round h.1 round).1, fun _ => (current_round h.1 round).2⟩) start split
  obtain ⟨w, window, -, shown⟩ := current.window
  exact ⟨w, window, shown (low (List.cons_ne_nil _ _))⟩

/-- **Nothing drawn is left unshown.** The first look at a machine finds the flag up. A later one
finds it up if the program has turned the screen dark or drawn since the look before, or the machine
was reset or loaded, and otherwise the pixels are those of the look before. After each completed
iteration of a loop with a window, the picture last shown is the picture of the machine, and the loop
has no other completed iterations. -/
theorem nothing_left_unshown :
    (∀ (random : Generator) (cs : List Machine.Call), .look ∉ cs →
      ((Machine.fresh random).afterAll cs).answer .look = .ok (.flag true)) ∧
    (∀ (m : Machine) (cs : List Machine.Call), .look ∉ cs →
      let seen := m.after .look
      let n := seen.afterAll cs
      (n.answer .look = .ok (.flag true) ↔ seen.Redrawn cs) ∧
        (n.answer .look = .ok (.flag false) → n.display.pixels = m.display.pixels)) ∧
    ∀ (setup : Setup) (path : String) (found : Entry) (e : Emulator),
      create setup (some (path, found)) = .ok e → e.window.isSome = true →
      ∀ (limit : Option Int) (script : List Moment),
        (∀ waits last, play limit e.start script = .ok (waits, last) →
          Traced e.start script ((rounds limit e.start script).map (·.after)) waits last) ∧
        ∀ r ∈ rounds limit e.start script,
          ∃ w, r.after.window = some w ∧ w.lastFrame = some r.after.machine.display.frame := by
  refine ⟨fun random cs unseen => ?_, fun m cs unseen => ?_,
    fun setup path found e made windowed limit script =>
      ⟨fun waits last played => play_rounds played, fun r mem => ?_⟩⟩
  · have up : ((Machine.fresh random).afterAll cs).display.dirty = true := by
      cases Machine.pictured_afterAll unseen (m := Machine.fresh random) with
      | redrawn redraws dirty => exact dirty
      | kept still display => rw [display]; rfl
    exact congrArg (Except.ok ∘ Answer.flag) up
  · intro seen n
    have answer : n.answer .look = .ok (.flag n.display.dirty) := rfl
    have low : seen.display.dirty = false := rfl
    rw [answer]
    have pictured : Machine.Pictured seen n (seen.Redrawn cs) := Machine.pictured_afterAll unseen
    cases pictured with
    | redrawn redraws dirty =>
      rw [dirty]
      exact ⟨⟨fun _ => redraws, fun _ => rfl⟩, nofun⟩
    | kept still display =>
      rw [display, low]
      exact ⟨⟨nofun, fun redraws => absurd redraws still⟩, fun _ => rfl⟩
  · exact (opened_create made windowed).current.rounds mem

/-- A machine whose program turns the screen dark once, and the window of an emulator that runs a
program which draws, through three iterations: one of no frames, one of three, and one of one frame.
-/
theorem nothing_left_unshown_in_frames :
    let m := (Machine.fresh (Generator.ofSeed 0)).afterAll [.load [0x00, 0xE0, 0x12, 0x02], .tick]
    let cs : List Machine.Call := [.press 3, .run 2]
    let ds : List Machine.Call := [.run 5, .tick]
    let n := (m.after .look).afterAll cs
    let setup : Setup := { windowScale := some 2 }
    let data : List Byte := [0xD0, 0x05, 0x12, 0x00]
    let script : List Moment := [⟨[], .elapsed 3⟩, ⟨[], .elapsed 50⟩, ⟨[], .elapsed 17⟩]
    m.answer .look = .ok (.flag true) ∧
      n.answer .look = .ok (.flag true) ∧ (m.after .look).Redrawn cs ∧
      ((n.after .look).afterAll ds).answer .look = .ok (.flag false) ∧
      ((n.after .look).afterAll ds).display.pixels = n.display.pixels ∧
      ∃ e, create setup (some ("a.ch8", .file data)) = .ok e ∧
        (rounds none e.start script).length = 3 ∧
        ∀ r ∈ rounds none e.start script,
          ∃ w, r.after.window = some w ∧ w.lastFrame = some r.after.machine.display.frame := by
  intro m cs ds n setup data script
  obtain ⟨first, later, window⟩ := nothing_left_unshown
  have up : n.answer .look = .ok (.flag true) := by decide +kernel
  have low : ((n.after .look).afterAll ds).answer .look = .ok (.flag false) := by decide +kernel
  refine ⟨first _ [.load [0x00, 0xE0, 0x12, 0x02], .tick] (by decide), up,
    (later m cs (by decide)).1.mp up, low, (later n ds (by decide)).2 low, _, rfl, ?_,
    (window setup "a.ch8" (.file data) _ rfl rfl none script).2⟩
  decide +kernel

end Emulator

end ChipEight
