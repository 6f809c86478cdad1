import ChipEight.Proofs.Delivery
import ChipEight.Proofs.Footprint
import ChipEight.Proofs.LastWord
import ChipEight.Proofs.Loading

/-! # What reaches the machine from the keyboard

Inputs arrive between the steps and ticks of the machine (`Happening`). A key of the machine is down if
the code that stands for it went down last, unless the program has been started again since
(`isDown_happenings`). As long as it is not started again, what happens is a list of moves of the machine
(`machine_happenings`), and what is known of waits for a key holds for the codes that go down
(`takenSince_of_awaiting`). -/
namespace ChipEight

/-! ## Codes and keys -/

namespace Keyboard

/-- The code that stands for a key. -/
def code (k : Nibble) : Int := ((keyMap.find? fun (_, key) => key == k).map (·.1)).getD 0

theorem key?_code (k : Nibble) : key? (code k) = some k := by
  revert k
  decide

/-- Codes and keys are matched one to one. -/
theorem key?_eq_some_iff {c : Int} {k : Nibble} : key? c = some k ↔ c = code k := by
  constructor
  · intro found
    have coded : ∀ entry ∈ keyMap, entry.1 = code entry.2 := by decide
    obtain ⟨entry, first, rfl⟩ := Option.map_eq_some_iff.mp found
    have hit : entry.1 = c := by simpa using List.find?_some first
    rw [← hit]
    exact coded entry (List.mem_of_find?_eq_some first)
  · rintro rfl
    exact key?_code k

theorem code_inj {j k : Nibble} : code j = code k ↔ j = k := by
  refine ⟨fun same => ?_, congrArg code⟩
  have key := key?_code j
  rw [same, key?_code] at key
  exact (Option.some.inj key).symm

theorem code_ne (k : Nibble) : code k ≠ escape ∧ code k ≠ restart := by
  revert k
  decide

/-- Whether an input means nothing to the machine. -/
def Input.Idle : Input → Prop
  | quit | other => True
  | keyDown c => c ≠ restart ∧ key? c = none
  | keyUp c => key? c = none

theorem Input.cases (input : Input) : input = .keyDown restart ∨ (∃ k, input = .keyDown (code k)) ∨
    (∃ k, input = .keyUp (code k)) ∨ input.Idle := by
  cases input with
  | quit => exact .inr (.inr (.inr trivial))
  | other => exact .inr (.inr (.inr trivial))
  | keyUp c =>
    cases key : key? c with
    | none => exact .inr (.inr (.inr key))
    | some k => exact .inr (.inr (.inl ⟨k, by rw [key?_eq_some_iff.mp key]⟩))
  | keyDown c =>
    by_cases again : c = restart
    · exact .inl (by rw [again])
    · cases key : key? c with
      | none => exact .inr (.inr (.inr ⟨again, key⟩))
      | some k => exact .inr (.inl ⟨k, by rw [key?_eq_some_iff.mp key]⟩)

end Keyboard

namespace Emulator

open Keyboard (Input code)

variable {e e' : Emulator} {input : Input} {k y : Nibble}

theorem handle_keyDown (listens : e.listens = true) (k : Nibble) :
    ∃ monitor, e.handle (.keyDown (code k)) = ({ e with monitor }, true) ∧
      monitor.machine = e.machine.press k := by
  obtain ⟨noEscape, noRestart⟩ := Keyboard.code_ne k
  refine ⟨Board.press (e.note (.hostKey true (code k) k)).monitor k, ?_,
    congrArg Monitor.machine (Board.press_eq _ k)⟩
  rw [handle, if_pos listens]
  simp only [if_neg noEscape, if_neg noRestart, Keyboard.key?_code]
  rfl

theorem handle_keyUp (listens : e.listens = true) (k : Nibble) :
    ∃ monitor, e.handle (.keyUp (code k)) = ({ e with monitor }, true) ∧
      monitor.machine = e.machine.release k := by
  refine ⟨Board.release (e.note (.hostKey false (code k) k)).monitor k, ?_, rfl⟩
  rw [handle, if_pos listens]
  simp only [Keyboard.key?_code]
  rfl

theorem handle_restartKey (listens : e.listens = true) : e.handle restartKey = (e.restart, true) := by
  simp only [handle, restartKey, listens, if_true]
  rfl

theorem handle_idle (idle : input.Idle) : (e.handle input).1 = e := by
  unfold handle
  split
  · cases input with
    | quit => rfl
    | other => rfl
    | keyUp c => simp only [show Keyboard.key? c = none from idle]
    | keyDown c =>
      simp only [if_neg idle.1, idle.2]
      split <;> rfl
  · rfl

theorem handle_stops_iff (listens : e.listens = true) :
    (e.handle input).2 = false ↔ input = .quit ∨ input = .keyDown Keyboard.escape := by
  have stops_iff : input.stops = true ↔ input = .quit ∨ input = .keyDown Keyboard.escape := by
    cases input <;> simp [Input.stops]
  rw [← stops_iff]
  cases stop : input.stops with
  | true => simp [handle_of_stops listens stop]
  | false =>
    rw [handle_of_not_stops stop]
    simp

/-! ## What happens to an emulator -/

/-- What happens to an emulator between two looks at it. -/
inductive Happening
  | hears (input : Input)
  | step
  | tick
deriving DecidableEq

namespace Happening

/-- The call that makes it happen. -/
def call : Happening → Call
  | hears input => .handle input
  | step => .machine .step
  | tick => .machine .tick

/-- The move that it is for the machine, if the program is not started again. -/
def move : Happening → Option Machine.Move
  | hears (.keyDown c) => (Keyboard.key? c).map .press
  | hears (.keyUp c) => (Keyboard.key? c).map .release
  | hears _ => none
  | step => some .step
  | tick => some .tick

/-- Whether it leaves a key down or up, if it moves the key. -/
def leaves (k : Nibble) : Happening → Option Bool
  | hears (.keyDown c) =>
    if c = Keyboard.restart then some false else if c = code k then some true else none
  | hears (.keyUp c) => if c = code k then some false else none
  | _ => none

/-- Neither does a key go down nor is the program started again. -/
def Quiet (h : Happening) : Prop :=
  h ≠ .hears restartKey ∧ ∀ k, h ≠ .hears (.keyDown (code k))

/-- Neither is there a step nor is the program started again. -/
def Still (h : Happening) : Prop := h ≠ .hears restartKey ∧ h ≠ .step

instance (h : Happening) : Decidable h.Quiet :=
  inferInstanceAs (Decidable (_ ∧ ∀ k, h ≠ .hears (.keyDown (code k))))

instance (h : Happening) : Decidable h.Still := inferInstanceAs (Decidable (_ ∧ _))

theorem move_keyDown (k : Nibble) : (hears (.keyDown (code k))).move = some (.press k) := by
  rw [move, Keyboard.key?_code, Option.map_some]

theorem move_eq_step {h : Happening} (steps : h.move = some .step) : h = .step := by
  cases h with
  | step => rfl
  | tick => cases steps
  | hears i => cases i <;> simp [move] at steps

theorem move_eq_press {h : Happening} (presses : h.move = some (.press k)) :
    h = .hears (.keyDown (code k)) := by
  cases h with
  | step => cases presses
  | tick => cases presses
  | hears i =>
    cases i with
    | keyDown c =>
      obtain ⟨j, key, same⟩ := Option.map_eq_some_iff.mp presses
      cases same
      rw [Keyboard.key?_eq_some_iff.mp key]
    | keyUp c => simp [move] at presses
    | quit => cases presses
    | other => cases presses

theorem move_of_idle (idle : input.Idle) : (hears input).move = none := by
  cases input with
  | keyDown c => rw [move, idle.2, Option.map_none]
  | keyUp c => rw [move, show Keyboard.key? c = none from idle, Option.map_none]
  | _ => rfl

theorem leaves_of_idle (idle : input.Idle) (k : Nibble) : (hears input).leaves k = none := by
  have key {c : Int} (none : Keyboard.key? c = none) : c ≠ code k := fun same => by
    rw [same, Keyboard.key?_code] at none
    cases none
  cases input with
  | keyDown c => rw [leaves, if_neg idle.1, if_neg (key idle.2)]
  | keyUp c => rw [leaves, if_neg (key idle)]
  | _ => rfl

theorem leaves_eq_true_iff (k : Nibble) (h : Happening) :
    h.leaves k = some true ↔ h = .hears (.keyDown (code k)) := by
  cases h with
  | hears i =>
    cases i with
    | keyDown c =>
      by_cases again : c = Keyboard.restart
      · simp [leaves, again, (Keyboard.code_ne k).2.symm]
      · simp [leaves, again]
    | _ => simp [leaves]
  | _ => simp [leaves]

theorem leaves_eq_false_iff (k : Nibble) (h : Happening) :
    h.leaves k = some false ↔ h = .hears (.keyUp (code k)) ∨ h = .hears restartKey := by
  cases h with
  | hears i => cases i <;> simp [leaves, restartKey]
  | _ => simp [leaves]

end Happening

/-- The emulator after something has happened. -/
def undergo (e : Emulator) (h : Happening) : Emulator := e.after h.call

/-- The emulator after things have happened in a row. -/
def happenings (e : Emulator) (hs : List Happening) : Emulator := hs.foldl undergo e

theorem happenings_append (e : Emulator) (hs gs : List Happening) :
    e.happenings (hs ++ gs) = (e.happenings hs).happenings gs := List.foldl_append

theorem listens_undergo (e : Emulator) (h : Happening) : (e.undergo h).listens = e.listens := by
  cases h with
  | hears i => exact (sameRun_handle e i).listens
  | _ => rfl

theorem listens_happenings (e : Emulator) (hs : List Happening) :
    (e.happenings hs).listens = e.listens := by
  induction hs generalizing e with
  | nil => rfl
  | cons h hs ih => exact (ih (e.undergo h)).trans (listens_undergo e h)

theorem machine_undergo_step (e : Emulator) : (e.undergo .step).machine = e.machine.after .step :=
  Board.machine_perform e.monitor .step

theorem machine_undergo_tick (e : Emulator) : (e.undergo .tick).machine = e.machine.after .tick :=
  Board.machine_perform e.monitor .tick

theorem machine_undergo_keyDown (listens : e.listens = true) (k : Nibble) :
    (e.undergo (.hears (.keyDown (code k)))).machine = e.machine.press k := by
  obtain ⟨monitor, handled, machine⟩ := handle_keyDown listens k
  exact (congrArg (fun r => r.1.machine) handled).trans machine

theorem machine_undergo_keyUp (listens : e.listens = true) (k : Nibble) :
    (e.undergo (.hears (.keyUp (code k)))).machine = e.machine.release k := by
  obtain ⟨monitor, handled, machine⟩ := handle_keyUp listens k
  exact (congrArg (fun r => r.1.machine) handled).trans machine

theorem undergo_restartKey (listens : e.listens = true) :
    e.undergo (.hears restartKey) = e.restart := congrArg Prod.fst (handle_restartKey listens)

theorem undergo_idle (idle : input.Idle) : e.undergo (.hears input) = e := handle_idle idle

/-! ## Keys that are down -/

/-- A machine that is started again runs, and its keys are up. -/
theorem restart_runs (e : Emulator) : e.restart.machine.mode = .running ∧
    ∀ k, e.restart.machine.keypad.isDown k = false := by
  rw [(started_restart e).machine]
  rcases after_restartCall e with reset | ⟨data, loaded⟩
  · rw [reset]
    exact ⟨rfl, fun k => Table.get_fill false k⟩
  · rw [loaded]
    exact ⟨rfl, fun k => Table.get_fill false k⟩

theorem isDown_undergo (k : Nibble) (e : Emulator) (h : Happening) (listens : e.listens = true) :
    (e.undergo h).machine.keypad.isDown k = (h.leaves k).getD (e.machine.keypad.isDown k) := by
  cases h with
  | step =>
    rw [machine_undergo_step, Machine.after_step]
    exact congrArg (·.get k) (Machine.step_keys e.machine)
  | tick => rw [machine_undergo_tick]; rfl
  | hears i =>
    rcases i.cases with rfl | ⟨j, rfl⟩ | ⟨j, rfl⟩ | idle
    · have up := (restart_runs e).2 k
      rwa [← undergo_restartKey listens] at up
    · rw [machine_undergo_keyDown listens, Happening.leaves, if_neg (Keyboard.code_ne j).2]
      simp only [Machine.press, Keypad.press, Keypad.isDown, Table.get_set, Keyboard.code_inj]
      split <;> rfl
    · rw [machine_undergo_keyUp listens, Happening.leaves]
      simp only [Machine.release, Keypad.release, Keypad.isDown, Table.get_set, Keyboard.code_inj]
      split <;> rfl
    · rw [undergo_idle idle, Happening.leaves_of_idle idle]
      rfl

/-- The code for a key has gone down, and since then neither come up nor has the program been started
again. -/
def Struck (k : Nibble) (hs : List Happening) : Prop :=
  ∃ before later, hs = before ++ .hears (.keyDown (code k)) :: later ∧
    .hears (.keyUp (code k)) ∉ later ∧ .hears restartKey ∉ later

theorem isDown_happenings (listens : e.listens = true) (hs : List Happening) (k : Nibble) :
    (e.happenings hs).machine.keypad.isDown k = true ↔ Struck k hs ∨
      e.machine.keypad.isDown k = true ∧ .hears (.keyUp (code k)) ∉ hs ∧ .hears restartKey ∉ hs := by
  have last : (e.happenings hs).machine.keypad.isDown k =
      (lastWord (Happening.leaves k) hs).getD (e.machine.keypad.isDown k) :=
    foldl_lastWord (fun e => e.machine.keypad.isDown k) (fun e => e.listens = true)
      (fun e h listens => (listens_undergo e h).trans listens) (isDown_undergo k) listens hs
  rw [last]
  exact lastWord_getD_iff (Happening.leaves_eq_true_iff k) (Happening.leaves_eq_false_iff k) _

/-! ## Waits for a key -/

theorem machine_undergo {h : Happening} (listens : e.listens = true)
    (other : h ≠ .hears restartKey) :
    (e.undergo h).machine = e.machine.afterMoves h.move.toList := by
  cases h with
  | step => exact machine_undergo_step e
  | tick => exact machine_undergo_tick e
  | hears i =>
    rcases i.cases with rfl | ⟨j, rfl⟩ | ⟨j, rfl⟩ | idle
    · exact absurd rfl other
    · rw [machine_undergo_keyDown listens, Happening.move_keyDown]
      exact (Machine.after_press_move _ j).symm
    · rw [machine_undergo_keyUp listens, Happening.move, Keyboard.key?_code]
      exact (Machine.after_release_move _ j).symm
    · rw [undergo_idle idle, Happening.move_of_idle idle]
      rfl

/-- As long as the program is not started again, the machine makes the moves that things are for it. -/
theorem machine_happenings (listens : e.listens = true) {hs : List Happening}
    (other : .hears restartKey ∉ hs) :
    (e.happenings hs).machine = e.machine.afterMoves (hs.filterMap Happening.move) := by
  induction hs generalizing e with
  | nil => rfl
  | cons h hs ih =>
    rw [List.mem_cons, not_or] at other
    have rest := ih ((listens_undergo e h).trans listens) other.2
    rw [machine_undergo listens (Ne.symm other.1), ← Machine.afterMoves_append] at rest
    rw [List.filterMap_cons]
    cases move : h.move with
    | none => rwa [move] at rest
    | some m => rwa [move] at rest

/-- The last wait for `Vy` began with a step, the code for key `k` is the first of a key that has gone
down since, there was no step after that, and in all that time the program was not started again. -/
def TakenSince (e : Emulator) (y k : Nibble) (hs : List Happening) : Prop :=
  ∃ before quiet between, hs = before ++ .step :: (quiet ++ .hears (.keyDown (code k)) :: between) ∧
    (e.happenings before).machine.AtWait y ∧ (∀ h ∈ quiet, h.Quiet) ∧ ∀ h ∈ between, h.Still

theorem TakenSince.append {hs : List Happening} (old : List Happening)
    (h : TakenSince (e.happenings old) y k hs) : TakenSince e y k (old ++ hs) := by
  obtain ⟨before, quiet, between, rfl, start, noPress, noStep⟩ := h
  refine ⟨old ++ before, quiet, between, by simp, ?_, noPress, noStep⟩
  rw [happenings_append]
  exact start

theorem takenSince_of_heldSince (listens : e.listens = true) {hs : List Happening}
    (other : .hears restartKey ∉ hs)
    (h : e.machine.HeldSince y k (hs.filterMap Happening.move)) : TakenSince e y k hs := by
  obtain ⟨before', quiet', between', split, start, noPress, noStep⟩ := h
  obtain ⟨first, rest, rfl, begins, split⟩ := List.filterMap_eq_append_iff.mp split
  obtain ⟨silent, s, rest, rfl, still, step, split⟩ := List.filterMap_eq_cons_iff.mp split
  obtain ⟨quiet, rest, rfl, noKey, split⟩ := List.filterMap_eq_append_iff.mp split
  obtain ⟨silent', p, between, rfl, still', press, ends⟩ := List.filterMap_eq_cons_iff.mp split
  obtain rfl := Happening.move_eq_step step
  obtain rfl := Happening.move_eq_press press
  simp only [List.mem_append, List.mem_cons, not_or] at other
  obtain ⟨otherFirst, otherSilent, -, otherQuiet, otherSilent', -, otherBetween⟩ := other
  refine ⟨first ++ silent, quiet ++ silent', between, by simp, ?_, fun h mem => ⟨?_, ?_⟩,
    fun h mem => ⟨?_, ?_⟩⟩
  · have unmoved : (first ++ silent).filterMap Happening.move = before' := by
      rw [List.filterMap_append, begins, List.filterMap_eq_nil_iff.mpr still, List.append_nil]
    rw [machine_happenings listens (by simp [otherFirst, otherSilent]), unmoved]
    exact start
  · rintro rfl
    exact (List.mem_append.mp mem).elim otherQuiet otherSilent'
  · rintro j rfl
    rcases List.mem_append.mp mem with moved | unmoved
    · have pressed : Machine.Move.press j ∈ quiet' := by
        rw [← noKey]
        exact List.mem_filterMap.mpr ⟨_, moved, Happening.move_keyDown j⟩
      cases noPress _ pressed
    · cases (still' _ unmoved).symm.trans (Happening.move_keyDown j)
  · rintro rfl
    exact otherBetween mem
  · rintro rfl
    have stepped : Machine.Move.step ∈ between' := by
      rw [← ends]
      exact List.mem_filterMap.mpr ⟨_, mem, rfl⟩
    cases noStep _ stepped

theorem takenSince_of_running (listens : e.listens = true) (running : e.machine.mode = .running)
    {hs : List Happening} (other : .hears restartKey ∉ hs)
    (waits : (e.happenings hs).machine.mode = .awaiting y)
    (ends : (e.happenings hs).machine.step.2 = .ok) :
    ∃ k, e.TakenSince y k hs ∧
      (e.happenings hs).machine.step.1.registers.get y = k.setWidth 8 := by
  rw [machine_happenings listens other] at waits ends ⊢
  obtain ⟨k, held, taken⟩ := Machine.held_since running waits ends
  exact ⟨k, takenSince_of_heldSince listens other held, taken⟩

/-- A step that ends a wait takes the first key whose code has gone down since the wait began, and
everything from there on came after the program was started last. -/
theorem takenSince_of_awaiting (listens : e.listens = true) {hs : List Happening}
    (started : e.machine.mode = .running ∨ .hears restartKey ∈ hs)
    (waits : (e.happenings hs).machine.mode = .awaiting y)
    (ends : (e.happenings hs).machine.step.2 = .ok) :
    ∃ k, e.TakenSince y k hs ∧
      (e.happenings hs).machine.step.1.registers.get y = k.setWidth 8 := by
  by_cases again : .hears restartKey ∈ hs
  · obtain ⟨old, new, rfl, other⟩ := exists_last_of_mem again
    have cut : old ++ .hears restartKey :: new = (old ++ [.hears restartKey]) ++ new := by simp
    have listening : (e.happenings old).listens = true := (listens_happenings e old).trans listens
    have begun : e.happenings (old ++ [.hears restartKey]) = (e.happenings old).restart := by
      rw [happenings_append]
      exact undergo_restartKey listening
    rw [cut, happenings_append] at waits ends ⊢
    have running : (e.happenings (old ++ [.hears restartKey])).machine.mode = .running := by
      rw [begun]
      exact (restart_runs _).1
    obtain ⟨k, since, taken⟩ :=
      takenSince_of_running ((listens_happenings e _).trans listens) running other waits ends
    exact ⟨k, since.append _, taken⟩
  · exact takenSince_of_running listens (started.resolve_right again) again waits ends

/-- The first key whose code goes down after a wait began is the one that the next step takes. -/
theorem step_of_struck (listens : e.listens = true) (start : e.machine.AtWait y)
    {quiet between : List Happening} (noKey : ∀ h ∈ quiet, h.Quiet) (noStep : ∀ h ∈ between, h.Still)
    (k : Nibble) :
    let w := (e.happenings (.step :: (quiet ++ .hears (.keyDown (code k)) :: between))).machine
    w.mode = .awaiting y ∧ w.step = (w.resumed y k, .ok) := by
  intro w
  have other : .hears restartKey ∉
      Happening.step :: (quiet ++ .hears (.keyDown (code k)) :: between) := by
    simp only [List.mem_cons, List.mem_append, not_or]
    refine ⟨nofun, fun mem => (noKey _ mem).1 rfl, fun same => ?_, fun mem => (noStep _ mem).1 rfl⟩
    exact (Keyboard.code_ne k).2 (Input.keyDown.inj (Happening.hears.inj same)).symm
  have moved : w = (e.machine.after .step).afterMoves
      (quiet.filterMap Happening.move ++ .press k :: between.filterMap Happening.move) := by
    rw [show w = _ from machine_happenings listens other, List.filterMap_cons, Happening.move,
      List.filterMap_append, List.filterMap_cons, Happening.move_keyDown]
    rfl
  obtain ⟨suspended, armed⟩ := start.begins
  have noPress : ∀ m ∈ quiet.filterMap Happening.move, m.isPress = false := fun m mem => by
    obtain ⟨h, inside, moves⟩ := List.mem_filterMap.mp mem
    cases m with
    | press j => exact absurd (Happening.move_eq_press moves) ((noKey h inside).2 j)
    | _ => rfl
  have stepless : ∀ m ∈ between.filterMap Happening.move, m.isStep = false := fun m mem => by
    obtain ⟨h, inside, moves⟩ := List.mem_filterMap.mp mem
    cases m with
    | step => exact absurd (Happening.move_eq_step moves) (noStep h inside).2
    | _ => rfl
  obtain ⟨waits, held⟩ := suspended.first_key armed noPress stepless
  rw [← moved] at waits held
  exact ⟨waits.mode, Machine.step_of_held waits.mode held⟩

/-! ## Delivery -/

/-- An emulator that has just been made has all keys up and runs. -/
theorem create_runs {setup : Setup} {path : String} {found : Entry}
    (made : create setup (some (path, found)) = .ok e) : e.machine.mode = .running ∧
      ∀ k, e.machine.keypad.isDown k = false := by
  obtain ⟨clock, loaded, opened, -, loads, opens, rfl⟩ := create_parts made
  obtain ⟨rom, -, -, started⟩ := loadRom_eq_ok loads
  have machine : (opened.note (.emulatorReady opened.window.isSome)).machine = loaded.machine := by
    cases opens with
    | _ => rfl
  rw [machine, started.machine]
  exact ⟨rfl, fun k => Table.get_fill false k⟩

/-- **What the keyboard does.** Whatever inputs arrive between the steps and ticks of a machine, a key is
down exactly if its code went down and has not come up since, nor the program been started again; at first
the keys are up. An input that stands for nothing changes nothing, and two inputs end a run. The first code
of a key that goes down during a wait ends it with that key, and every wait that ends was ended so; a code
that went down before the program was started again ends none. -/
theorem keyboard_delivers (listens : e.listens = true) (hs : List Happening) :
    let e' := e.happenings hs
    (∀ k, e'.machine.keypad.isDown k = true ↔ Struck k hs ∨ e.machine.keypad.isDown k = true ∧
      .hears (.keyUp (code k)) ∉ hs ∧ .hears restartKey ∉ hs) ∧
    (∀ setup path found, create setup (some (path, found)) = .ok e →
      e.machine.mode = .running ∧ ∀ k, e'.machine.keypad.isDown k = true ↔ Struck k hs) ∧
    (∀ input : Input, input.Idle → (e'.handle input).1 = e') ∧
    (∀ input, (e'.handle input).2 = false ↔ input = .quit ∨ input = .keyDown Keyboard.escape) ∧
    (∀ y k quiet between, e'.machine.AtWait y → (∀ h ∈ quiet, h.Quiet) → (∀ h ∈ between, h.Still) →
      let w := (e'.happenings (.step :: (quiet ++ .hears (.keyDown (code k)) :: between))).machine
      w.isWaiting = true ∧ w.answer .step = .ok (.result .ok) ∧
        (w.after .step).registers.get y = k.setWidth 8) ∧
    ∀ y, (e.machine.mode = .running ∨ .hears restartKey ∈ hs) → e'.machine.mode = .awaiting y →
      e'.machine.answer .step = .ok (.result .ok) →
      ∃ k, e.TakenSince y k hs ∧ (e'.machine.after .step).registers.get y = k.setWidth 8 := by
  intro e'
  have listening : e'.listens = true := (listens_happenings e hs).trans listens
  refine ⟨isDown_happenings listens hs, fun setup path found made => ?_, fun input idle => ?_,
    fun input => handle_stops_iff listening, fun y k quiet between start noKey noStep => ?_,
    fun y started waits ends => ?_⟩
  · obtain ⟨running, up⟩ := create_runs made
    refine ⟨running, fun k => (isDown_happenings listens hs k).trans (or_iff_left fun down => ?_)⟩
    rw [up k] at down
    cases down.1
  · exact handle_idle idle
  · intro w
    obtain ⟨waits, step⟩ := step_of_struck listening start noKey noStep k
    rw [Machine.answer_step, Machine.after_step, step]
    exact ⟨(Machine.mode_eq_awaiting_iff.mp waits).2.1, rfl, Table.get_set_self _ _ _⟩
  · rw [Machine.answer_step] at ends
    rw [Machine.after_step]
    exact takenSince_of_awaiting listens started waits (by simpa using ends)

/-- During a wait the code for key 4 goes down, and before the next step the program is started again. In
the second wait escape goes down, which is no key, and then the codes for keys 5 and A. -/
theorem restart_forgets_four :
    let old : List Happening := [.step, .hears (.keyDown (code 4)), .hears restartKey]
    let quiet : List Happening := [.hears (.keyUp (code 4)), .step, .hears (.keyDown Keyboard.escape)]
    let between : List Happening := [.hears (.keyDown (code 0xA)), .tick]
    let hs := old ++ .step :: (quiet ++ .hears (.keyDown (code 5)) :: between)
    ∃ e, create {} (some ("a.ch8", .file [0xF3, 0x0A, 0x12, 0x02])) = .ok e ∧ e.listens = true ∧
      (e.happenings old).machine.AtWait 3 ∧ ¬ Struck 4 hs ∧ Struck 5 hs ∧
      ((e.happenings hs).machine.after .step).registers.get 3 = 5 ∧
      ((e.happenings hs).handle (.keyUp Keyboard.escape)).1 = e.happenings hs ∧
      ((e.happenings hs).handle (.keyDown Keyboard.escape)).2 = false ∧
      ∃ k, e.TakenSince 3 k hs ∧
        ((e.happenings hs).machine.after .step).registers.get 3 = k.setWidth 8 := by
  intro old quiet between hs
  obtain ⟨e, made, listens, ⟨running, opClass, kk, x⟩, up, down, waits, ends⟩ :
      ∃ e, create {} (some ("a.ch8", .file [0xF3, 0x0A, 0x12, 0x02])) = .ok e ∧ e.listens = true ∧
        ((e.happenings old).machine.mode = .running ∧ (e.happenings old).machine.fetch.opClass = 0xF ∧
          (e.happenings old).machine.fetch.kk = 0x0A ∧ (e.happenings old).machine.fetch.x = 3) ∧
        (e.happenings hs).machine.keypad.isDown 4 = false ∧
        (e.happenings hs).machine.keypad.isDown 5 = true ∧
        (e.happenings hs).machine.mode = .awaiting 3 ∧
        (e.happenings hs).machine.answer .step = .ok (.result .ok) :=
    ⟨_, rfl, rfl, by decide +kernel⟩
  have start : (e.happenings old).machine.AtWait 3 := ⟨running, opClass, kk, x⟩
  have noKey : ∀ h ∈ quiet, h.Quiet := by decide +kernel
  have noStep : ∀ h ∈ between, h.Still := by decide
  obtain ⟨-, -, -, -, forward, -⟩ := keyboard_delivers listens old
  obtain ⟨-, -, five⟩ := forward 3 5 quiet between start noKey noStep
  obtain ⟨-, pressed, idle, stops, -, backward⟩ := keyboard_delivers listens hs
  obtain ⟨started, keys⟩ := pressed _ _ _ made
  rw [← happenings_append] at five
  refine ⟨e, made, listens, start, fun struck => ?_, (keys 5).mp down, five, idle _ ?_,
    (stops _).mpr (.inr rfl), backward 3 (.inl started) waits ends⟩
  · rw [(keys 4).mpr struck] at up
    cases up
  · exact (by decide : Keyboard.key? Keyboard.escape = none)

end Emulator

end ChipEight
