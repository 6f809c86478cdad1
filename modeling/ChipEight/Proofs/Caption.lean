import ChipEight.Proofs.Halt
import ChipEight.Proofs.Rounds

/-! # What the caption says

The caption of the window is changed when the tone starts or stops and when a fault is reported, and
it is not looked at otherwise. What it says therefore follows from what each iteration left behind
(`mark`). Two histories make it say something else than the machine is in: a tone that ends while a
fault is pending takes the word of the fault with it (`Silenced`), and a program that is started
again leaves the mark of the one before it, until there is something new to report (`Outdated`). -/
namespace ChipEight

theorem Timers.countDown_le (b : Byte) : (countDown b).toNat ≤ b.toNat := by
  unfold countDown
  split
  · exact Nat.zero_le _
  · bv_omega

namespace Machine

variable {m : Machine} {f : Fault}

theorem fault_isSome_iff : m.fault.isSome = true ↔ ∃ f, m.mode = .halted f := by
  simp only [mode_eq_halted_iff, Option.isSome_iff_exists]

/-- Nothing starts the tone of a halted machine. -/
theorem sound_afterAll_le (halted : m.mode = .halted f) {cs : List Call}
    (drives : ∀ c ∈ cs, c.kind = .drive) :
    (m.afterAll cs).timers.sound.toNat ≤ m.timers.sound.toNat := by
  suffices keeps : (m.afterAll cs).mode = .halted f ∧
      (m.afterAll cs).timers.sound.toNat ≤ m.timers.sound.toNat from keeps.2
  refine afterAll_keeps (K := (· = .drive))
    (P := fun n => n.mode = .halted f ∧ n.timers.sound.toNat ≤ m.timers.sound.toNat)
    (fun n c single kind h => ?_) drives ⟨halted, Nat.le_refl _⟩
  obtain ⟨still, le⟩ := h
  rcases after_cases single kind with rfl | beside
  · rw [after_step, step_of_halted still]
    exact ⟨still, le⟩
  · generalize n.after c = k at beside ⊢
    cases beside with
    | tick => exact ⟨still, Nat.le_trans (Timers.countDown_le _) le⟩
    | _ => exact ⟨still, le⟩

theorem tone_of_halted (reach : m.Reachable) (halted : m.mode = .halted f) {cs : List Call}
    (drives : ∀ c ∈ cs, c.kind = .drive) (sounds : (m.afterAll cs).timers.tone = true) :
    m.timers.tone = true := by
  have after : (m.afterAll cs).timers.Settled := (reach.afterAll cs).sound.tone
  exact reach.sound.tone.mpr (Nat.lt_of_lt_of_le (after.mp sounds) (sound_afterAll_le halted drives))

end Machine

namespace Emulator

/-- What an iteration leaves behind of which the caption could tell, and whether the program was
started again in it. -/
structure Glimpse where
  restarted : Bool
  tone : Bool
  fault : Bool

def Round.glimpse (r : Round) : Glimpse where
  restarted := r.moment.inputs.contains restartKey
  tone := r.after.machine.timers.tone
  fault := r.after.machine.fault.isSome

inductive Mark
  | none
  | tone
  | fault
deriving DecidableEq

/-- What the caption says behind the title. -/
def Mark.text : Mark → String
  | none => ""
  | tone => " - ♪"
  | fault => " - FALLO (F5 reinicia)"

/-! ## Histories of glimpses, the newest first -/

def latest : List Glimpse → Glimpse
  -- before the first iteration there is nothing to tell of
  | [] => ⟨false, false, false⟩
  | g :: _ => g

/-- What the caption says after a history. -/
def mark : List Glimpse → Mark
  | [] => .none
  | g :: past =>
    -- a restart makes both detectors forget, but leaves the caption
    if g.fault && (g.restarted || !(latest past).fault) then .fault
    else if g.tone = (!g.restarted && (latest past).tone) then mark past
    else if g.tone then .tone
    else .none

/-- While a fault was pending the tone has stopped. -/
inductive Silenced : List Glimpse → Prop
  | stops {g : Glimpse} {past : List Glimpse} (same : g.restarted = false)
      (fault : (latest past).fault = true) (sounded : (latest past).tone = true)
      (silent : g.tone = false) : Silenced (g :: past)
  | lasts {g : Glimpse} {past : List Glimpse} (same : g.restarted = false) (before : Silenced past) :
      Silenced (g :: past)

/-- The program was started again when the caption had something to tell, and since then nothing has
happened that it could tell of. -/
inductive Outdated : List Glimpse → Prop
  | leaves {g : Glimpse} {past : List Glimpse} (restarted : g.restarted = true)
      (silent : g.tone = false) (sane : g.fault = false)
      (shown : (latest past).fault = true ∨ (latest past).tone = true) (told : ¬ Silenced past) :
      Outdated (g :: past)
  | lasts {g : Glimpse} {past : List Glimpse} (silent : g.tone = false) (sane : g.fault = false)
      (before : Outdated past) : Outdated (g :: past)

/-- As long as the program is not started again a fault stays, and no tone starts. -/
inductive Credible : List Glimpse → Prop
  | nil : Credible []
  | cons {g : Glimpse} {past : List Glimpse}
      (fault : g.restarted = false → (latest past).fault = true → g.fault = true)
      (tone : g.restarted = false → (latest past).fault = true → g.tone = true →
        (latest past).tone = true) (before : Credible past) : Credible (g :: past)

theorem silenced_cons_iff {g : Glimpse} {past : List Glimpse} : Silenced (g :: past) ↔
    g.restarted = false ∧ (Silenced past ∨
      (latest past).fault = true ∧ (latest past).tone = true ∧ g.tone = false) := by
  constructor
  · intro h
    cases h with
    | stops same fault sounded silent => exact ⟨same, .inr ⟨fault, sounded, silent⟩⟩
    | lasts same before => exact ⟨same, .inl before⟩
  · rintro ⟨same, before | ⟨fault, sounded, silent⟩⟩
    · exact .lasts same before
    · exact .stops same fault sounded silent

theorem outdated_cons_iff {g : Glimpse} {past : List Glimpse} : Outdated (g :: past) ↔
    g.tone = false ∧ g.fault = false ∧ (Outdated past ∨
      g.restarted = true ∧ ((latest past).fault = true ∨ (latest past).tone = true) ∧
        ¬ Silenced past) := by
  constructor
  · intro h
    cases h with
    | leaves restarted silent sane shown told => exact ⟨silent, sane, .inr ⟨restarted, shown, told⟩⟩
    | lasts silent sane before => exact ⟨silent, sane, .inl before⟩
  · rintro ⟨silent, sane, before | ⟨restarted, shown, told⟩⟩
    · exact .lasts silent sane before
    · exact .leaves restarted silent sane shown told

/-- What the caption says after a history, case by case. -/
inductive Tells (h : List Glimpse) : Prop
  | fault (pending : (latest h).fault = true) (reads : mark h = .fault)
      (right : ¬ Silenced h ∧ ¬ Outdated h)
  | silenced (pending : (latest h).fault = true) (silent : (latest h).tone = false)
      (reads : mark h = .none) (wrong : Silenced h ∧ ¬ Outdated h)
  | tone (sane : (latest h).fault = false) (sounds : (latest h).tone = true) (reads : mark h = .tone)
      (right : ¬ Silenced h ∧ ¬ Outdated h)
  | nothing (sane : (latest h).fault = false) (silent : (latest h).tone = false)
      (reads : mark h = .none) (right : ¬ Silenced h ∧ ¬ Outdated h)
  | outdated (sane : (latest h).fault = false) (silent : (latest h).tone = false)
      (reads : mark h ≠ .none) (wrong : ¬ Silenced h ∧ Outdated h)

section

variable {g : Glimpse} {past : List Glimpse}

theorem tells_restarted (restarted : g.restarted = true) (ih : Tells past) : Tells (g :: past) := by
  have told : ¬ Silenced (g :: past) := by simp [silenced_cons_iff, restarted]
  cases fault : g.fault with
  | true =>
    exact .fault fault (by simp [mark, restarted, fault])
      ⟨told, by simp [outdated_cons_iff, fault]⟩
  | false =>
    cases tone : g.tone with
    | true =>
      exact .tone fault tone (by simp [mark, restarted, fault, tone])
        ⟨told, by simp [outdated_cons_iff, tone]⟩
    | false =>
      -- nothing is reported, so the caption stays
      have still : mark (g :: past) = mark past := by simp [mark, restarted, fault, tone]
      cases ih with
      | fault pending reads right =>
        refine .outdated fault tone ?_ ⟨told, .leaves restarted tone fault (.inl pending) right.1⟩
        rw [still, reads]
        exact nofun
      | silenced pending silent reads wrong =>
        refine .nothing fault tone (still.trans reads) ⟨told, ?_⟩
        simp [outdated_cons_iff, wrong]
      | tone sane sounds reads right =>
        refine .outdated fault tone ?_ ⟨told, .leaves restarted tone fault (.inr sounds) right.1⟩
        rw [still, reads]
        exact nofun
      | nothing sane silent reads right =>
        refine .nothing fault tone (still.trans reads) ⟨told, ?_⟩
        simp [outdated_cons_iff, sane, silent, right]
      | outdated sane silent reads wrong =>
        exact .outdated fault tone (still ▸ reads) ⟨told, .lasts tone fault wrong.2⟩

theorem told_of_sane (sane : (latest past).fault = false) (told : ¬ Silenced past) :
    ¬ Silenced (g :: past) := by
  rw [silenced_cons_iff]
  rintro ⟨-, before | ⟨fault, -⟩⟩
  · exact told before
  · rw [sane] at fault
    cases fault

theorem tells_new_fault (sane : (latest past).fault = false) (told : ¬ Silenced past)
    (fault : g.fault = true) : Tells (g :: past) := by
  refine .fault fault ?_ ⟨told_of_sane sane told, ?_⟩
  · simp [mark, fault, sane]
  · simp [outdated_cons_iff, fault]

theorem tells_tone (same : g.restarted = false) (sane : (latest past).fault = false)
    (told : ¬ Silenced past) (steady : (latest past).tone = true → mark past = .tone)
    (fault : g.fault = false) (sounds : g.tone = true) : Tells (g :: past) := by
  refine .tone fault sounds ?_ ⟨told_of_sane sane told, ?_⟩
  · cases before : (latest past).tone with
    | true => simp [mark, same, fault, sounds, before, steady before]
    | false => simp [mark, same, fault, sounds, before]
  · simp [outdated_cons_iff, sounds]

/-- While a fault is pending the caption tells of it until the tone stops. -/
theorem tells_pending (same : g.restarted = false) (pending : (latest past).fault = true)
    (lasts : g.fault = true) (tone : g.tone = true → (latest past).tone = true)
    (reads : mark past = .fault) (told : ¬ Silenced past) : Tells (g :: past) := by
  have now : ¬ Outdated (g :: past) := by simp [outdated_cons_iff, lasts]
  by_cases stops : g.tone = false ∧ (latest past).tone = true
  · obtain ⟨silent, sounded⟩ := stops
    refine .silenced lasts silent ?_ ⟨.stops same pending sounded silent, now⟩
    simp [mark, same, pending, silent, sounded]
  · have steady : g.tone = (latest past).tone := by
      cases sounds : g.tone with
      | true => exact (tone sounds).symm
      | false => exact (Bool.eq_false_iff.mpr fun h => stops ⟨sounds, h⟩).symm
    refine .fault lasts ?_ ⟨?_, now⟩
    · simp [mark, same, pending, steady, reads]
    · rw [silenced_cons_iff]
      rintro ⟨-, before | ⟨-, sounded, silent⟩⟩
      · exact told before
      · exact stops ⟨silent, sounded⟩

theorem tells_continued (same : g.restarted = false)
    (lasts : (latest past).fault = true → g.fault = true)
    (tone : (latest past).fault = true → g.tone = true → (latest past).tone = true)
    (ih : Tells past) : Tells (g :: past) := by
  cases ih with
  | fault pending reads right =>
    exact tells_pending same pending (lasts pending) (tone pending) reads right.1
  | silenced pending silent reads wrong =>
    have still : g.tone = false :=
      Bool.eq_false_iff.mpr fun sounds => Bool.eq_false_iff.mp silent (tone pending sounds)
    refine .silenced (lasts pending) still ?_ ⟨.lasts same wrong.1, ?_⟩
    · simp [mark, same, pending, silent, still, reads]
    · simp [outdated_cons_iff, lasts pending]
  | tone sane sounded reads right =>
    cases fault : g.fault with
    | true => exact tells_new_fault sane right.1 fault
    | false =>
      cases sounds : g.tone with
      | true => exact tells_tone same sane right.1 (fun _ => reads) fault sounds
      | false =>
        refine .nothing fault sounds ?_ ⟨told_of_sane sane right.1, ?_⟩
        · simp [mark, same, fault, sounds, sounded]
        · simp [outdated_cons_iff, right.2, same]
  | nothing sane silent reads right =>
    cases fault : g.fault with
    | true => exact tells_new_fault sane right.1 fault
    | false =>
      cases sounds : g.tone with
      | true => exact tells_tone same sane right.1 (fun h => absurd h (silent ▸ nofun)) fault sounds
      | false =>
        refine .nothing fault sounds ?_ ⟨told_of_sane sane right.1, ?_⟩
        · simp [mark, same, fault, sounds, silent, reads]
        · simp [outdated_cons_iff, right.2, same]
  | outdated sane silent reads wrong =>
    cases fault : g.fault with
    | true => exact tells_new_fault sane wrong.1 fault
    | false =>
      cases sounds : g.tone with
      | true => exact tells_tone same sane wrong.1 (fun h => absurd h (silent ▸ nofun)) fault sounds
      | false =>
        refine .outdated fault sounds ?_ ⟨told_of_sane sane wrong.1, .lasts sounds fault wrong.2⟩
        simp [mark, same, fault, sounds, silent, reads]

end

theorem tells (h : List Glimpse) (credible : Credible h) : Tells h := by
  induction credible with
  | nil => exact .nothing rfl rfl rfl ⟨nofun, nofun⟩
  | @cons g past fault tone before ih =>
    cases restarted : g.restarted with
    | true => exact tells_restarted restarted ih
    | false => exact tells_continued restarted (fault restarted) (tone restarted) ih

/-! ## The caption of the window -/

/-- The caption of the window is the title and a mark behind it. -/
def Shows (e : Emulator) (m : Mark) : Prop := ∃ w, e.window = some w ∧ w.caption = e.title ++ m.text

/-- The caption tells of a fault if one is pending and only then, and of the tone if it sounds and
there is no fault to tell of. -/
def CaptionTrue (e : Emulator) : Prop :=
  (e.Shows .fault ↔ e.machine.fault.isSome = true) ∧
    (e.machine.fault = none → (e.Shows .tone ↔ e.machine.timers.tone = true))

/-- The caption is the one that the history leaves. -/
def Bears (title : String) (w : Window) (m : Mark) : Prop :=
  w.caption = title ++ m.text ∨ m = .none ∧ w.caption = Window.defaultCaption

/-- What is known of an emulator that has left a history behind. -/
structure Tracks (past : List Glimpse) (e : Emulator) : Prop where
  listens : e.listens = true
  rom : e.rom.isSome = true
  reach : e.machine.Reachable
  credible : Credible past
  toneOn : e.toneOn = (latest past).tone
  tone : e.machine.timers.tone = (latest past).tone
  faultReported : e.faultReported = (latest past).fault
  fault : e.machine.fault.isSome = (latest past).fault
  window : ∃ w, e.window = some w ∧ w.palette = Palette.mono ∧ Bears e.title w (mark past)

theorem title_eq {e e' : Emulator} (rom : e'.rom = e.rom) : e'.title = e.title := by
  rw [title, title, rom]

theorem text_injective {m m' : Mark} (same : m.text = m'.text) : m = m' := by
  revert same
  cases m <;> cases m' <;> decide

theorem default_ne_title {e : Emulator} (rom : e.rom.isSome = true) (text : String) :
    Window.defaultCaption ≠ e.title ++ text := by
  obtain ⟨rom, present⟩ := Option.isSome_iff_exists.mp rom
  intro same
  have length := congrArg String.length same
  have six : Window.defaultCaption.length = 6 := by decide
  have three : " - ".length = 3 := by decide
  simp only [title, present, String.length_append] at length
  omega

theorem shows_iff {e : Emulator} {w : Window} {m m' : Mark} (rom : e.rom.isSome = true)
    (window : e.window = some w) (bears : Bears e.title w m) (told : m' ≠ .none) :
    e.Shows m' ↔ m = m' := by
  constructor
  · rintro ⟨w', window', caption⟩
    obtain rfl : w = w' := Option.some.inj (window.symm.trans window')
    rcases bears with bears | ⟨-, default⟩
    · exact text_injective ((String.append_right_inj _).mp (bears.symm.trans caption))
    · exact absurd (default.symm.trans caption) (default_ne_title rom _)
  · rintro rfl
    rcases bears with bears | ⟨none, -⟩
    · exact ⟨w, window, bears⟩
    · exact absurd none told

theorem bears_captioned {e : Emulator} {w : Window} {past : List Glimpse} {restarted : Bool}
    (toneOn : e.toneOn = (!restarted && (latest past).tone))
    (faultReported : e.faultReported = (!restarted && (latest past).fault))
    (bears : Bears e.title w (mark past)) :
    Bears e.title (e.captioned w)
      (mark (⟨restarted, e.machine.timers.tone, e.machine.fault.isSome⟩ :: past)) := by
  have reported : (e.machine.fault.isSome = true ∧ e.faultReported = false) ↔
      (e.machine.fault.isSome && (restarted || !(latest past).fault)) = true := by
    rw [faultReported]
    cases restarted <;> simp
  unfold captioned toned mark
  simp only [reported, toneOn]
  by_cases fails : (e.machine.fault.isSome && (restarted || !(latest past).fault)) = true
  · rw [if_pos fails, if_pos fails]
    exact .inl rfl
  · rw [if_neg fails, if_neg fails]
    by_cases steady : e.machine.timers.tone = (!restarted && (latest past).tone)
    · rw [if_pos steady, if_pos steady]
      exact bears
    · rw [if_neg steady, if_neg steady]
      cases e.machine.timers.tone with
      | true => exact .inl rfl
      | false => exact .inl rfl

theorem tracks_settle {past : List Glimpse} {e passed : Emulator} {restarted : Bool}
    (h : Tracks past e) (driven : Driven restarted e passed) :
    passed.settle.machine = passed.machine.look.1 ∧
      Tracks (⟨restarted, passed.machine.timers.tone, passed.machine.fault.isSome⟩ :: past)
        passed.settle := by
  obtain ⟨w, window, mono, bears⟩ := h.window
  obtain ⟨cs, reached, -, drives⟩ := driven.machine
  have settled := settled_settle (driven.window.trans window) mono
  obtain ⟨w', window', palette, -, captions, -⟩ := settled.window
  have reach : passed.machine.Reachable := reached ▸ h.reach.afterAll cs
  have lasts (same : restarted = false) (pending : (latest past).fault = true) :
      ∃ f, e.machine.mode = .halted f ∧ passed.machine.mode = .halted f := by
    obtain ⟨f, halted⟩ := Machine.fault_isSome_iff.mp (h.fault.trans pending)
    have frozen := Machine.frozen_afterAll halted (drives same)
    exact ⟨f, halted, reached ▸ frozen.mode.trans halted⟩
  refine ⟨settled.machine, (settled.listens.trans driven.listens).trans h.listens, ?_, ?_, ?_,
    settled.toneOn, ?_, ?_, ?_, w', window', palette.trans mono, ?_⟩
  · rw [settled.rom, driven.rom]
    exact h.rom
  · rw [settled.machine]
    exact reach.afterAll [.look]
  · refine .cons (fun same pending => ?_) (fun same pending sounds => ?_) h.credible
    · obtain ⟨f, -, halted⟩ := lasts same pending
      exact Machine.fault_isSome_iff.mpr ⟨f, halted⟩
    · obtain ⟨f, halted, -⟩ := lasts same pending
      change passed.machine.timers.tone = true at sounds
      rw [reached] at sounds
      exact h.tone.symm.trans (Machine.tone_of_halted h.reach halted (drives same) sounds)
  · rw [settled.machine]
    rfl
  · -- what was reported and has not been forgotten is still pending
    have known : passed.faultReported = true → passed.machine.fault.isSome = true := by
      rw [driven.faultReported, h.faultReported, Bool.and_eq_true, Bool.not_eq_true']
      rintro ⟨same, pending⟩
      obtain ⟨f, -, halted⟩ := lasts same pending
      exact Machine.fault_isSome_iff.mpr ⟨f, halted⟩
    rw [settled.faultReported]
    cases reported : passed.faultReported with
    | true => exact (known reported).symm
    | false => rfl
  · rw [settled.machine]
    rfl
  · have caption : w'.caption = (passed.captioned w).caption :=
      congrArg (List.headD · Window.defaultCaption) captions
    rw [title_eq settled.rom, Bears, caption]
    rw [← title_eq driven.rom] at bears
    refine bears_captioned ?_ ?_ bears
    · rw [driven.toneOn, h.toneOn]
    · rw [driven.faultReported, h.faultReported]

theorem tracks_round {past : List Glimpse} {e after : Emulator} {moment : Moment} (h : Tracks past e)
    (round : e.round moment = some after) : Tracks (Round.glimpse ⟨moment, after⟩ :: past) after := by
  obtain ⟨passed, driven, rfl⟩ := round_eq_some h.listens round
  obtain ⟨machine, tracks⟩ := tracks_settle h driven
  have glimpse : Round.glimpse ⟨moment, passed.settle⟩ =
      ⟨moment.inputs.contains restartKey, passed.machine.timers.tone,
        passed.machine.fault.isSome⟩ := by
    rw [Round.glimpse, machine]
    rfl
  rw [glimpse]
  exact tracks

theorem Opened.tracks {setup : Setup} {e : Emulator} (h : Opened setup e) : Tracks [] e.start := by
  obtain ⟨scale, window⟩ := h.window
  obtain ⟨data, fits, machine⟩ := h.machine
  have loaded : e.machine = (Machine.fresh (Generator.ofSeed setup.seed)).afterAll [.load data] := by
    rw [Machine.afterAll_cons, Machine.after, Machine.perform_load_of_fits fits]
    exact machine
  have start : e.start.machine = e.machine := rfl
  refine ⟨h.listens, h.rom, ⟨_, _, loaded.symm⟩, .nil, h.toneOn, ?_, h.faultReported, ?_,
    _, window, rfl, .inr ⟨rfl, rfl⟩⟩
  · rw [start, machine]
    rfl
  · rw [start, machine]
    rfl

/-- The caption of an emulator with a history is true unless the history is one of the two. -/
theorem Tracks.captionTrue_iff {past : List Glimpse} {e : Emulator} (h : Tracks past e) :
    e.CaptionTrue ↔ ¬ Silenced past ∧ ¬ Outdated past := by
  obtain ⟨w, window, -, bears⟩ := h.window
  have sane : e.machine.fault = none ↔ (latest past).fault = false := by
    rw [← h.fault, Option.isSome_eq_false_iff, Option.isNone_iff_eq_none]
  have fault := shows_iff h.rom window bears (show Mark.fault ≠ .none from nofun)
  have tone := shows_iff h.rom window bears (show Mark.tone ≠ .none from nofun)
  rw [CaptionTrue, fault, tone, h.fault, h.tone, sane]
  cases tells past h.credible with
  | fault pending reads right => simp [pending, reads, right]
  | silenced pending silent reads wrong => simp [pending, reads, wrong]
  | tone sane sounds reads right => simp [sane, sounds, reads, right]
  | nothing sane silent reads right => simp [sane, silent, reads, right]
  | outdated sane silent reads wrong =>
    cases stale : mark past with
    | none => exact absurd stale reads
    | tone => simp [sane, silent, wrong]
    | fault => simp [sane, wrong]

/-- **When the caption is true.** After a completed iteration of a loop with a window the caption
tells of a pending fault and of the tone, unless the tone stopped while this fault was pending, or
the program was started again under a caption with a mark and neither a tone nor a fault has
followed. The completed iterations are those of the loop. -/
theorem caption_true_iff {setup : Setup} {path : String} {found : Entry} {e : Emulator}
    (made : create setup (some (path, found)) = .ok e) (windowed : e.window.isSome = true)
    (limit : Option Int) (script : List Moment) :
    (∀ waits last, play limit e.start script = .ok (waits, last) →
      Traced e.start script ((rounds limit e.start script).map (·.after)) waits last) ∧
    ∀ (done rest : List Round) (r : Round), rounds limit e.start script = done ++ r :: rest →
      (r.after.CaptionTrue ↔
        ¬ Silenced ((r :: done.reverse).map Round.glimpse) ∧
          ¬ Outdated ((r :: done.reverse).map Round.glimpse)) := by
  refine ⟨fun waits last played => play_rounds played, fun done rest r split => ?_⟩
  have start : Tracks (([] : List Round).map Round.glimpse) e.start :=
    (opened_create made windowed).tracks
  have tracks := rounds_keeps (P := fun past e => Tracks (past.map Round.glimpse) e) tracks_round start
    split
  rw [List.append_nil] at tracks
  exact tracks.captionTrue_iff

theorem first_glimpse (g : Glimpse) (same : g.restarted = false) :
    ¬ Silenced [g] ∧ ¬ Outdated [g] := by
  constructor
  · rw [silenced_cons_iff]
    rintro ⟨-, before | ⟨fault, -⟩⟩
    · cases before
    · cases fault
  · rw [outdated_cons_iff, same]
    rintro ⟨-, -, before | ⟨restarted, -⟩⟩
    · cases before
    · cases restarted

/-- A program that starts the tone and faults, all in the first frame. -/
theorem caption_true_at_fault :
    let setup : Setup := { windowScale := some 2 }
    let data : List Byte := [0x60, 0x09, 0xF0, 0x18, 0x00, 0xEE]
    let moment : Moment := ⟨[], .elapsed 17⟩
    ∃ e r, create setup (some ("a.ch8", .file data)) = .ok e ∧
      rounds none e.start [moment] = [r] ∧ r.after.CaptionTrue ∧
      r.after.machine.fault.isSome = true ∧ r.after.machine.timers.tone = true ∧
      r.after.Shows .fault := by
  intro setup data moment
  have interval : Interval.ofMillis 17 = .ok 17000 := by decide +kernel
  obtain ⟨e, passed, made, windowed, passes, fault, tone⟩ :
      ∃ e passed, create setup (some ("a.ch8", .file data)) = .ok e ∧ e.window.isSome = true ∧
        e.start.passMillis 17 = .ok passed ∧
        passed.machine.fault.isSome = true ∧ passed.machine.timers.tone = true :=
    ⟨_, _, rfl, rfl, passMillis_eq interval, by decide +kernel, by decide +kernel⟩
  have split : rounds none e.start [moment] = [] ++ ⟨moment, passed.settle⟩ :: [] :=
    rounds_of_round (round_of_passes rfl passes)
  obtain ⟨machine, -⟩ :=
    tracks_settle (opened_create made windowed).tracks (driven_passMillis passes)
  have right : passed.settle.CaptionTrue :=
    ((caption_true_iff made windowed none [moment]).2 _ _ _ split).mpr (first_glimpse _ rfl)
  have pending : passed.settle.machine.fault.isSome = true := by
    rw [machine]
    exact fault
  have sounds : passed.settle.machine.timers.tone = true := by
    rw [machine]
    exact tone
  exact ⟨e, _, made, split, right, pending, sounds, right.1.mpr pending⟩

/-- A program that is started again at once leaves the caption as it is. -/
theorem tracks_restart {past : List Glimpse} {e : Emulator} (h : Tracks past e) :
    e.round ⟨[restartKey], .elapsed 0⟩ = some e.restart.settle ∧
      e.restart.settle.machine.fault = none ∧
      Tracks (⟨true, false, false⟩ :: past) e.restart.settle := by
  have handled : e.handleAll [restartKey] = (e.restart, true) := by
    simp [handleAll, handle, h.listens, restartKey, Keyboard.restart, Keyboard.escape]
  have started := e.started_restart
  have bounded : e.restart.clock.timeBudget < 1000000 := by
    rw [started.clock]
    exact Nat.zero_lt_succ _
  have fresh : e.restart.machine.fault = none ∧ e.restart.machine.timers.tone = false := by
    rw [started.machine]
    rcases e.after_restartCall with reset | ⟨data, loaded⟩
    · rw [reset]
      exact ⟨rfl, rfl⟩
    · rw [loaded]
      exact ⟨rfl, rfl⟩
  obtain ⟨machine, tracks⟩ := tracks_settle h (driven_restart e)
  rw [fresh.1, fresh.2] at tracks
  refine ⟨round_of_passes handled (passMillis_zero bounded), ?_, tracks⟩
  rw [machine]
  exact fresh.1

/-- The first frame of a program that faults at once gives the caption the mark of the fault. The
program is started again, and the mark stays although no fault is pending. -/
theorem caption_outdated_after_restart :
    let setup : Setup := { windowScale := some 2 }
    let script : List Moment := [⟨[], .elapsed 17⟩, ⟨[restartKey], .elapsed 0⟩]
    ∃ e, create setup (some ("a.ch8", .file [0x00, 0xEE])) = .ok e ∧
      ∃ r ∈ rounds none e.start script,
        r.after.machine.fault = none ∧ r.after.Shows .fault ∧ ¬ r.after.CaptionTrue := by
  intro setup script
  have interval : Interval.ofMillis 17 = .ok 17000 := by decide +kernel
  obtain ⟨e, passed, made, windowed, passes, fault, tone⟩ :
      ∃ e passed, create setup (some ("a.ch8", .file [0x00, 0xEE])) = .ok e ∧
        e.window.isSome = true ∧ e.start.passMillis 17 = .ok passed ∧
        passed.machine.fault.isSome = true ∧ passed.machine.timers.tone = false :=
    ⟨_, _, rfl, rfl, passMillis_eq interval, by decide +kernel, by decide +kernel⟩
  obtain ⟨-, first⟩ :=
    tracks_settle (opened_create made windowed).tracks (driven_passMillis passes)
  obtain ⟨round, sane, second⟩ := tracks_restart first
  have stale : passed.settle.restart.settle.Shows .fault := by
    obtain ⟨w, window, -, bears⟩ := second.window
    rw [fault, tone] at bears
    exact (shows_iff second.rom window bears (show Mark.fault ≠ .none from nofun)).mpr rfl
  have wrong : ¬ passed.settle.restart.settle.CaptionTrue := by
    intro right
    have pending := right.1.mp stale
    rw [sane] at pending
    cases pending
  refine ⟨e, made, ⟨⟨[restartKey], .elapsed 0⟩, passed.settle.restart.settle⟩, ?_, sane, stale, wrong⟩
  rw [rounds_of_round (round_of_passes rfl passes), rounds_of_round round]
  exact List.mem_cons_of_mem _ List.mem_cons_self

end Emulator

end ChipEight
