import Mathlib.Data.List.Induction
import ChipEight.Keypad
import ChipEight.Proofs.LastWord

/-! # Keys and the latch along a history

A key is down if the last call that moved it pressed it. What the latch holds is told by the calls since
it was armed last: nothing before a key goes down, then the first key that did, and nothing again after
somebody has taken it (`latch_since_arm`). Before it is armed, and after a reset, it is off. -/
namespace ChipEight.Keypad

variable {p q : Keypad} {k : Nibble} {j : Int} {c : Call} {before later cs : List Call}

/-- The keypad after a call. -/
def after (p : Keypad) (c : Call) : Keypad := (p.perform c).1

/-- What a call answers. -/
def answer (p : Keypad) (c : Call) : Except Refusal Answer := (p.perform c).2

/-- The keypad after a history of calls. -/
def afterAll (p : Keypad) (cs : List Call) : Keypad := cs.foldl after p

theorem afterAll_append (p : Keypad) (cs ds : List Call) :
    p.afterAll (cs ++ ds) = (p.afterAll cs).afterAll ds := List.foldl_append

/-! ## One call -/

/-- A number names one of the sixteen keys or none. -/
theorem nibble_or_none (j : Int) : (∃ k : Nibble, j = k.toNat) ∨ ¬ (0 ≤ j ∧ j < 16) := by
  by_cases range : 0 ≤ j ∧ j < 16
  · refine .inl ⟨BitVec.ofInt 4 j, ?_⟩
    rw [BitVec.toNat_ofInt]
    omega
  · exact .inr range

theorem perform_press (p : Keypad) (k : Nibble) :
    p.perform (.press k.toNat) = (p.press k, .ok .done) := by
  simp only [perform, key_of_nibble]

theorem perform_release (p : Keypad) (k : Nibble) :
    p.perform (.release k.toNat) = (p.release k, .ok .done) := by
  simp only [perform, key_of_nibble]

theorem perform_press_of_none (p : Keypad) (none : ¬ (0 ≤ j ∧ j < 16)) :
    p.perform (.press j) = (p, .error (.keyOutOfRange j)) := by
  simp only [perform, key, if_neg none]

theorem perform_release_of_none (p : Keypad) (none : ¬ (0 ≤ j ∧ j < 16)) :
    p.perform (.release j) = (p, .error (.keyOutOfRange j)) := by
  simp only [perform, key, if_neg none]

/-- Whether a call changes nothing whatever the state: it names a key that there is not, or asks. -/
def Call.idle : Call → Prop
  | .press j | .release j => ¬ (0 ≤ j ∧ j < 16)
  | .isDown _ | .state => True
  | .arm | .take | .reset => False

/-- What a call leads to. -/
inductive Turn (p : Keypad) : Call → Keypad → Prop
  | presses (k : Nibble) : Turn p (.press k.toNat) (p.press k)
  | releases (k : Nibble) : Turn p (.release k.toNat) (p.release k)
  | arms : Turn p .arm p.arm
  | takes {k : Nibble} (held : p.latch = .holding k) : Turn p .take
      { p with armed := false, latched := none }
  | misses (empty : ∀ k, p.latch ≠ .holding k) : Turn p .take p
  | resets : Turn p .reset fresh
  | idles {c : Call} (idle : c.idle) : Turn p c p

theorem turn_after (p : Keypad) (c : Call) : Turn p c (p.after c) := by
  cases c with
  | press j =>
    rcases nibble_or_none j with ⟨k, rfl⟩ | none
    · rw [after, perform_press]
      exact .presses k
    · rw [after, perform_press_of_none p none]
      exact .idles none
  | release j =>
    rcases nibble_or_none j with ⟨k, rfl⟩ | none
    · rw [after, perform_release]
      exact .releases k
    · rw [after, perform_release_of_none p none]
      exact .idles none
  | isDown j => exact .idles trivial
  | state => exact .idles trivial
  | arm => exact .arms
  | take =>
    rw [after, perform]
    by_cases held : ∃ k, p.latch = .holding k
    · obtain ⟨k, held⟩ := held
      rw [take_of_holding held]
      exact .takes held
    · have empty : ∀ k, p.latch ≠ .holding k := not_exists.mp held
      rw [take_of_empty empty]
      exact .misses empty
  | reset => exact .resets

theorem answer_take (p : Keypad) : ∃ taken, p.answer .take = .ok (.key taken) := ⟨p.take.2, rfl⟩

theorem answer_take_iff : p.answer .take = .ok (.key (some k)) ↔ p.latch = .holding k := by
  rw [latch_eq_holding_iff, answer, perform, take]
  cases p.latched <;> simp

/-! ## Keys that are down -/

/-- Whether a call leaves a key down or up, if it moves the key. -/
def Call.leaves (k : Nibble) : Call → Option Bool
  | .press j => if j = k.toNat then some true else none
  | .release j => if j = k.toNat then some false else none
  | .reset => some false
  | _ => none

theorem leaves_of_idle (idle : c.idle) (k : Nibble) : c.leaves k = none := by
  have below := k.isLt
  cases c <;> simp_all [Call.idle, Call.leaves]
  all_goals omega

theorem leaves_eq_true_iff (k : Nibble) (c : Call) : c.leaves k = some true ↔ c = .press k.toNat := by
  cases c <;> simp [Call.leaves]

theorem leaves_eq_false_iff (k : Nibble) (c : Call) :
    c.leaves k = some false ↔ c = .release k.toNat ∨ c = .reset := by
  cases c <;> simp [Call.leaves]

theorem isDown_after (k : Nibble) (p : Keypad) (c : Call) :
    (p.after c).isDown k = (c.leaves k).getD (p.isDown k) := by
  have turn := turn_after p c
  generalize p.after c = q at turn ⊢
  cases turn with
  | presses n =>
    simp only [isDown, press, Table.get_set, Call.leaves, Int.natCast_inj, BitVec.toNat_inj]
    split <;> rfl
  | releases n =>
    simp only [isDown, release, Table.get_set, Call.leaves, Int.natCast_inj, BitVec.toNat_inj]
    split <;> rfl
  | resets => exact Table.get_fill false k
  | idles idle => rw [leaves_of_idle idle]; rfl
  | _ => rfl

/-- The key has been pressed, and since then neither it was released nor everything reset. -/
def Pressed (j : Int) (cs : List Call) : Prop :=
  ∃ before later, cs = before ++ .press j :: later ∧ .release j ∉ later ∧ .reset ∉ later

theorem isDown_iff_pressed (cs : List Call) (k : Nibble) :
    (fresh.afterAll cs).isDown k = true ↔ Pressed k.toNat cs := by
  have up : fresh.isDown k = false := Table.get_fill false k
  have last : (fresh.afterAll cs).isDown k = (lastWord (Call.leaves k) cs).getD false :=
    up ▸ foldl_lastWord (Keypad.isDown · k) (fun _ => True) (fun _ _ _ => trivial)
      (fun p c _ => isDown_after k p c) trivial cs
  rw [last, lastWord_getD_iff (leaves_eq_true_iff k) (leaves_eq_false_iff k)]
  exact or_iff_left fun down => Bool.noConfusion down.1

/-! ## What the latch holds -/

/-- The key that a call presses, if there is such a key. -/
def Call.struck : Call → Option Nibble
  | .press j => (key j).toOption
  | _ => none

/-- The first key that is pressed by calls. -/
def firstStruck (cs : List Call) : Option Nibble := cs.findSome? Call.struck

/-- The latch that was armed when nothing had gone down yet, and waits to be taken from. -/
def armedWith : Option Nibble → Latch
  | none => .armed
  | some k => .holding k

theorem struck_of_idle (idle : c.idle) : c.struck = none := by
  cases c with
  | press j => rw [Call.struck, key, if_neg idle]; rfl
  | _ => rfl

theorem firstStruck_concat (cs : List Call) (c : Call) :
    firstStruck (cs ++ [c]) = (firstStruck cs).or c.struck := by
  simp [firstStruck, List.findSome?_append]

theorem latch_after_of_off (off : p.latch = .off) (other : c ≠ .arm) : (p.after c).latch = .off := by
  have turn := turn_after p c
  generalize p.after c = q at turn ⊢
  cases turn with
  | presses k =>
    rw [latch_press, off]
    rfl
  | arms => exact absurd rfl other
  | takes held => rfl
  | resets => rfl
  | _ => exact off

/-- As long as nothing is taken, the first key that went down is kept. -/
theorem latch_after_of_latched {struck : Option Nibble} (armed : p.latch = armedWith struck)
    (arm : c ≠ .arm) (reset : c ≠ .reset) (empty : c = .take → struck = none) :
    (p.after c).latch = armedWith (struck.or c.struck) := by
  have turn := turn_after p c
  generalize p.after c = q at turn ⊢
  cases turn with
  | presses k =>
    rw [latch_press, armed, Call.struck, key_of_nibble]
    cases struck <;> rfl
  | releases k => simpa only [latch_release, Call.struck, Option.or_none] using armed
  | arms => exact absurd rfl arm
  | takes held =>
    rw [empty rfl, armedWith] at armed
    rw [armed] at held
    cases held
  | misses none => simpa only [Call.struck, Option.or_none] using armed
  | resets => exact absurd rfl reset
  | idles idle => rw [struck_of_idle idle, Option.or_none]; exact armed

theorem latch_afterAll_of_off (off : p.latch = .off) (other : .arm ∉ cs) :
    (p.afterAll cs).latch = .off := by
  induction cs generalizing p with
  | nil => exact off
  | cons c cs ih =>
    rw [List.mem_cons, not_or] at other
    exact ih (latch_after_of_off off (Ne.symm other.1)) other.2

/-- Some call to take a key has been answered with one since the latch was armed. -/
def Answered (before later : List Call) : Prop :=
  ∃ first rest k, later = first ++ .take :: rest ∧
    (fresh.afterAll (before ++ .arm :: first)).answer .take = .ok (.key (some k))

theorem answered_concat_iff (before later : List Call) (c : Call) :
    Answered before (later ++ [c]) ↔ Answered before later ∨
      c = .take ∧ ∃ k, (fresh.afterAll (before ++ .arm :: later)).latch = .holding k := by
  constructor
  · rintro ⟨first, rest, k, split, taken⟩
    rcases List.eq_nil_or_concat rest with rfl | ⟨rest, d, rfl⟩
    · obtain ⟨rfl, last⟩ := List.append_inj' split rfl
      exact .inr ⟨List.singleton_inj.mp last, k, answer_take_iff.mp taken⟩
    · have longer : later ++ [c] = (first ++ .take :: rest) ++ [d] := by simpa using split
      obtain ⟨rfl, -⟩ := List.append_inj' longer rfl
      exact .inl ⟨first, rest, k, rfl, taken⟩
  · rintro (⟨first, rest, k, rfl, taken⟩ | ⟨rfl, k, held⟩)
    · exact ⟨first, rest ++ [c], k, by simp, taken⟩
    · exact ⟨later, [], k, rfl, answer_take_iff.mpr held⟩

/-- What the latch holds after it was armed: nothing more once it has answered, else the first key that
went down. -/
theorem latch_since_arm (before : List Call) (arm : .arm ∉ later) (reset : .reset ∉ later) :
    (Answered before later → (fresh.afterAll (before ++ .arm :: later)).latch = .off) ∧
      (¬ Answered before later →
        (fresh.afterAll (before ++ .arm :: later)).latch = armedWith (firstStruck later)) := by
  induction later using List.reverseRecOn with
  | nil =>
    refine ⟨?_, fun _ => ?_⟩
    · rintro ⟨first, rest, k, split, -⟩
      simp at split
    · rw [afterAll_append]
      rfl
  | append_singleton later c ih =>
    simp only [List.mem_append, List.mem_singleton, not_or] at arm reset
    obtain ⟨answered, waiting⟩ := ih arm.1 reset.1
    have last : fresh.afterAll (before ++ .arm :: (later ++ [c])) =
        (fresh.afterAll (before ++ .arm :: later)).after c := by
      rw [← List.cons_append, ← List.append_assoc, afterAll_append]
      rfl
    rw [last, answered_concat_iff, firstStruck_concat]
    by_cases was : Answered before later
    · exact ⟨fun _ => latch_after_of_off (answered was) (Ne.symm arm.2), fun not => absurd (.inl was) not⟩
    · refine ⟨?_, fun not => ?_⟩
      · rintro (is | ⟨rfl, k, held⟩)
        · exact absurd is was
        · rw [after, perform, take_of_holding held]
          rfl
      · refine latch_after_of_latched (waiting was) (Ne.symm arm.2) (Ne.symm reset.2) fun take => ?_
        cases struck : firstStruck later with
        | none => rfl
        | some k => exact absurd (.inr ⟨take, k, by rw [waiting was, struck]; rfl⟩) not

/-- The latch is off unless it has been armed and no reset came after. -/
theorem armed_or_off (cs : List Call) :
    (∃ before later, cs = before ++ .arm :: later ∧ .arm ∉ later ∧ .reset ∉ later) ∨
      (fresh.afterAll cs).latch = .off := by
  induction cs using List.reverseRecOn with
  | nil => exact .inr rfl
  | append_singleton cs c ih =>
    by_cases arm : c = .arm
    · exact .inl ⟨cs, [], by rw [arm], by simp, by simp⟩
    by_cases reset : c = .reset
    · refine .inr ?_
      rw [afterAll_append, reset]
      rfl
    rcases ih with ⟨before, later, rfl, noArm, noReset⟩ | off
    · exact .inl ⟨before, later ++ [c], by simp, by simp [noArm, Ne.symm arm],
        by simp [noReset, Ne.symm reset]⟩
    · refine .inr ?_
      rw [afterAll_append]
      exact latch_after_of_off off arm

/-- The key is the first that went down after the latch was armed last, which has not answered since and
was not reset. -/
def Kept (k : Nibble) (cs : List Call) : Prop :=
  ∃ before later, cs = before ++ .arm :: later ∧ .arm ∉ later ∧ .reset ∉ later ∧
    ¬ Answered before later ∧ firstStruck later = some k

theorem holding_iff_kept (cs : List Call) (k : Nibble) :
    (fresh.afterAll cs).latch = .holding k ↔ Kept k cs := by
  constructor
  · intro held
    rcases armed_or_off cs with ⟨before, later, rfl, arm, reset⟩ | off
    · obtain ⟨answered, waiting⟩ := latch_since_arm before arm reset
      by_cases was : Answered before later
      · rw [answered was] at held
        cases held
      · refine ⟨before, later, rfl, arm, reset, was, ?_⟩
        rw [waiting was] at held
        cases struck : firstStruck later <;> simp_all [armedWith]
    · rw [off] at held
      cases held
  · rintro ⟨before, later, rfl, arm, reset, waiting, struck⟩
    rw [(latch_since_arm before arm reset).2 waiting, struck]
    rfl

/-- The keypad after any history of calls: a key is down if it was pressed and neither released nor
reset since; a call to take is answered with the key that is kept, once for each time the latch is
armed; and a number that is no key is refused without a trace. -/
theorem keypad_follows_history (cs : List Call) :
    (∀ j : Int, ∃ down, (fresh.afterAll cs).answer (.isDown j) = .ok (.flag down) ∧
      (down = true ↔ Pressed (j % 16) cs)) ∧
    (∃ taken, (fresh.afterAll cs).answer .take = .ok (.key taken) ∧
      ∀ k, taken = some k ↔ Kept k cs) ∧
    (∀ k later, (fresh.afterAll cs).answer .take = .ok (.key (some k)) → .arm ∉ later →
      (fresh.afterAll (cs ++ .take :: later)).answer .take = .ok (.key none)) ∧
    (fresh.afterAll (cs ++ [.arm])).answer .take = .ok (.key none) ∧
    (∀ j : Int, ¬ (0 ≤ j ∧ j < 16) →
      (fresh.afterAll cs).perform (.press j) = (fresh.afterAll cs, .error (.keyOutOfRange j)) ∧
      (fresh.afterAll cs).perform (.release j) = (fresh.afterAll cs, .error (.keyOutOfRange j))) ∧
    ∀ j : Int, 0 ≤ j ∧ j < 16 → (fresh.afterAll cs).answer (.press j) = .ok .done ∧
      (fresh.afterAll cs).answer (.release j) = .ok .done := by
  refine ⟨fun j => ⟨_, rfl, ?_⟩, ?_, fun k later taken arm => ?_, ?_, fun j none => ?_,
    fun j range => ?_⟩
  · have low : ((BitVec.ofInt 4 j).toNat : Int) = j % 16 := by
      rw [BitVec.toNat_ofInt]
      omega
    rw [isDown_iff_pressed, low]
  · obtain ⟨taken, answer⟩ := answer_take (fresh.afterAll cs)
    refine ⟨taken, answer, fun k => ?_⟩
    rw [← holding_iff_kept, ← answer_take_iff, answer]
    simp
  · have off : ((fresh.afterAll cs).after .take).latch = .off := by
      rw [after, perform, take_of_holding (answer_take_iff.mp taken)]
      rfl
    have still : (fresh.afterAll (cs ++ .take :: later)).latch = .off := by
      rw [afterAll_append, afterAll, List.foldl_cons]
      exact latch_afterAll_of_off off arm
    rw [answer, perform, take_of_empty (by simp [still])]
  · rw [afterAll_append]
    rfl
  · exact ⟨perform_press_of_none _ none, perform_release_of_none _ none⟩
  · rcases nibble_or_none j with ⟨k, rfl⟩ | none
    · simp only [answer, perform_press, perform_release, and_self]
    · exact absurd range none

theorem keypad_keeps_seven :
    let cs : List Call := [.press 3, .arm, .press 16, .press 5, .arm, .take, .press (-1), .press 7,
      .release 7, .press 9]
    Pressed 5 cs ∧ ¬ Pressed 7 cs ∧ Kept 7 cs ∧ ¬ Kept 9 cs ∧
      (fresh.afterAll (cs ++ [.take, .press 2])).answer .take = .ok (.key none) ∧
      (fresh.afterAll cs).perform (.press 16) = (fresh.afterAll cs, .error (.keyOutOfRange 16)) ∧
      (fresh.afterAll cs).answer (.release 15) = .ok .done := by
  intro cs
  obtain ⟨keys, ⟨taken, answer, kept⟩, once, -, refused, accepted⟩ := keypad_follows_history cs
  obtain ⟨five, isFive, downFive⟩ := keys 21
  obtain ⟨up, isUp, downSeven⟩ := keys 7
  have seven : (fresh.afterAll cs).answer .take = .ok (.key (some 7)) := by decide
  have down : (fresh.afterAll cs).answer (.isDown 21) = .ok (.flag true) := by decide
  have released : (fresh.afterAll cs).answer (.isDown 7) = .ok (.flag false) := by decide
  obtain rfl : taken = some 7 := by simpa [seven] using answer.symm
  obtain rfl : five = true := by simpa [down] using isFive.symm
  obtain rfl : up = false := by simpa [released] using isUp.symm
  refine ⟨downFive.mp rfl, fun down => ?_, (kept 7).mp rfl, fun nine => ?_,
    once 7 [.press 2] seven (by decide), (refused 16 (by decide)).1, (accepted 15 (by decide)).2⟩
  · cases downSeven.mpr down
  · cases (kept 9).mpr nine

end ChipEight.Keypad
