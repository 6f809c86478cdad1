import ChipEight.Proofs.Footprint

/-! # Steps, ticks and keys in any order

A step that uses no timer works alike whatever the timers are, and leaves them as they are
(`step_withTimers`), and a step that uses no key does so with the keypad (`step_withKeypad`). From these
two follows which neighbours in a history may change places, and by induction on the swaps that a whole
history may be interleaved otherwise. -/
namespace ChipEight
namespace Machine

variable {m : Machine} {c d : Call}

def withTimers (m : Machine) (timers : Timers) : Machine := { m with timers }

def withKeypad (m : Machine) (keypad : Keypad) : Machine := { m with keypad }

/-- The next step executes `Fx07`, `Fx15` or `Fx18`. -/
def UsesTimers (m : Machine) : Prop :=
  m.mode = .running ∧ (m.fetch.Misc 0x07 ∨ m.fetch.Misc 0x15 ∨ m.fetch.Misc 0x18)

/-- The next step executes `Ex9E`, `ExA1` or `Fx0A`. -/
def UsesKeys (m : Machine) : Prop :=
  m.mode = .running ∧
    (m.fetch.opClass = 0xE ∧ (m.fetch.kk = 0x9E ∨ m.fetch.kk = 0xA1) ∨ m.fetch.Misc 0x0A)

instance (m : Machine) : Decidable m.UsesTimers :=
  inferInstanceAs (Decidable (_ ∧ (_ ∨ _ ∨ _)))

instance (m : Machine) : Decidable m.UsesKeys :=
  inferInstanceAs (Decidable (_ ∧ (_ ∧ (_ ∨ _) ∨ _)))

/-! ## Steps that use no timer, and steps that use no key -/

theorem proceed_withTimers (running : m.mode = .running) (idle : ¬ m.UsesTimers) (timers : Timers) :
    (m.withTimers timers).proceed = m.proceed.withTimers timers := by
  have encodes := Instruction.encodes_decode m.fetch
  have same : (m.withTimers timers).fetch = m.fetch := rfl
  unfold proceed
  rw [same]
  generalize Instruction.decode m.fetch = i at encodes ⊢
  cases i with
  | readDelay x => exact absurd ⟨running, .inl ⟨encodes.1, encodes.2.1⟩⟩ idle
  | setDelay x => exact absurd ⟨running, .inr (.inl ⟨encodes.1, encodes.2.1⟩)⟩ idle
  | setSound x => exact absurd ⟨running, .inr (.inr ⟨encodes.1, encodes.2.1⟩)⟩ idle
  | _ => rfl

/-- Unless it executes an instruction of the timers, a step does with other timers what it does with
these, and leaves them alone. -/
theorem step_withTimers (idle : ¬ m.UsesTimers) (timers : Timers) :
    (m.withTimers timers).step = (m.step.1.withTimers timers, m.step.2) := by
  have turn := turn_step m
  generalize m.step = out at turn ⊢
  cases turn with
  | halted mode => exact step_of_halted (m := m.withTimers timers) mode
  | waits mode empty => exact step_of_empty (m := m.withTimers timers) mode empty
  | resumes mode held => exact step_of_held (m := m.withTimers timers) mode held
  | faults mode fault => exact step_of_fault (m := m.withTimers timers) mode fault
  | suspends mode fetched => exact step_of_awaitKey (m := m.withTimers timers) mode fetched
  | executes mode sound fetched =>
    rw [step_of_executes (m := m.withTimers timers) mode sound fetched,
      proceed_withTimers mode idle]

theorem proceed_withKeypad (running : m.mode = .running) (other : ¬ m.UsesKeys) (keypad : Keypad) :
    (m.withKeypad keypad).proceed = m.proceed.withKeypad keypad := by
  have encodes := Instruction.encodes_decode m.fetch
  have same : (m.withKeypad keypad).fetch = m.fetch := rfl
  unfold proceed
  rw [same]
  generalize Instruction.decode m.fetch = i at encodes ⊢
  cases i with
  | skipIfKey x => exact absurd ⟨running, .inl ⟨encodes.1, .inl encodes.2.1⟩⟩ other
  | skipUnlessKey x => exact absurd ⟨running, .inl ⟨encodes.1, .inr encodes.2.1⟩⟩ other
  | awaitKey x => exact absurd ⟨running, .inr ⟨encodes.1, encodes.2.1⟩⟩ other
  | _ => rfl

/-- Unless the machine waits or executes an instruction of the keys, a step does with another keypad what
it does with this one, and leaves it alone. -/
theorem step_withKeypad (awake : m.isWaiting = false) (other : ¬ m.UsesKeys) (keypad : Keypad) :
    (m.withKeypad keypad).step = (m.step.1.withKeypad keypad, m.step.2) := by
  have turn := turn_step m
  generalize m.step = out at turn ⊢
  cases turn with
  | halted mode => exact step_of_halted (m := m.withKeypad keypad) mode
  | waits mode empty => exact absurd (mode_eq_awaiting_iff.mp mode).2.1 (ne_true_of_eq_false awake)
  | resumes mode held => exact absurd (mode_eq_awaiting_iff.mp mode).2.1 (ne_true_of_eq_false awake)
  | faults mode fault => exact step_of_fault (m := m.withKeypad keypad) mode fault
  | suspends mode fetched =>
    have encodes := Instruction.encodes_of_decode fetched
    exact absurd ⟨mode, .inr ⟨encodes.1, encodes.2.1⟩⟩ other
  | executes mode sound fetched =>
    rw [step_of_executes (m := m.withKeypad keypad) mode sound fetched,
      proceed_withKeypad mode other]

/-! ## Neighbours -/

/-- In either order, two calls lead to the same machine and answer what they answer alone. -/
structure Commute (m : Machine) (c d : Call) : Prop where
  after : (m.after c).after d = (m.after d).after c
  second : (m.after c).answer d = m.answer d
  first : (m.after d).answer c = m.answer c

theorem Commute.symm (h : m.Commute c d) : m.Commute d c := ⟨h.after.symm, h.first, h.second⟩

/-- Whether a call reports a key. -/
def Call.isKey : Call → Bool
  | .press _ | .release _ => true
  | _ => false

theorem withKey_acts (act : Keypad → Nibble → Keypad) {f : Machine → Nibble → Machine}
    (acts : ∀ m n, f m n = m.withKeypad (act m.keypad n)) (k : Int) :
    ∃ act : Keypad → Keypad, ∀ m, (Board.withKey m k f).1 = m.withKeypad (act m.keypad) := by
  cases named : Keypad.key k with
  | ok n => exact ⟨(act · n), fun m => (withKey_of_ok named f).trans (acts m n)⟩
  | error refusal =>
    refine ⟨id, fun m => ?_⟩
    rw [Board.withKey, named]
    rfl

theorem withKey_answers (f : Machine → Nibble → Machine) (m n : Machine) (k : Int) :
    (Board.withKey m k f).2 = (Board.withKey n k f).2 := by
  unfold Board.withKey
  cases Keypad.key k <;> rfl

/-- A call that reports a key reads and writes the keypad only. -/
theorem after_key (key : c.isKey = true) :
    ∃ act : Keypad → Keypad, ∀ m : Machine, m.after c = m.withKeypad (act m.keypad) := by
  cases c <;> try cases key
  case press k =>
    simp only [after, perform_press]
    exact withKey_acts Keypad.press (fun _ _ => rfl) k
  case release k => exact withKey_acts Keypad.release (fun _ _ => rfl) k

theorem answer_key (key : c.isKey = true) (m n : Machine) : m.answer c = n.answer c := by
  cases c <;> try cases key
  case press k => exact withKey_answers Board.press m n k
  case release k => exact withKey_answers Board.release m n k

theorem commute_step_tick (idle : ¬ m.UsesTimers) : m.Commute .step .tick := by
  have ticked : m.tick.step = (m.step.1.withTimers m.timers.tick, m.step.2) :=
    step_withTimers idle m.timers.tick
  -- with the timers as they are, the same law says that the step leaves them alone
  have kept : m.step.1.timers = m.timers :=
    congrArg (fun out => out.1.timers) (step_withTimers idle m.timers)
  refine ⟨?_, ?_, ?_⟩
  · rw [after_step, after_tick, after_tick, after_step, ticked, tick, kept]
    rfl
  · rw [after_step, answer_tick, answer_tick, tick, tick, kept]
  · rw [after_tick, answer_step, answer_step, ticked]

theorem commute_step_key (key : c.isKey = true) (awake : m.isWaiting = false)
    (other : ¬ m.UsesKeys) : m.Commute .step c := by
  obtain ⟨act, acts⟩ := after_key key
  have keyed := step_withKeypad awake other (act m.keypad)
  have kept : m.step.1.keypad = m.keypad :=
    congrArg (fun out => out.1.keypad) (step_withKeypad awake other m.keypad)
  refine ⟨?_, answer_key key _ _, ?_⟩
  · rw [after_step, acts, acts, after_step, keyed, kept]
  · rw [acts, answer_step, answer_step, keyed]

theorem commute_tick_key (key : c.isKey = true) (m : Machine) : m.Commute .tick c := by
  obtain ⟨act, acts⟩ := after_key key
  refine ⟨?_, answer_key key _ _, ?_⟩
  · rw [acts, acts, after_tick, after_tick]
    rfl
  · rw [acts, answer_tick, answer_tick]
    rfl

/-- Two calls of which none writes what the other reads. -/
inductive Apart (m : Machine) : Call → Call → Prop
  | stepTick (idle : ¬ m.UsesTimers) : Apart m .step .tick
  | stepKey {c : Call} (key : c.isKey = true) (awake : m.isWaiting = false) (other : ¬ m.UsesKeys) :
      Apart m .step c
  | tickKey {c : Call} (key : c.isKey = true) : Apart m .tick c

theorem Apart.commute (apart : m.Apart c d) : m.Commute c d := by
  cases apart with
  | stepTick idle => exact commute_step_tick idle
  | stepKey key awake other => exact commute_step_key key awake other
  | tickKey key => exact commute_tick_key key m

/-! ## Histories -/

/-- What the calls `c` of a history answer, in order. -/
def answersTo (m : Machine) (c : Call) : List Call → List (Except Refusal Answer)
  | [] => []
  | d :: ds =>
    if d = c then m.answer d :: (m.after d).answersTo c ds else (m.after d).answersTo c ds

/-- The histories that a history becomes when neighbours that are apart change places. -/
inductive Rearranged (m : Machine) (cs : List Call) : List Call → Prop
  | same : Rearranged m cs cs
  | swap (before : List Call) {later : List Call} {c d : Call}
      (h : Rearranged m cs (before ++ c :: d :: later))
      (apart : (m.afterAll before).Apart c d ∨ (m.afterAll before).Apart d c) :
      Rearranged m cs (before ++ d :: c :: later)

theorem Commute.swap {before later : List Call} (h : (m.afterAll before).Commute c d) :
    m.afterAll (before ++ d :: c :: later) = m.afterAll (before ++ c :: d :: later) ∧
      ∀ e, m.answersTo e (before ++ d :: c :: later) =
        m.answersTo e (before ++ c :: d :: later) := by
  induction before generalizing m with
  | nil =>
    obtain ⟨after, second, first⟩ := h
    simp only [afterAll_nil] at after second first
    refine ⟨?_, fun e => ?_⟩
    · simp only [List.nil_append, afterAll_cons, after]
    · simp only [List.nil_append, answersTo, after, second, first]
      by_cases hc : c = e
      · by_cases hd : d = e
        · rw [hc, hd]
        · simp only [if_pos hc, if_neg hd]
      · by_cases hd : d = e
        · simp only [if_pos hd, if_neg hc]
        · simp only [if_neg hc, if_neg hd]
  | cons b before ih =>
    obtain ⟨leads, answers⟩ := ih h
    refine ⟨leads, fun e => ?_⟩
    simp only [List.cons_append, answersTo, answers]

theorem Rearranged.leads {cs ds : List Call} (h : m.Rearranged cs ds) :
    m.afterAll ds = m.afterAll cs ∧ ∀ e, m.answersTo e ds = m.answersTo e cs := by
  induction h with
  | same => exact ⟨rfl, fun _ => rfl⟩
  | swap before _ apart ih =>
    obtain ⟨leads, answers⟩ := ih
    have commute := apart.elim Apart.commute fun apart => apart.commute.symm
    obtain ⟨same, alike⟩ := commute.swap
    exact ⟨same.trans leads, fun e => (alike e).trans (answers e)⟩

/-- **Steps, ticks and keys may be interleaved in any way that keeps apart what is apart.** A step
commutes with a tick unless it executes `Fx07`, `Fx15` or `Fx18`, and with a key unless the machine waits
or the step executes `Ex9E`, `ExA1` or `Fx0A`; a tick commutes with every key. Two histories that differ by
such swaps lead to the same machine, and every call of the one is answered as its fellow in the other. -/
theorem interleavings_agree :
    (∀ m : Machine, ¬ m.UsesTimers → m.Commute .step .tick) ∧
    (∀ (m : Machine) (k : Int), m.isWaiting = false → ¬ m.UsesKeys →
      m.Commute .step (.press k) ∧ m.Commute .step (.release k)) ∧
    (∀ (m : Machine) (k : Int), m.Commute .tick (.press k) ∧ m.Commute .tick (.release k)) ∧
    ∀ (m : Machine) (cs ds : List Call), m.Rearranged cs ds →
      m.afterAll ds = m.afterAll cs ∧ ∀ e, m.answersTo e ds = m.answersTo e cs := by
  refine ⟨fun m idle => commute_step_tick idle, fun m k awake other => ⟨?_, ?_⟩,
    fun m k => ⟨?_, ?_⟩, fun m cs ds h => h.leads⟩
  · exact commute_step_key rfl awake other
  · exact commute_step_key rfl awake other
  · exact commute_tick_key rfl m
  · exact commute_tick_key rfl m

/-- A program that has set the delay timer counts; a key goes down, and in one history the tick comes
between the steps. -/
theorem interleavings_of_counting :
    let m := (fresh (Generator.ofSeed 0)).afterAll
      [.load [0x60, 0x05, 0xF0, 0x15, 0x70, 0x01, 0x12, 0x04], .run 2]
    let cs : List Call := [.step, .tick, .press 3, .step]
    let ds : List Call := [.press 3, .tick, .step, .step]
    ¬ m.UsesTimers ∧ m.Commute .step .tick ∧ m.isWaiting = false ∧ ¬ m.UsesKeys ∧
      m.Commute .step (.press 3) ∧ m.Commute .tick (.release 3) ∧ m.Rearranged cs ds ∧
      m.afterAll ds = m.afterAll cs ∧ m.answersTo .step ds = m.answersTo .step cs := by
  intro m cs ds
  obtain ⟨ticks, keys, both, histories⟩ := interleavings_agree
  obtain ⟨idle, awake, other, awake', other'⟩ : ¬ m.UsesTimers ∧ m.isWaiting = false ∧
      ¬ m.UsesKeys ∧ (m.after .tick).isWaiting = false ∧ ¬ (m.after .tick).UsesKeys := by
    decide +kernel
  -- what the machine is does not matter any more
  clear_value m
  have first : m.Rearranged cs [.tick, .step, .press 3, .step] :=
    .swap [] .same (.inl (.stepTick idle))
  have second : m.Rearranged cs [.tick, .press 3, .step, .step] :=
    .swap [.tick] first (.inl (.stepKey rfl awake' other'))
  have third : m.Rearranged cs ds := .swap [] second (.inl (.tickKey rfl))
  obtain ⟨leads, answers⟩ := histories m cs ds third
  exact ⟨idle, ticks m idle, awake, other, (keys m 3 awake other).1, (both m 3).2, third, leads,
    answers .step⟩

end Machine

end ChipEight
