import ChipEight.Proofs.Encoding
import ChipEight.Proofs.History
import ChipEight.Proofs.Step

/-! # What one step may touch

`Machine.Touched` lists the parts of the machine, each with the words that may change it. An execution
is opened once for each part, and a step changes a part only by an execution or by the end of a wait
(`step_changes`), so the list holds of every step whatever the word and the mode. -/
namespace ChipEight

namespace Word

variable {w : Word} {k : Nibble}

/-- The word is `Fxkk`. -/
def Misc (w : Word) (kk : Byte) : Prop := w.opClass = 0xF ∧ w.kk = kk

/-- The word is one of `6xkk`, `7xkk`, `8xyn`, `Cxkk` and `Fx07` with `x = k`, or it is `Fx65` with
`x ≥ k`. -/
def Sets (w : Word) (k : Nibble) : Prop :=
  (w.opClass = 0x6 ∨ w.opClass = 0x7 ∨ w.opClass = 0x8 ∨ w.opClass = 0xC ∨ w.Misc 0x07) ∧ w.x = k ∨
    w.Misc 0x65 ∧ k.toNat ≤ w.x.toNat

/-- The word is `8xyn` with `n` one of 4, 5, 6, 7 and E, or `Dxyn`. -/
def Flags (w : Word) : Prop :=
  w.opClass = 0x8 ∧ (w.n = 4 ∨ w.n = 5 ∨ w.n = 6 ∨ w.n = 7 ∨ w.n = 0xE) ∨ w.opClass = 0xD

instance (w : Word) (kk : Byte) : Decidable (w.Misc kk) :=
  inferInstanceAs (Decidable (_ ∧ _))

instance (w : Word) (k : Nibble) : Decidable (w.Sets k) :=
  inferInstanceAs (Decidable ((_ ∨ _ ∨ _ ∨ _ ∨ _) ∧ _ ∨ _ ∧ _))

instance (w : Word) : Decidable w.Flags :=
  inferInstanceAs (Decidable (_ ∧ (_ ∨ _ ∨ _ ∨ _ ∨ _) ∨ _))

theorem toNat_address_add (i : Word) (k : Nat) :
    (i.address + BitVec.ofNat 12 k).toNat = (i.toNat + k) % 4096 := by
  simp [address, BitVec.toNat_add]

end Word

theorem Table.written_of_get_ne {w : Nat} {α : Type} {t : Table w α} {start i : BitVec w}
    {as : List α} (changed : (t.write start as).get i ≠ t.get i) :
    ∃ k < as.length, start + BitVec.ofNat w k = i := by
  by_cases hit : ∃ k < as.length, start + BitVec.ofNat w k = i
  · exact hit
  · have missed : ∀ k < as.length, start + BitVec.ofNat w k ≠ i :=
      fun k inside same => hit ⟨k, inside, same⟩
    exact absurd (get_write_of_forall_ne t missed) changed

namespace Registers

variable {r : Registers} {x k : Nibble} {b : Byte}

theorem set_changes (changed : (r.set x b).get k ≠ r.get k) : x = k := by
  by_cases same : x = k
  · exact same
  · exact absurd (Table.get_set_of_ne _ same _) changed

theorem setFlag_changes {flag : Bool} (changed : (r.setFlag flag).get k ≠ r.get k) : k = 0xF :=
  (set_changes changed).symm

theorem put_changes {flag : Option Bool} (changed : (r.put x b flag).get k ≠ r.get k) :
    x = k ∨ k = 0xF ∧ flag.isSome := by
  cases flag with
  | none => exact .inl (set_changes changed)
  | some flag =>
    by_cases result : (r.set x b).get k = r.get k
    · rw [← result] at changed
      exact .inr ⟨setFlag_changes changed, rfl⟩
    · exact .inl (set_changes result)

end Registers

/-! ## Executions -/

namespace Instruction

variable {m : Machine} {i : Instruction} {w : Word}

/-- The words that decode to an instruction that writes memory, and the cells that they write. -/
theorem execute_memory (encodes : i.Encodes w) {a : Address}
    (changed : (i.execute m).1.memory.get a ≠ m.memory.get a) :
    (w.Misc 0x33 ∧ ∃ k < 3, a.toNat = (m.registers.i.toNat + k) % 4096) ∨
      w.Misc 0x55 ∧ ∃ k ≤ w.x.toNat, a.toNat = (m.registers.i.toNat + k) % 4096 := by
  cases i with
  | decimal x =>
    obtain ⟨k, inside, rfl⟩ := Table.written_of_get_ne changed
    exact .inl ⟨⟨encodes.1, encodes.2.1⟩, k, inside, Word.toNat_address_add _ k⟩
  | store x =>
    obtain ⟨opClass, kk, rfl⟩ := encodes
    obtain ⟨k, inside, rfl⟩ := Table.written_of_get_ne changed
    rw [Registers.upTo, Table.length_read] at inside
    exact .inr ⟨⟨opClass, kk⟩, k, Nat.le_of_lt_succ inside, Word.toNat_address_add _ k⟩
  | _ => exact absurd rfl changed

theorem execute_stack_moves (encodes : i.Encodes w)
    (changed : ((i.execute m).1.registers.sp, (i.execute m).1.registers.stack) ≠
      (m.registers.sp, m.registers.stack)) : w.opClass = 0x2 ∨ w = 0x00EE#16 := by
  by_cases ret : i = ret
  · rw [ret] at encodes
    exact .inr encodes
  · by_cases call : ∃ t, i = call t
    · obtain ⟨t, rfl⟩ := call
      exact .inl encodes.1
    · obtain ⟨sp, stack⟩ := execute_stack (m := m) ret fun t same => call ⟨t, same⟩
      exact absurd (Prod.ext sp stack) changed

theorem execute_delay (encodes : i.Encodes w)
    (changed : (i.execute m).1.timers.delay ≠ m.timers.delay) : w.Misc 0x15 := by
  cases i with
  | setDelay x => exact ⟨encodes.1, encodes.2.1⟩
  | _ => exact absurd rfl changed

theorem execute_sound (encodes : i.Encodes w)
    (changed : ((i.execute m).1.timers.sound, (i.execute m).1.timers.tone) ≠
      (m.timers.sound, m.timers.tone)) : w.Misc 0x18 := by
  cases i with
  | setSound x => exact ⟨encodes.1, encodes.2.1⟩
  | _ => exact absurd rfl changed

theorem execute_display_words (encodes : i.Encodes w)
    (changed : (i.execute m).1.display ≠ m.display) : w = 0x00E0#16 ∨ w.opClass = 0xD := by
  cases i with
  | clear => exact .inl encodes
  | draw x y height => exact .inr encodes.1
  | _ => exact absurd rfl changed

theorem execute_index_words (encodes : i.Encodes w)
    (changed : (i.execute m).1.registers.i ≠ m.registers.i) :
    w.opClass = 0xA ∨ w.Misc 0x1E ∨ w.Misc 0x29 := by
  cases i with
  | loadIndex target => exact .inl encodes.1
  | addIndex x => exact .inr (.inl ⟨encodes.1, encodes.2.1⟩)
  | glyph x => exact .inr (.inr ⟨encodes.1, encodes.2.1⟩)
  | arith op x y => exact absurd (put_index _ _ _ _) changed
  | shiftRight x => exact absurd (put_index _ _ _ _) changed
  | shiftLeft x => exact absurd (put_index _ _ _ _) changed
  | _ => exact absurd rfl changed

theorem execute_random (encodes : i.Encodes w) (changed : (i.execute m).1.random ≠ m.random) :
    w.opClass = 0xC := by
  cases i with
  | random x mask => exact encodes.1
  | _ => exact absurd rfl changed

theorem execute_latch (encodes : i.Encodes w)
    (changed : ((i.execute m).1.keypad.armed, (i.execute m).1.keypad.latched) ≠
      (m.keypad.armed, m.keypad.latched)) : w.Misc 0x0A := by
  cases i with
  | awaitKey x => exact ⟨encodes.1, encodes.2.1⟩
  | _ => exact absurd rfl changed

theorem execute_keys (m : Machine) (i : Instruction) :
    (i.execute m).1.keypad.down = m.keypad.down := by
  cases i <;> rfl

/-- An operation that has a flag is one of the words that write it. -/
theorem arith_flags {op : Arith} {a b : Byte} (opClass : w.opClass = 0x8) (n : w.n = op.selector)
    (flagged : (op.apply a b).2.isSome) : w.Flags := by
  cases op with
  | add => exact .inl ⟨opClass, .inl n⟩
  | sub => exact .inl ⟨opClass, .inr (.inl n)⟩
  | subFrom => exact .inl ⟨opClass, .inr (.inr (.inr (.inl n)))⟩
  | _ => cases flagged

theorem execute_v (encodes : i.Encodes w) {k : Nibble}
    (changed : (i.execute m).1.registers.get k ≠ m.registers.get k) :
    w.Sets k ∨ k = 0xF ∧ w.Flags := by
  cases i with
  | loadByte x b =>
    obtain ⟨opClass, x, -⟩ := encodes
    exact .inl (.inl ⟨.inl opClass, x.trans (Registers.set_changes changed)⟩)
  | addByte x b =>
    obtain ⟨opClass, x, -⟩ := encodes
    exact .inl (.inl ⟨.inr (.inl opClass), x.trans (Registers.set_changes changed)⟩)
  | arith op x y =>
    obtain ⟨opClass, n, x, -⟩ := encodes
    rcases Registers.put_changes changed with same | ⟨flag, flagged⟩
    · exact .inl (.inl ⟨.inr (.inr (.inl opClass)), x.trans same⟩)
    · exact .inr ⟨flag, arith_flags opClass n flagged⟩
  | shiftRight x =>
    obtain ⟨opClass, n, x⟩ := encodes
    rcases Registers.put_changes changed with same | ⟨flag, -⟩
    · exact .inl (.inl ⟨.inr (.inr (.inl opClass)), x.trans same⟩)
    · exact .inr ⟨flag, .inl ⟨opClass, .inr (.inr (.inl n))⟩⟩
  | shiftLeft x =>
    obtain ⟨opClass, n, x⟩ := encodes
    rcases Registers.put_changes changed with same | ⟨flag, -⟩
    · exact .inl (.inl ⟨.inr (.inr (.inl opClass)), x.trans same⟩)
    · exact .inr ⟨flag, .inl ⟨opClass, .inr (.inr (.inr (.inr n)))⟩⟩
  | random x mask =>
    obtain ⟨opClass, x, -⟩ := encodes
    -- which byte is drawn does not matter, and the generator must not be unfolded to see it
    simp only [execute] at changed
    generalize m.random.byte = drawn at changed
    exact .inl (.inl ⟨.inr (.inr (.inr (.inl opClass))), x.trans (Registers.set_changes changed)⟩)
  | draw x y height => exact .inr ⟨Registers.setFlag_changes changed, .inr encodes.1⟩
  | readDelay x =>
    obtain ⟨opClass, kk, x⟩ := encodes
    have delay : w.Misc 0x07 := ⟨opClass, kk⟩
    exact .inl (.inl ⟨.inr (.inr (.inr (.inr delay))), x.trans (Registers.set_changes changed)⟩)
  | load x =>
    obtain ⟨opClass, kk, x⟩ := encodes
    obtain ⟨j, inside, rfl⟩ := Table.written_of_get_ne changed
    rw [Table.length_read] at inside
    refine .inl (.inr ⟨⟨opClass, kk⟩, ?_⟩)
    have cell : (0 + BitVec.ofNat 4 j : Nibble).toNat ≤ j := by simp [Nat.mod_le]
    rw [x]
    exact Nat.le_trans cell (Nat.le_of_lt_succ inside)
  | _ => exact absurd rfl changed

end Instruction

/-! ## Steps -/

namespace Machine

variable {m : Machine}

/-- A part that a fault leaves alone is changed by an execution or by the end of a wait. -/
theorem step_changes {α : Type} {p : Machine → α} (faults : ∀ cause, p (m.halt cause) = p m)
    (changed : p m.step.1 ≠ p m) :
    (m.mode = .running ∧ p m.proceed ≠ p m) ∨
      ∃ x k, m.mode = .awaiting x ∧ m.keypad.latch = .holding k ∧ p (m.resumed x k) ≠ p m := by
  have turn := turn_step m
  generalize m.step = out at turn changed
  cases turn with
  | halted mode => exact absurd rfl changed
  | waits mode empty => exact absurd rfl changed
  | resumes mode held => exact .inr ⟨_, _, mode, held, changed⟩
  | faults mode fault => exact absurd (faults _) changed
  | suspends mode fetched =>
    rw [← proceed_awaitKey fetched] at changed
    exact .inl ⟨mode, changed⟩
  | executes mode sound fetched => exact .inl ⟨mode, changed⟩

/-- A part of the machine that only executions change. -/
structure Worked {α : Type} (p : Machine → α) : Prop where
  faults : ∀ (m : Machine) (cause : FaultCause), p (m.halt cause) = p m
  resumes : ∀ (m : Machine) (x k : Nibble), p (m.resumed x k) = p m
  completes : ∀ (m : Machine) (advance : Advance), p (m.complete advance) = p m

/-- What is known of the executions that change a part is known of the steps that do. -/
theorem Worked.step {α : Type} {p : Machine → α} (worked : Worked p) {P : Prop}
    (executes : ∀ {i : Instruction}, i.Encodes m.fetch → p (i.execute m).1 ≠ p m → P)
    (changed : p m.step.1 ≠ p m) : m.mode = .running ∧ P := by
  rcases step_changes (worked.faults m) changed with ⟨mode, changed⟩ | ⟨x, k, -, -, changed⟩
  · have completed : p m.proceed = p ((Instruction.decode m.fetch).execute m).1 :=
      worked.completes _ _
    rw [completed] at changed
    exact ⟨mode, executes (Instruction.encodes_decode _) changed⟩
  · exact absurd (worked.resumes m x k) changed

/-- What has changed from `m` to `n`, and the words at the program counter that may have done it. -/
structure Touched (m n : Machine) : Prop where
  memory : ∀ a : Address, n.memory.get a ≠ m.memory.get a → m.mode = .running ∧
    ((m.fetch.Misc 0x33 ∧ ∃ k < 3, a.toNat = (m.registers.i.toNat + k) % 4096) ∨
      m.fetch.Misc 0x55 ∧ ∃ k ≤ m.fetch.x.toNat, a.toNat = (m.registers.i.toNat + k) % 4096)
  display : n.display ≠ m.display →
    m.mode = .running ∧ (m.fetch = 0x00E0#16 ∨ m.fetch.opClass = 0xD)
  stack : (n.registers.sp, n.registers.stack) ≠ (m.registers.sp, m.registers.stack) →
    m.mode = .running ∧ (m.fetch.opClass = 0x2 ∨ m.fetch = 0x00EE#16)
  slot : ∃ k : Nibble, ∀ j ≠ k, n.registers.stack.get j = m.registers.stack.get j
  delay : n.timers.delay ≠ m.timers.delay → m.mode = .running ∧ m.fetch.Misc 0x15
  sound : (n.timers.sound, n.timers.tone) ≠ (m.timers.sound, m.timers.tone) →
    m.mode = .running ∧ m.fetch.Misc 0x18
  index : n.registers.i ≠ m.registers.i →
    m.mode = .running ∧ (m.fetch.opClass = 0xA ∨ m.fetch.Misc 0x1E ∨ m.fetch.Misc 0x29)
  random : n.random ≠ m.random → m.mode = .running ∧ m.fetch.opClass = 0xC
  keys : n.keypad.down = m.keypad.down
  latch : (n.keypad.armed, n.keypad.latched) ≠ (m.keypad.armed, m.keypad.latched) →
    (m.mode = .running ∧ m.fetch.Misc 0x0A) ∨
      ∃ x k, m.mode = .awaiting x ∧ m.keypad.latch = .holding k
  programSize : n.programSize = m.programSize
  v : ∀ k : Nibble, n.registers.get k ≠ m.registers.get k →
    (m.mode = .running ∧ (m.fetch.Sets k ∨ k = 0xF ∧ m.fetch.Flags)) ∨
      ∃ key, m.mode = .awaiting k ∧ m.keypad.latch = .holding key

theorem step_slot (m : Machine) :
    ∃ k : Nibble, ∀ j ≠ k, m.step.1.registers.stack.get j = m.registers.stack.get j := by
  have move := step_stackMove m
  generalize m.step.1.registers = r at move ⊢
  cases move with
  | pop nonempty => exact ⟨_, fun j other => Table.get_set_of_ne _ other.symm _⟩
  | push room t => exact ⟨_, fun j other => Table.get_set_of_ne _ other.symm _⟩
  | keep sp stack =>
    rw [stack]
    exact ⟨0, fun j other => rfl⟩

theorem step_keys (m : Machine) : m.step.1.keypad.down = m.keypad.down := by
  have turn := turn_step m
  generalize m.step = out at turn ⊢
  cases turn with
  | executes mode sound fetched => exact Instruction.execute_keys m _
  | _ => rfl

theorem step_programSize (m : Machine) : m.step.1.programSize = m.programSize := by
  have turn := turn_step m
  generalize m.step = out at turn ⊢
  cases turn with
  | executes mode sound fetched => exact proceed_programSize m
  | _ => rfl

theorem step_latch (changed : (m.step.1.keypad.armed, m.step.1.keypad.latched) ≠
    (m.keypad.armed, m.keypad.latched)) :
    (m.mode = .running ∧ m.fetch.Misc 0x0A) ∨
      ∃ x k, m.mode = .awaiting x ∧ m.keypad.latch = .holding k := by
  rcases step_changes (p := fun m => (m.keypad.armed, m.keypad.latched)) (fun _ => rfl) changed with
    ⟨mode, changed⟩ | ⟨x, key, mode, held, -⟩
  · exact .inl ⟨mode, Instruction.execute_latch (Instruction.encodes_decode _) changed⟩
  · exact .inr ⟨x, key, mode, held⟩

theorem step_v {k : Nibble} (changed : m.step.1.registers.get k ≠ m.registers.get k) :
    (m.mode = .running ∧ (m.fetch.Sets k ∨ k = 0xF ∧ m.fetch.Flags)) ∨
      ∃ key, m.mode = .awaiting k ∧ m.keypad.latch = .holding key := by
  rcases step_changes (p := fun m => m.registers.get k) (fun _ => rfl) changed with
    ⟨mode, changed⟩ | ⟨x, key, mode, held, changed⟩
  · exact .inl ⟨mode, Instruction.execute_v (Instruction.encodes_decode _) changed⟩
  · obtain rfl : x = k := Registers.set_changes changed
    exact .inr ⟨key, mode, held⟩

theorem touched_step (m : Machine) : m.Touched m.step.1 where
  memory := fun a => Worked.step (p := fun m => m.memory.get a)
    ⟨fun _ _ => rfl, fun _ _ _ => rfl, fun _ _ => rfl⟩ fun encodes => Instruction.execute_memory encodes
  display := Worked.step (p := fun m => m.display)
    ⟨fun _ _ => rfl, fun _ _ _ => rfl, fun _ _ => rfl⟩ Instruction.execute_display_words
  stack := Worked.step (p := fun m => (m.registers.sp, m.registers.stack))
    ⟨fun _ _ => rfl, fun _ _ _ => rfl, fun _ _ => rfl⟩ Instruction.execute_stack_moves
  slot := step_slot m
  delay := Worked.step (p := fun m => m.timers.delay)
    ⟨fun _ _ => rfl, fun _ _ _ => rfl, fun _ _ => rfl⟩ Instruction.execute_delay
  sound := Worked.step (p := fun m => (m.timers.sound, m.timers.tone))
    ⟨fun _ _ => rfl, fun _ _ _ => rfl, fun _ _ => rfl⟩ Instruction.execute_sound
  index := Worked.step (p := fun m => m.registers.i)
    ⟨fun _ _ => rfl, fun _ _ _ => rfl, fun _ _ => rfl⟩ Instruction.execute_index_words
  random := Worked.step (p := fun m => m.random)
    ⟨fun _ _ => rfl, fun _ _ _ => rfl, fun _ _ => rfl⟩ Instruction.execute_random
  keys := step_keys m
  latch := step_latch
  programSize := step_programSize m
  v := fun _ => step_v

/-- **What one instruction may touch.** Whatever the mode and whatever word is at the program counter,
a step changes each part of the machine only by the instructions that are for it: memory by `Fx33` and
`Fx55` in the cells from `I` on, the screen by `00E0` and `Dxyn`, the stack by calls and returns in one
slot, each timer by its own instruction, and so on. The keys that are down and the size of the program
never change. -/
theorem step_touches (m : Machine) : m.Touched (m.after .step) := by
  rw [after_step]
  exact touched_step m

/-- A store that goes on at the first cell touches the last cell and the first, and nothing else but the
program counter. -/
theorem step_touches_both_ends :
    let m := (fresh (Generator.ofSeed 0)).afterAll
      [.load [0x60, 0x07, 0x61, 0x0A, 0xAF, 0xFF, 0xF1, 0x55], .run 3]
    let n := m.after .step
    m.fetch = 0xF155#16 ∧ n.memory.get 0xFFF = 0x07 ∧ n.memory.get 0 = 0x0A ∧
      (∀ a : Address, a.toNat ≠ 0xFFF → a.toNat ≠ 0 → n.memory.get a = m.memory.get a) ∧
      ∀ k, n.registers.get k = m.registers.get k := by
  intro m n
  obtain ⟨running, fetched, index, last, first⟩ : m.mode = .running ∧ m.fetch = 0xF155#16 ∧
      m.registers.i.toNat = 0xFFF ∧ n.memory.get 0xFFF = 0x07 ∧ n.memory.get 0 = 0x0A := by
    decide +kernel
  have plain : ∀ k, ¬ Word.Sets 0xF155#16 k ∧ ¬ Word.Flags 0xF155#16 := by decide +kernel
  have touched : m.Touched n := step_touches m
  refine ⟨fetched, last, first, fun a notLast notFirst => ?_, fun k => ?_⟩
  · by_cases same : n.memory.get a = m.memory.get a
    · exact same
    · obtain ⟨-, ⟨⟨-, kk⟩, -⟩ | ⟨-, k, inside, cell⟩⟩ := touched.memory a same
      · rw [fetched] at kk
        exact absurd kk (by decide)
      · rw [fetched] at inside
        have inside : k ≤ 1 := inside
        rw [index] at cell
        omega
  · by_cases same : n.registers.get k = m.registers.get k
    · exact same
    · have changes := touched.v k same
      rw [fetched, running] at changes
      rcases changes with ⟨-, sets | ⟨-, flags⟩⟩ | ⟨key, mode, -⟩
      · exact absurd sets (plain k).1
      · exact absurd flags (plain k).2
      · cases mode

end Machine

end ChipEight
