import ChipEight.Proofs.Footprint
import ChipEight.Proofs.Invariant

/-! # Where a program goes on

`Machine.continuation` tells from the word at the program counter where the program goes on: a jump
or a call, a return, a wait, a skip whose condition holds, or the next word. The counter is written
twice in a step, by the instruction and by the advance behind it, so the eleven instructions that steer
are looked at one by one; all others leave the counter to the advance (`execute_pc`). -/
namespace ChipEight

namespace Instruction

variable {m : Machine} {i : Instruction} {w : Word}

/-- Whether an instruction has a say in where the program goes on. -/
def steers : Instruction → Bool
  | ret | jump _ | call _ | jumpOffset _ | awaitKey _ => true
  | skipIfByte _ _ | skipUnlessByte _ _ | skipIfEqual _ _ | skipUnlessEqual _ _ => true
  | skipIfKey _ | skipUnlessKey _ => true
  | _ => false

theorem execute_pc (m : Machine) (plain : i.steers = false) :
    (i.execute m).1.registers.pc = m.registers.pc ∧ (i.execute m).2 = .next := by
  cases i <;> try cases plain
  case arith op x y => exact ⟨put_pc _ _ _ _, rfl⟩
  case shiftRight x => exact ⟨put_pc _ _ _ _, rfl⟩
  case shiftLeft x => exact ⟨put_pc _ _ _ _, rfl⟩
  all_goals exact ⟨rfl, rfl⟩

/-- A word that decodes to an instruction that does not steer is no word of one that does. -/
theorem not_encodes_of_plain (plain : (decode w).steers = false) {j : Instruction}
    (steers : j.steers = true) : ¬ j.Encodes w := by
  intro encodes
  have proper : j.proper = true := by cases j <;> first | rfl | cases steers
  rw [decode_of_encodes proper encodes, steers] at plain
  cases plain

end Instruction

namespace Machine

variable {m n : Machine}

/-- The classes that the skips belong to. -/
def skipClasses : List Nibble := [0x3, 0x4, 0x5, 0x9, 0xE]

/-- The word at the program counter is a skip, and its condition holds. -/
def Skips (m : Machine) : Prop :=
  let w := m.fetch
  let a := m.registers.get w.x
  let b := m.registers.get w.y
  let down := m.keypad.isDown a.nibble
  w.opClass = 0x3 ∧ a = w.kk ∨ w.opClass = 0x4 ∧ a ≠ w.kk ∨
    w.opClass = 0x5 ∧ w.n = 0 ∧ a = b ∨ w.opClass = 0x9 ∧ w.n = 0 ∧ a ≠ b ∨
    w.opClass = 0xE ∧ w.kk = 0x9E ∧ down = true ∨ w.opClass = 0xE ∧ w.kk = 0xA1 ∧ down = false

instance (m : Machine) : Decidable m.Skips :=
  inferInstanceAs (Decidable (_ ∧ _ ∨ _ ∧ _ ∨ _ ∧ _ ∧ _ ∨ _ ∧ _ ∧ _ ∨ _ ∧ _ ∧ _ ∨ _ ∧ _ ∧ _))

/-- The program counter behind the instruction that it stands at. -/
def continuation (m : Machine) : Nat :=
  let w := m.fetch
  let r := m.registers
  if w.opClass = 0x1 ∨ w.opClass = 0x2 then w.nnn.toNat
  else if w.opClass = 0xB then (w.nnn.toNat + (r.get 0).toNat) % 4096
  else if w = 0x00EE#16 then ((r.stack.get (Registers.slot r.sp)).toNat + 2) % 65536
  else if w.Misc 0x0A then r.pc.toNat
  else if m.Skips then (r.pc.toNat + 4) % 65536
  else (r.pc.toNat + 2) % 65536

theorem continuation_of_plain (plain : (Instruction.decode m.fetch).steers = false) :
    m.continuation = (m.registers.pc.toNat + 2) % 65536 := by
  have none {j : Instruction} (steers : j.steers = true) : ¬ j.Encodes m.fetch :=
    Instruction.not_encodes_of_plain plain steers
  have jumps : ¬ (m.fetch.opClass = 0x1 ∨ m.fetch.opClass = 0x2) := by
    intro h
    rcases h with h | h
    · exact none (j := .jump m.fetch.nnn) rfl ⟨h, rfl⟩
    · exact none (j := .call m.fetch.nnn) rfl ⟨h, rfl⟩
  have offset : m.fetch.opClass ≠ 0xB := fun h => none (j := .jumpOffset m.fetch.nnn) rfl ⟨h, rfl⟩
  have returns : m.fetch ≠ 0x00EE#16 := fun h => none (j := .ret) rfl h
  have waits : ¬ m.fetch.Misc 0x0A := fun h => none (j := .awaitKey m.fetch.x) rfl ⟨h.1, h.2, rfl⟩
  have skips : ¬ m.Skips := by
    intro h
    rcases h with h | h | h | h | h | h
    · exact none (j := .skipIfByte m.fetch.x m.fetch.kk) rfl ⟨h.1, rfl, rfl⟩
    · exact none (j := .skipUnlessByte m.fetch.x m.fetch.kk) rfl ⟨h.1, rfl, rfl⟩
    · exact none (j := .skipIfEqual m.fetch.x m.fetch.y) rfl ⟨h.1, h.2.1, rfl, rfl⟩
    · exact none (j := .skipUnlessEqual m.fetch.x m.fetch.y) rfl ⟨h.1, h.2.1, rfl, rfl⟩
    · exact none (j := .skipIfKey m.fetch.x) rfl ⟨h.1, h.2.1, rfl⟩
    · exact none (j := .skipUnlessKey m.fetch.x) rfl ⟨h.1, h.2.1, rfl⟩
  simp only [continuation, if_neg jumps, if_neg offset, if_neg returns, if_neg waits, if_neg skips]

theorem proceed_pc_of_plain (plain : (Instruction.decode m.fetch).steers = false) :
    m.proceed.registers.pc.toNat = m.continuation := by
  obtain ⟨pc, advance⟩ := Instruction.execute_pc m plain
  have moved : m.proceed.registers.pc = m.registers.pc + 2 := by
    simp only [proceed, complete, Registers.advance, advance, pc]
    rfl
  rw [continuation_of_plain plain, moved]
  exact BitVec.toNat_add _ _

theorem toNat_pointer (a : Address) : (a.setWidth 16).toNat = a.toNat :=
  BitVec.toNat_setWidth_of_le (by decide)

/-- The word of a return is of class 0. -/
theorem ne_ret_of_opClass (other : m.fetch.opClass ≠ 0) : m.fetch ≠ 0x00EE#16 := by
  intro returns
  rw [returns] at other
  exact other rfl

theorem continuation_of_skip (skips : m.fetch.opClass ∈ skipClasses) :
    m.continuation =
      if m.Skips then (m.registers.pc.toNat + 4) % 65536
      else (m.registers.pc.toNat + 2) % 65536 := by
  have apart {c : Nibble} (other : c ∉ skipClasses) : m.fetch.opClass ≠ c :=
    fun same => other (same ▸ skips)
  have jumps : ¬ (m.fetch.opClass = 0x1 ∨ m.fetch.opClass = 0x2) :=
    not_or.mpr ⟨apart (by decide), apart (by decide)⟩
  have offset : m.fetch.opClass ≠ 0xB := apart (by decide)
  have returns : m.fetch ≠ 0x00EE#16 := ne_ret_of_opClass (apart (by decide))
  have waits : ¬ m.fetch.Misc 0x0A := fun h => apart (by decide) h.1
  simp only [continuation, if_neg jumps, if_neg offset, if_neg returns, if_neg waits]

theorem proceed_pc_of_skip {condition : Bool}
    (executed : (Instruction.decode m.fetch).execute m = (m, .skipIf condition))
    (skips : m.fetch.opClass ∈ skipClasses) (holds : m.Skips ↔ condition = true) :
    m.proceed.registers.pc.toNat = m.continuation := by
  have moved : m.proceed.registers.pc = m.registers.pc + (Advance.skipIf condition).amount := by
    rw [proceed, executed]
    rfl
  rw [continuation_of_skip skips, moved, BitVec.toNat_add]
  simp only [holds]
  cases condition with
  | true => rfl
  | false => rfl

/-- Wherever the instruction leads, with the advance behind it, is where the program goes on. -/
theorem proceed_pc (m : Machine) : m.proceed.registers.pc.toNat = m.continuation := by
  have encodes := Instruction.encodes_decode m.fetch
  generalize fetched : Instruction.decode m.fetch = i at encodes
  cases i with
  | jump t =>
    obtain ⟨opClass, rfl⟩ := encodes
    have there : m.continuation = m.fetch.nnn.toNat := if_pos (.inl opClass)
    have pc : m.proceed.registers.pc = m.fetch.nnn.setWidth 16 := by
      simp [proceed, fetched, Instruction.execute, Instruction.executeRegisters, complete,
        Registers.advance, Advance.amount]
    rw [there, pc, toNat_pointer]
  | call t =>
    obtain ⟨opClass, rfl⟩ := encodes
    have there : m.continuation = m.fetch.nnn.toNat := if_pos (.inr opClass)
    rw [there, proceed_call fetched]
    exact toNat_pointer _
  | jumpOffset t =>
    obtain ⟨opClass, rfl⟩ := encodes
    have there : m.continuation = (m.fetch.nnn.toNat + (m.registers.get 0).toNat) % 4096 := by
      simp [continuation, opClass]
    have pc : m.proceed.registers.pc =
        (m.fetch.nnn + (m.registers.get 0).setWidth 12).setWidth 16 := by
      simp [proceed, fetched, Instruction.execute, Instruction.executeRegisters, complete,
        Registers.advance, Advance.amount]
    rw [there, pc, toNat_pointer, BitVec.toNat_add, BitVec.toNat_setWidth_of_le (by decide)]
  | ret =>
    have returns : m.fetch = 0x00EE#16 := encodes
    have there : m.continuation =
        ((m.registers.stack.get (Registers.slot m.registers.sp)).toNat + 2) % 65536 := by
      simp [continuation, returns, Word.opClass]
    rw [there, proceed_ret fetched]
    exact BitVec.toNat_add _ _
  | awaitKey x =>
    obtain ⟨opClass, kk, -⟩ := encodes
    have returns : m.fetch ≠ 0x00EE#16 := ne_ret_of_opClass (by rw [opClass]; decide)
    have there : m.continuation = m.registers.pc.toNat := by
      simp [continuation, Word.Misc, opClass, kk, returns]
    rw [there, proceed_awaitKey fetched]
    rfl
  | skipIfByte x b =>
    obtain ⟨opClass, rfl, rfl⟩ := encodes
    refine proceed_pc_of_skip (by rw [fetched]; rfl) (by rw [opClass]; decide) ?_
    simp [Skips, opClass]
  | skipUnlessByte x b =>
    obtain ⟨opClass, rfl, rfl⟩ := encodes
    refine proceed_pc_of_skip (by rw [fetched]; rfl) (by rw [opClass]; decide) ?_
    simp [Skips, opClass]
  | skipIfEqual x y =>
    obtain ⟨opClass, n, rfl, rfl⟩ := encodes
    refine proceed_pc_of_skip (by rw [fetched]; rfl) (by rw [opClass]; decide) ?_
    simp [Skips, opClass, n]
  | skipUnlessEqual x y =>
    obtain ⟨opClass, n, rfl, rfl⟩ := encodes
    refine proceed_pc_of_skip (by rw [fetched]; rfl) (by rw [opClass]; decide) ?_
    simp [Skips, opClass, n]
  | skipIfKey x =>
    obtain ⟨opClass, kk, rfl⟩ := encodes
    refine proceed_pc_of_skip (by rw [fetched]; rfl) (by rw [opClass]; decide) ?_
    simp [Skips, opClass, kk]
  | skipUnlessKey x =>
    obtain ⟨opClass, kk, rfl⟩ := encodes
    refine proceed_pc_of_skip (by rw [fetched]; rfl) (by rw [opClass]; decide) ?_
    simp [Skips, opClass, kk]
  | _ => exact proceed_pc_of_plain (by rw [fetched]; rfl)

/-! ## Opposite skips -/

/-- The words of opposite skips with the same operands. -/
inductive Opposite (w v : Word) : Prop
  | bytes (x : w.x = v.x) (kk : w.kk = v.kk) (skipIf : w.opClass = 0x3)
      (skipUnless : v.opClass = 0x4)
  | registers (x : w.x = v.x) (y : w.y = v.y) (skipIf : w.opClass = 0x5 ∧ w.n = 0)
      (skipUnless : v.opClass = 0x9 ∧ v.n = 0)
  | keys (x : w.x = v.x) (skipIf : w.opClass = 0xE ∧ w.kk = 0x9E)
      (skipUnless : v.opClass = 0xE ∧ v.kk = 0xA1)

/-- Of two opposite skips that see the same registers and keys one skips. -/
theorem Opposite.skips (opposite : Opposite m.fetch n.fetch) (registers : n.registers = m.registers)
    (keypad : n.keypad = m.keypad) : n.Skips ↔ ¬ m.Skips := by
  cases opposite with
  | bytes x kk skipIf skipUnless => simp [Skips, registers, skipIf, skipUnless, x, kk]
  | registers x y skipIf skipUnless => simp [Skips, registers, skipIf, skipUnless, x, y]
  | keys x skipIf skipUnless => simp [Skips, registers, keypad, skipIf, skipUnless, x]

theorem Opposite.opClass_mem {w v : Word} (opposite : Opposite w v) :
    w.opClass ∈ skipClasses ∧ v.opClass ∈ skipClasses := by
  cases opposite with
  | bytes x kk skipIf skipUnless => simp [skipClasses, skipIf, skipUnless]
  | registers x y skipIf skipUnless => simp [skipClasses, skipIf, skipUnless]
  | keys x skipIf skipUnless => simp [skipClasses, skipIf, skipUnless]

theorem Opposite.continuations (opposite : Opposite m.fetch n.fetch)
    (registers : n.registers = m.registers) (keypad : n.keypad = m.keypad) :
    let p := m.registers.pc.toNat
    (m.continuation = (p + 4) % 65536 ∧ n.continuation = (p + 2) % 65536) ∨
      (m.continuation = (p + 2) % 65536 ∧ n.continuation = (p + 4) % 65536) := by
  intro p
  obtain ⟨first, second⟩ := opposite.opClass_mem
  rw [continuation_of_skip first, continuation_of_skip second, registers]
  by_cases h : m.Skips
  · rw [if_pos h, if_neg fun other => (opposite.skips registers keypad).mp other h]
    exact .inl ⟨rfl, rfl⟩
  · rw [if_neg h, if_pos ((opposite.skips registers keypad).mpr h)]
    exact .inr ⟨rfl, rfl⟩

/-! ## The step -/

/-- The calls that the instruction at the program counter opens, less those that it closes. -/
def depthChange (m : Machine) : Int :=
  if m.fetch.opClass = 0x2 then 1 else if m.fetch = 0x00EE#16 then -1 else 0

theorem proceed_sp (m : Machine) : m.proceed.registers.sp = m.registers.sp + m.depthChange := by
  unfold depthChange
  by_cases call : m.fetch.opClass = 0x2
  · rw [if_pos call, proceed_call (Instruction.decode_eq_call_iff.mpr ⟨call, rfl⟩)]
    rfl
  · rw [if_neg call]
    by_cases ret : m.fetch = 0x00EE#16
    · rw [if_pos ret, proceed_ret (Instruction.decode_eq_ret_iff.mpr ret)]
      rfl
    · rw [if_neg ret, Int.add_zero]
      exact (Instruction.execute_stack (fun h => ret (Instruction.decode_eq_ret_iff.mp h))
        fun t h => call (Instruction.decode_eq_call_iff.mp h).1).1

/-- A running machine whose step is no fault has executed the instruction, and waits if that was a wait for
a key. -/
theorem step_of_accepted (running : m.mode = .running) (accepted : m.step.2 ≠ .fault) :
    m.step = (m.proceed, if m.fetch.Misc 0x0A then .waiting else .ok) := by
  have turn := turn_step m
  generalize m.step = out at turn accepted ⊢
  cases turn with
  | halted mode => exact absurd rfl accepted
  | waits mode empty => rw [running] at mode; cases mode
  | resumes mode held => rw [running] at mode; cases mode
  | faults mode fault => exact absurd rfl accepted
  | suspends mode fetched =>
    obtain ⟨opClass, kk, -⟩ := Instruction.decode_eq_awaitKey_iff.mp fetched
    rw [if_pos ⟨opClass, kk⟩, proceed_awaitKey fetched]
  | executes mode sound fetched =>
    have other : ¬ m.fetch.Misc 0x0A := fun h =>
      fetched m.fetch.x (Instruction.decode_eq_awaitKey_iff.mpr ⟨h.1, h.2, rfl⟩)
    rw [if_neg other]

theorem step_of_skip (running : m.mode = .running) (skips : m.fetch.opClass ∈ skipClasses) :
    m.step.1 = m.proceed := by
  have sound : (Instruction.decode m.fetch).fault? m.registers = none := by
    refine Instruction.fault?_eq_none_iff.mpr ⟨fun ret => ?_, fun t call => ?_⟩
    · rw [Instruction.decode_eq_ret_iff.mp ret] at skips
      exact absurd skips (by decide)
    · rw [(Instruction.decode_eq_call_iff.mp call).1] at skips
      exact absurd skips (by decide)
  rw [step_of_sound running sound]

/-- **Where a program goes on.** A step that is no fault leaves the program counter where the word that
it found there says: at the target of a jump or a call, behind the call that a return closes, at the
same word if that waits for a key, behind the next word if it skips, and at the next word whatever
else it is, an instruction or not. It waits at `Fx0A` only, and the stack pointer counts calls up and
returns down. Of two opposite skips with the same operands just one skips, in every state. -/
theorem step_goes_on (reach : m.Reachable) (running : m.mode = .running) :
    (m.answer .step ≠ .ok (.result .fault) →
      (m.after .step).registers.pc.toNat = m.continuation ∧
      m.answer .step = .ok (.result (if m.fetch.Misc 0x0A then .waiting else .ok)) ∧
      (m.after .step).registers.sp = m.registers.sp + m.depthChange ∧
      ((Registers.slot m.registers.sp).toNat : Int) = m.registers.sp) ∧
    ∀ memory : Memory,
      let n := { m with memory }
      let p := m.registers.pc.toNat
      let q := (m.after .step).registers.pc.toNat
      let q' := (n.after .step).registers.pc.toNat
      Opposite m.fetch n.fetch →
        (q = (p + 4) % 65536 ∧ q' = (p + 2) % 65536) ∨
          (q = (p + 2) % 65536 ∧ q' = (p + 4) % 65536) := by
  refine ⟨fun accepted => ?_, fun memory => ?_⟩
  · have stack : m.registers.StackSound := reach.sound.stack
    have step := step_of_accepted running fun fault => accepted (by rw [answer_step, fault])
    rw [answer_step, after_step, step]
    exact ⟨proceed_pc m, rfl, proceed_sp m, Registers.toNat_slot stack.nonneg stack.le_max⟩
  · intro n p q q' opposite
    obtain ⟨first, second⟩ := opposite.opClass_mem
    have pc : q = m.continuation := by
      rw [← proceed_pc, ← step_of_skip running first, ← after_step]
    have pc' : q' = n.continuation := by
      rw [← proceed_pc, ← step_of_skip (m := n) running second, ← after_step]
    rw [pc, pc']
    exact opposite.continuations rfl rfl

/-- The last word of memory seen from the last word address: a skip over the wrapped counter, with the
key that the low half of `VF` names held down, and its opposite. Then a return to the word behind its
call. -/
theorem step_goes_on_past_the_end :
    let m := (fresh (Generator.ofSeed 0)).afterAll
      [.setPc 0xFFFE, .poke 0xFFE 0xEF, .poke 0xFFF 0x9E, .setV 0xF 0x1A, .press 0xA]
    let memory := m.memory.writeByte 0xFFF 0xA1
    let n := { m with memory }
    let inside := (fresh (Generator.ofSeed 0)).afterAll
      [.load [0x22, 0x04, 0x00, 0x00, 0x00, 0xEE], .step]
    m.fetch = 0xEF9E#16 ∧ n.fetch = 0xEFA1#16 ∧
      (m.after .step).registers.pc.toNat = 2 ∧ (n.after .step).registers.pc.toNat = 0 ∧
      inside.fetch = 0x00EE#16 ∧ inside.answer .step ≠ .ok (.result .fault) ∧
      (inside.after .step).registers.pc.toNat = 0x202 ∧
      (inside.after .step).registers.sp = inside.registers.sp - 1 := by
  intro m memory n inside
  obtain ⟨running, start, fetch, fetch', skips⟩ : m.mode = .running ∧
      m.registers.pc.toNat = 0xFFFE ∧ m.fetch = 0xEF9E#16 ∧ n.fetch = 0xEFA1#16 ∧
      m.continuation = 2 := by
    decide +kernel
  obtain ⟨enters, returns, accepted, behind⟩ : inside.mode = .running ∧ inside.fetch = 0x00EE#16 ∧
      inside.answer .step ≠ .ok (.result .fault) ∧ inside.continuation = 0x202 := by
    decide +kernel
  have opposite : Opposite m.fetch n.fetch := by
    rw [fetch, fetch']
    exact .keys rfl ⟨rfl, rfl⟩ ⟨rfl, rfl⟩
  have reach : m.Reachable := ⟨_, _, rfl⟩
  have apart := (step_goes_on reach running).2 memory opposite
  simp only [start] at apart
  have first : (m.after .step).registers.pc.toNat = 2 := by
    rw [← skips, ← proceed_pc, ← step_of_skip running opposite.opClass_mem.1, ← after_step]
  have second : (n.after .step).registers.pc.toNat = 0 := by
    rcases apart with ⟨_, stays⟩ | ⟨stays, _⟩
    · exact stays
    · rw [first] at stays
      cases stays
  have inReach : inside.Reachable := ⟨_, _, rfl⟩
  obtain ⟨pc, -, sp, -⟩ := (step_goes_on inReach enters).1 accepted
  have closes : inside.depthChange = -1 := by
    simp [depthChange, returns, Word.opClass]
  rw [behind] at pc
  rw [closes, ← Int.sub_eq_add_neg] at sp
  exact ⟨fetch, fetch', first, second, returns, accepted, pc, sp⟩

end Machine

end ChipEight
