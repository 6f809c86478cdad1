import ChipEight.Machine.Narration
import ChipEight.Proofs.Assembly
import ChipEight.Proofs.Step

/-! # What a text tells of an execution

The texts and the tables of the processor are two readings of a word. Words with one text encode one
instruction (`Word.mnemonic_eq_iff`), and what the tables find for a word is told by the instruction that it
encodes (`Word.dispatched_eq`), so words with one text are executed alike. What is shown as data, or as a
routine of the host, is passed over. -/
namespace ChipEight

/-! ## Words with one text -/

namespace Word

variable {w v : Word}

/-- The words of class 8 with a low nibble and a first operand. -/
theorem shift_iff {low x : Nibble} : w.opClass = 0x8 ∧ w.n = low ∧ w.x = x ↔
    ∃ y : Nibble, w.toNat = 0x8000 + 256 * x.toNat + 16 * y.toNat + low.toNat := by
  have number : w.toNat = 16 * (16 * (16 * w.opClass.toNat + w.x.toNat) + w.y.toNat) + w.n.toNat := by
    rw [← Word.number_digits]
    simp [Hex.number]
  constructor
  · rintro ⟨opClass, rfl, rfl⟩
    have eight : w.opClass.toNat = 8 := by
      rw [opClass]
      rfl
    refine ⟨w.y, ?_⟩
    omega
  · rintro ⟨y, value⟩
    have := x.isLt
    have := y.isLt
    have := low.isLt
    have := w.x.isLt
    have := w.y.isLt
    have := w.n.isLt
    have eight : w.opClass.toNat = 8 := by omega
    exact ⟨BitVec.eq_of_toNat_eq eight, BitVec.eq_of_toNat_eq (by omega), BitVec.eq_of_toNat_eq (by omega)⟩

theorem mnemonic_eq_iff : w.mnemonic = v.mnemonic ↔
    Instruction.decode w = Instruction.decode v := by
  rw [mnemonic_eq, mnemonic_eq, Instruction.mnemonic_inj]

theorem toNat_ofInt (a : Int) : ((BitVec.ofInt 16 a).toNat : Int) = a % 65536 := by
  rw [BitVec.toNat_ofInt]
  omega

/-- Integers have one text if they agree in their low sixteen bits, or are shifts of one register. -/
theorem mnemonic_ofInt_eq_iff (a b : Int) :
    Word.mnemonic (BitVec.ofInt 16 a) = Word.mnemonic (BitVec.ofInt 16 b) ↔
      a % 65536 = b % 65536 ∨ ∃ x y z : Nibble,
        (a % 65536 = 0x8006 + 256 * x.toNat + 16 * y.toNat ∧
          b % 65536 = 0x8006 + 256 * x.toNat + 16 * z.toNat) ∨
        (a % 65536 = 0x800E + 256 * x.toNat + 16 * y.toNat ∧
          b % 65536 = 0x800E + 256 * x.toNat + 16 * z.toNat) := by
  rw [mnemonic_eq_iff, Instruction.decode_eq_decode_iff, ← BitVec.toNat_inj, ← toNat_ofInt,
    ← toNat_ofInt, Int.natCast_inj]
  simp only [Instruction.Encodes, shift_iff]
  have right : (0x6 : Nibble).toNat = 6 := rfl
  have left : (0xE : Nibble).toNat = 14 := rfl
  refine or_congr_right ⟨?_, ?_⟩
  · rintro ⟨x, ⟨⟨y, one⟩, z, other⟩ | ⟨⟨y, one⟩, z, other⟩⟩
    · exact ⟨x, y, z, .inl (by omega)⟩
    · exact ⟨x, y, z, .inr (by omega)⟩
  · rintro ⟨x, y, z, both | both⟩
    · exact ⟨x, .inl ⟨⟨y, by omega⟩, z, by omega⟩⟩
    · exact ⟨x, .inr ⟨⟨y, by omega⟩, z, by omega⟩⟩

end Word

/-! ## Texts of words that are passed over -/

namespace Instruction

variable {i : Instruction} {rest : String}

theorem eq_data_of_mnemonic (shown : i.mnemonic = "DW 0x" ++ rest) : ∃ w, i = data w := by
  have text := congrArg String.toList shown
  cases i with
  | data w => exact ⟨w, rfl⟩
  | arith op x y => cases op <;> simp [mnemonic, Arith.name] at text
  | _ => simp [mnemonic] at text

theorem eq_sys_of_mnemonic (shown : i.mnemonic = "SYS 0x" ++ rest) : ∃ a, i = sys a := by
  have text := congrArg String.toList shown
  cases i with
  | sys a => exact ⟨a, rfl⟩
  | arith op x y => cases op <;> simp [mnemonic, Arith.name] at text
  | _ => simp [mnemonic] at text

end Instruction

/-! ## Executing a word -/

namespace Machine

variable {m : Machine} {w v : Word}

theorem stepEvents_eq_dispatch (running : m.mode = .running) :
    m.stepEvents = m.dispatchEvents m.fetch := by
  rw [stepEvents, running]

theorem dispatchEvents_of_sound (sound : (Instruction.decode w).fault? m.registers = none) :
    m.dispatchEvents w = .executing m.registers.pc w :: (Instruction.decode w).events m w := by
  rw [← Instruction.fault?_dispatched] at sound
  simp only [dispatchEvents, sound, Instruction.events_dispatched]

/-- Words that stand for one instruction do the same if it cannot fail, nor report the word. -/
theorem dispatch_eq_dispatch {i : Instruction} (one : Instruction.decode w = i)
    (other : Instruction.decode v = i) (sound : i.fault? m.registers = none)
    (quiet : i.events m w = i.events m v) :
    m.dispatch w = m.dispatch v ∧ (m.dispatchEvents w).tail = (m.dispatchEvents v).tail := by
  rw [dispatch_of_sound (one ▸ sound), dispatch_of_sound (other ▸ sound),
    dispatchEvents_of_sound (one ▸ sound), dispatchEvents_of_sound (other ▸ sound), one, other]
  exact ⟨rfl, quiet⟩

/-- Words with one text do the same. A fault keeps the word that caused it, but such a word is the only one
with its text. -/
theorem dispatch_congr (m : Machine) (same : w.mnemonic = v.mnemonic) :
    m.dispatch w = m.dispatch v ∧ (m.dispatchEvents w).tail = (m.dispatchEvents v).tail := by
  rw [Word.mnemonic_eq_iff, Instruction.decode_eq_decode_iff] at same
  rcases same with rfl | ⟨x, ⟨one, other⟩ | ⟨one, other⟩⟩
  · exact ⟨rfl, rfl⟩
  · exact dispatch_eq_dispatch (Instruction.decode_of_encodes rfl one)
      (Instruction.decode_of_encodes rfl other) rfl rfl
  · exact dispatch_eq_dispatch (Instruction.decode_of_encodes rfl one)
      (Instruction.decode_of_encodes rfl other) rfl rfl

/-- A word that is shown as data, or as a routine of the host, is passed over. -/
theorem dispatch_ignored {rest : String} (running : m.mode = .running)
    (shown : w.mnemonic = "DW 0x" ++ rest ∨ w.mnemonic = "SYS 0x" ++ rest) :
    m.dispatch w = (m.complete .next, .ok) := by
  have ok : (m.complete .next).outcome = .ok := by
    simp [outcome, complete, (mode_eq_running_iff.mp running).2]
  rw [Word.mnemonic_eq] at shown
  rcases shown with data | sys
  · obtain ⟨_, decoded⟩ := Instruction.eq_data_of_mnemonic data
    rw [dispatch_of_sound (by rw [decoded]; rfl), decoded]
    exact congrArg (Prod.mk (m.complete .next)) ok
  · obtain ⟨_, decoded⟩ := Instruction.eq_sys_of_mnemonic sys
    rw [dispatch_of_sound (by rw [decoded]; rfl), decoded]
    exact congrArg (Prod.mk (m.complete .next)) ok

/-- **The text tells the execution.** Two integers are shown alike exactly if they agree in their low
sixteen bits or are shifts of one register in one direction. In every state that executes instructions, words
that are shown alike lead to one state, give one result and report the same behind their own announcement;
and a word that is shown as data, or as a routine of the host, only moves the program counter and the
count. -/
theorem text_tells_execution :
    (∀ a b : Int, Word.mnemonic (BitVec.ofInt 16 a) = Word.mnemonic (BitVec.ofInt 16 b) ↔
      a % 65536 = b % 65536 ∨ ∃ x y z : Nibble,
        (a % 65536 = 0x8006 + 256 * x.toNat + 16 * y.toNat ∧
          b % 65536 = 0x8006 + 256 * x.toNat + 16 * z.toNat) ∨
        (a % 65536 = 0x800E + 256 * x.toNat + 16 * y.toNat ∧
          b % 65536 = 0x800E + 256 * x.toNat + 16 * z.toNat)) ∧
    ∀ m : Machine, m.mode = .running →
      m.step = m.dispatch m.fetch ∧ m.stepTold = m.dispatchTold m.fetch ∧
      (∀ w v : Word, w.mnemonic = v.mnemonic → m.dispatch w = m.dispatch v ∧ ∃ events,
        m.dispatchTold w = ⟨m.dispatch v, .executing m.registers.pc w :: events⟩ ∧
        m.dispatchTold v = ⟨m.dispatch v, .executing m.registers.pc v :: events⟩) ∧
      ∀ (w : Word) (rest : String), w.mnemonic = "DW 0x" ++ rest ∨ w.mnemonic = "SYS 0x" ++ rest →
        m.dispatch w = ({ m with
          registers := { m.registers with pc := m.registers.pc + 2 }
          executed := m.executed + 1 }, .ok) := by
  refine ⟨Word.mnemonic_ofInt_eq_iff, fun m running => ?_⟩
  have steps := step_of_running running
  refine ⟨steps, ?_, fun w v same => ?_, fun w rest => dispatch_ignored running⟩
  · rw [stepTold_eq, dispatchTold_eq, steps, stepEvents_eq_dispatch running]
  · obtain ⟨effect, events⟩ := m.dispatch_congr same
    refine ⟨effect, (m.dispatchEvents v).tail, ?_, dispatchTold_eq m v⟩
    rw [dispatchTold_eq, effect, ← events]
    rfl

/-- A shift whose second operand is not shown, and a word that is no comparison for its last digit. -/
theorem text_tells_execution_shift :
    let m := Machine.fresh (Generator.ofSeed 0)
    Word.mnemonic (BitVec.ofInt 16 0x8A16) = Word.mnemonic (BitVec.ofInt 16 (-0x75DA)) ∧
      m.mode = .running ∧
      Word.mnemonic 0x8A16 = "SHR VA" ∧ m.dispatch 0x8A16 = m.dispatch 0x8A26 ∧
      Word.mnemonic 0x5121 = "DW 0x5121" ∧ m.step = m.dispatch 0 ∧
      (m.dispatch 0x5121).2 = .ok ∧ (m.dispatch 0x5121).1.registers.pc = 0x202 := by
  intro m
  obtain ⟨texts, executes⟩ := text_tells_execution
  have running : m.mode = .running := rfl
  obtain ⟨steps, -, same, ignored⟩ := executes m running
  have shift : Word.mnemonic 0x8A16 = "SHR VA" := by decide +kernel
  have shift' : Word.mnemonic 0x8A26 = "SHR VA" := by decide +kernel
  have data : Word.mnemonic 0x5121 = "DW 0x" ++ "5121" := by decide +kernel
  have fetched : m.fetch = 0 := by decide +kernel
  have alike := (texts 0x8A16 (-0x75DA)).mpr (.inr ⟨0xA, 0x1, 0x2, .inl ⟨by decide, by decide⟩⟩)
  obtain ⟨effect, -⟩ := same 0x8A16 0x8A26 (shift.trans shift'.symm)
  have passes := ignored 0x5121 "5121" (.inl data)
  rw [fetched] at steps
  refine ⟨alike, running, shift, effect, data, steps, ?_, ?_⟩
  · rw [passes]
  · rw [passes]
    rfl

end Machine

end ChipEight
