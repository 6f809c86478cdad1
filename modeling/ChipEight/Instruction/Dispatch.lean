import ChipEight.Instruction.Basic

/-!
The dispatch of the processor: closed tables from the class of a word, and inside four of the classes
from a second selector, to what is executed. The tables know nothing of `Instruction.decode`, nor of the
texts of the words; that all three agree is `Word.dispatched_eq` here and `Word.mnemonic_eq` beside the
texts.
-/

namespace ChipEight

/-- An instruction, with the operands that it takes from a word. -/
abbrev Handler := Word → Instruction

namespace Dispatch

open Instruction

/-- The handler of a selector. What has no entry is no instruction. -/
def find {k : Nat} (table : List (BitVec k × Handler)) (selector : BitVec k) : Handler :=
  (table.lookup selector).getD data

/-- Class 0, by the whole word. -/
def systemTable : List (Word × Handler) :=
  [(0x00E0, fun _ => clear),
   (0x00EE, fun _ => ret)]

/-- Class 8, by the last digit. -/
def arithTable : List (Nibble × Handler) :=
  [(0x0, fun w => arith .copy w.x w.y),
   (0x1, fun w => arith .or w.x w.y),
   (0x2, fun w => arith .and w.x w.y),
   (0x3, fun w => arith .xor w.x w.y),
   (0x4, fun w => arith .add w.x w.y),
   (0x5, fun w => arith .sub w.x w.y),
   (0x6, fun w => shiftRight w.x),
   (0x7, fun w => arith .subFrom w.x w.y),
   (0xE, fun w => shiftLeft w.x)]

/-- Class E, by the low byte. -/
def keyTable : List (Byte × Handler) :=
  [(0x9E, fun w => skipIfKey w.x),
   (0xA1, fun w => skipUnlessKey w.x)]

/-- Class F, by the low byte. -/
def miscTable : List (Byte × Handler) :=
  [(0x07, fun w => readDelay w.x),
   (0x0A, fun w => awaitKey w.x),
   (0x15, fun w => setDelay w.x),
   (0x18, fun w => setSound w.x),
   (0x1E, fun w => addIndex w.x),
   (0x29, fun w => glyph w.x),
   (0x33, fun w => decimal w.x),
   (0x55, fun w => store w.x),
   (0x65, fun w => load w.x)]

def classTable : List (Nibble × Handler) :=
  [(0x0, fun w => find systemTable w w),
   (0x1, fun w => jump w.nnn),
   (0x2, fun w => call w.nnn),
   (0x3, fun w => skipIfByte w.x w.kk),
   (0x4, fun w => skipUnlessByte w.x w.kk),
   (0x5, fun w => if w.n ≠ 0x0 then data w else skipIfEqual w.x w.y),
   (0x6, fun w => loadByte w.x w.kk),
   (0x7, fun w => addByte w.x w.kk),
   (0x8, fun w => find arithTable w.n w),
   (0x9, fun w => if w.n ≠ 0x0 then data w else skipUnlessEqual w.x w.y),
   (0xA, fun w => loadIndex w.nnn),
   (0xB, fun w => jumpOffset w.nnn),
   (0xC, fun w => random w.x w.kk),
   (0xD, fun w => draw w.x w.y w.n),
   (0xE, fun w => find keyTable w.kk w),
   (0xF, fun w => find miscTable w.kk w)]

variable {k : Nat} {w : Word}

theorem find_nil (selector : BitVec k) (w : Word) : find [] selector w = data w := rfl

theorem find_cons (key selector : BitVec k) (handler : Handler) (table : List (BitVec k × Handler))
    (w : Word) : find ((key, handler) :: table) selector w =
      if selector = key then handler w else find table selector w := by
  rw [find, lookup_cons]
  split <;> rfl

/-- Every class has a handler. -/
theorem lookup_classTable (c : Nibble) : (classTable.lookup c).isSome := by
  revert c
  decide

theorem find_systemTable (notClear : w ≠ 0x00E0#16) (notRet : w ≠ 0x00EE#16) :
    find systemTable w w = data w := by
  simp [systemTable, find_cons, find_nil, notClear, notRet]

theorem find_arithTable (w : Word) : find arithTable w.n w = decodeArith w := by
  unfold decodeArith
  split
  case h_10 =>
    simp only [arithTable, find_cons, find_nil, ← BitVec.toNat_inj]
    grind
  all_goals
    rename_i n
    rw [eq_ofNat n]
    rfl

theorem find_keyTable (w : Word) : find keyTable w.kk w =
    if w.kk = 0x9E then skipIfKey w.x else if w.kk = 0xA1 then skipUnlessKey w.x else data w := by
  simp only [keyTable, find_cons, find_nil]

theorem find_miscTable (w : Word) : find miscTable w.kk w = decodeMisc w := by
  unfold decodeMisc
  split
  case h_10 =>
    simp only [miscTable, find_cons, find_nil, ← BitVec.toNat_inj]
    grind
  all_goals
    rename_i kk
    rw [eq_ofNat kk]
    rfl

end Dispatch

namespace Word

open Dispatch Instruction

variable {w : Word}

/-- What the processor executes for a word. -/
def dispatched (w : Word) : Instruction := find classTable w.opClass w

theorem dispatched_of_opClass_ne_zero (other : w.opClass ≠ 0) : w.dispatched = decode w := by
  have below := w.opClass.isLt
  unfold decode
  split
  case h_1 zero => exact absurd (eq_ofNat zero) other
  case h_6 opClass =>
    rw [dispatched, eq_ofNat opClass]
    exact ite_not (w.n = 0) (data w) (skipIfEqual w.x w.y)
  case h_9 opClass =>
    rw [dispatched, eq_ofNat opClass]
    exact find_arithTable w
  case h_10 opClass =>
    rw [dispatched, eq_ofNat opClass]
    exact ite_not (w.n = 0) (data w) (skipUnlessEqual w.x w.y)
  case h_15 opClass =>
    rw [dispatched, eq_ofNat opClass]
    exact find_keyTable w
  case h_16 =>
    -- the last class is what the fifteen tests before it leave over
    have last : w.opClass.toNat = 15 := by grind
    rw [dispatched, eq_ofNat last]
    exact find_miscTable w
  all_goals
    rename_i opClass
    rw [dispatched, eq_ofNat opClass]
    rfl

/-- The tables find the instruction that a word encodes. The calls of the host's own routines are no entry
of theirs: they are executed as data is. -/
theorem dispatched_eq (w : Word) :
    w.dispatched = decode w ∨ decode w = sys w.nnn ∧ w.dispatched = data w := by
  by_cases zero : w.opClass = 0
  · by_cases clear : w = 0x00E0#16
    · subst clear
      exact .inl rfl
    · by_cases ret : w = 0x00EE#16
      · subst ret
        exact .inl rfl
      · have table : w.dispatched = find systemTable w w := by
          rw [dispatched, zero]
          rfl
        refine .inr ⟨?_, table.trans (find_systemTable clear ret)⟩
        simp [decode, zero, clear, ret]
  · exact .inl (dispatched_of_opClass_ne_zero zero)

end Word

end ChipEight
