import ChipEight.Instruction.Basic

/-! # The words of an instruction

`Instruction.Encodes` is the opcode table read from right to left: it says of each instruction which
words stand for it, by their fields. Every word encodes what it decodes to (`encodes_decode`), so what
is known of an executed instruction is known of the word that was fetched. For an instruction whose
words are told by their fields alone the converse holds too (`decode_eq_iff`). -/
namespace ChipEight

/-- The class, the first operand and the low byte make up a word. -/
theorem Word.toNat_fields (w : Word) :
    w.toNat = 4096 * w.opClass.toNat + 256 * w.x.toNat + w.kk.toNat := by
  have hw := w.isLt
  simp only [opClass, x, kk, BitVec.extractLsb'_toNat, Nat.shiftRight_eq_div_pow]
  omega

theorem Word.eq_of_fields {w v : Word} (opClass : w.opClass = v.opClass) (x : w.x = v.x)
    (kk : w.kk = v.kk) : w = v := by
  apply BitVec.eq_of_toNat_eq
  rw [toNat_fields, toNat_fields, opClass, x, kk]

/-- The two operands of four bits that a low byte consists of. -/
theorem Word.kk_eq_of_nibbles {w v : Word} (y : w.y = v.y) (n : w.n = v.n) : w.kk = v.kk := by
  have first := congrArg BitVec.toNat y
  have last := congrArg BitVec.toNat n
  apply BitVec.eq_of_toNat_eq
  simp only [Word.y, Word.n, Word.kk, BitVec.extractLsb'_toNat, Nat.shiftRight_eq_div_pow] at first last ⊢
  omega

/-- The class and the address make up a word. -/
theorem Word.eq_of_address {w v : Word} (opClass : w.opClass = v.opClass) (nnn : w.nnn = v.nnn) :
    w = v := by
  have high := congrArg BitVec.toNat opClass
  have low := congrArg BitVec.toNat nnn
  apply BitVec.eq_of_toNat_eq
  have := w.isLt
  have := v.isLt
  simp only [Word.opClass, Word.nnn, BitVec.extractLsb'_toNat, Nat.shiftRight_eq_div_pow] at high low
  omega

/-- The low nibble of the words of an operation between registers. -/
def Arith.selector : Arith → Nibble
  | .copy => 0x0
  | .or => 0x1
  | .and => 0x2
  | .xor => 0x3
  | .add => 0x4
  | .sub => 0x5
  | .subFrom => 0x7

namespace Instruction

/-- The word stands for the instruction. -/
def Encodes (w : Word) : Instruction → Prop
  | clear => w = 0x00E0#16
  | ret => w = 0x00EE#16
  | sys target => w.opClass = 0x0 ∧ w.nnn = target
  | jump target => w.opClass = 0x1 ∧ w.nnn = target
  | call target => w.opClass = 0x2 ∧ w.nnn = target
  | skipIfByte x b => w.opClass = 0x3 ∧ w.x = x ∧ w.kk = b
  | skipUnlessByte x b => w.opClass = 0x4 ∧ w.x = x ∧ w.kk = b
  | skipIfEqual x y => w.opClass = 0x5 ∧ w.n = 0 ∧ w.x = x ∧ w.y = y
  | loadByte x b => w.opClass = 0x6 ∧ w.x = x ∧ w.kk = b
  | addByte x b => w.opClass = 0x7 ∧ w.x = x ∧ w.kk = b
  | arith op x y => w.opClass = 0x8 ∧ w.n = op.selector ∧ w.x = x ∧ w.y = y
  | shiftRight x => w.opClass = 0x8 ∧ w.n = 0x6 ∧ w.x = x
  | shiftLeft x => w.opClass = 0x8 ∧ w.n = 0xE ∧ w.x = x
  | skipUnlessEqual x y => w.opClass = 0x9 ∧ w.n = 0 ∧ w.x = x ∧ w.y = y
  | loadIndex target => w.opClass = 0xA ∧ w.nnn = target
  | jumpOffset target => w.opClass = 0xB ∧ w.nnn = target
  | random x mask => w.opClass = 0xC ∧ w.x = x ∧ w.kk = mask
  | draw x y height => w.opClass = 0xD ∧ w.x = x ∧ w.y = y ∧ w.n = height
  | skipIfKey x => w.opClass = 0xE ∧ w.kk = 0x9E ∧ w.x = x
  | skipUnlessKey x => w.opClass = 0xE ∧ w.kk = 0xA1 ∧ w.x = x
  | readDelay x => w.opClass = 0xF ∧ w.kk = 0x07 ∧ w.x = x
  | awaitKey x => w.opClass = 0xF ∧ w.kk = 0x0A ∧ w.x = x
  | setDelay x => w.opClass = 0xF ∧ w.kk = 0x15 ∧ w.x = x
  | setSound x => w.opClass = 0xF ∧ w.kk = 0x18 ∧ w.x = x
  | addIndex x => w.opClass = 0xF ∧ w.kk = 0x1E ∧ w.x = x
  | glyph x => w.opClass = 0xF ∧ w.kk = 0x29 ∧ w.x = x
  | decimal x => w.opClass = 0xF ∧ w.kk = 0x33 ∧ w.x = x
  | store x => w.opClass = 0xF ∧ w.kk = 0x55 ∧ w.x = x
  | load x => w.opClass = 0xF ∧ w.kk = 0x65 ∧ w.x = x
  | data v => v = w

variable {w : Word}

theorem encodes_decodeArith (opClass : w.opClass = 0x8) : Encodes w (decodeArith w) := by
  unfold decodeArith
  split
  case h_10 => rfl
  all_goals
    rename_i n
    have n := eq_ofNat n
    simp [Encodes, Arith.selector, opClass, n]

theorem encodes_decodeMisc (opClass : w.opClass = 0xF) : Encodes w (decodeMisc w) := by
  unfold decodeMisc
  split
  case h_10 => rfl
  all_goals
    rename_i kk
    have kk := eq_ofNat kk
    simp [Encodes, opClass, kk]

/-- Every word stands for the instruction that it decodes to. -/
theorem encodes_decode (w : Word) : Encodes w (decode w) := by
  have hlt := w.opClass.isLt
  unfold decode
  split
  case h_16 =>
    -- the last class is what the fifteen tests before it leave over
    have last : w.opClass.toNat = 15 := by grind
    exact encodes_decodeMisc (eq_ofNat last)
  case h_9 opClass => exact encodes_decodeArith (eq_ofNat opClass)
  all_goals
    rename_i opClass
    have opClass := eq_ofNat opClass
    repeat' split
    all_goals simp_all [Encodes]

variable {i : Instruction}

theorem encodes_of_decode (decoded : decode w = i) : Encodes w i := by
  rw [← decoded]
  exact encodes_decode w

/-- Whether the words of an instruction are told by their fields alone. A `sys` is what is left over
of its class, and `data` what is left over of all others. -/
def proper : Instruction → Bool
  | sys _ | data _ => false
  | _ => true

theorem decode_of_encodes (proper : i.proper = true) (encodes : i.Encodes w) : decode w = i := by
  cases i with
  | sys target => cases proper
  | data v => cases proper
  | clear =>
    obtain rfl := encodes
    rfl
  | ret =>
    obtain rfl := encodes
    rfl
  | arith op x y =>
    obtain ⟨opClass, n, rfl, rfl⟩ := encodes
    cases op <;> simp [decode, decodeArith, opClass, n, Arith.selector]
  | _ =>
    simp only [Encodes] at encodes
    simp [decode, decodeArith, decodeMisc, encodes]

/-- A word can be told from its instruction, but for the second operand of a shift. -/
theorem decode_eq_decode_iff {w v : Word} : decode w = decode v ↔ w = v ∨
    ∃ x, (shiftRight x).Encodes w ∧ (shiftRight x).Encodes v ∨
      (shiftLeft x).Encodes w ∧ (shiftLeft x).Encodes v := by
  constructor
  · intro same
    have one := encodes_decode w
    have other := encodes_of_decode same.symm
    generalize decode w = i at one other
    cases i with
    | clear | ret => exact .inl (one.trans other.symm)
    | data => exact .inl (one.symm.trans other)
    | shiftRight x => exact .inr ⟨x, .inl ⟨one, other⟩⟩
    | shiftLeft x => exact .inr ⟨x, .inr ⟨one, other⟩⟩
    | sys | jump | call | loadIndex | jumpOffset =>
      exact .inl (Word.eq_of_address (one.1.trans other.1.symm) (one.2.trans other.2.symm))
    | skipIfByte | skipUnlessByte | loadByte | addByte | random =>
      obtain ⟨opClass, x, kk⟩ := one
      obtain ⟨opClass', x', kk'⟩ := other
      exact .inl (Word.eq_of_fields (opClass.trans opClass'.symm) (x.trans x'.symm) (kk.trans kk'.symm))
    | skipIfEqual | arith | skipUnlessEqual =>
      obtain ⟨opClass, n, x, y⟩ := one
      obtain ⟨opClass', n', x', y'⟩ := other
      exact .inl (Word.eq_of_fields (opClass.trans opClass'.symm) (x.trans x'.symm)
        (Word.kk_eq_of_nibbles (y.trans y'.symm) (n.trans n'.symm)))
    | draw =>
      obtain ⟨opClass, x, y, n⟩ := one
      obtain ⟨opClass', x', y', n'⟩ := other
      exact .inl (Word.eq_of_fields (opClass.trans opClass'.symm) (x.trans x'.symm)
        (Word.kk_eq_of_nibbles (y.trans y'.symm) (n.trans n'.symm)))
    | _ =>
      obtain ⟨opClass, kk, x⟩ := one
      obtain ⟨opClass', kk', x'⟩ := other
      exact .inl (Word.eq_of_fields (opClass.trans opClass'.symm) (x.trans x'.symm) (kk.trans kk'.symm))
  · rintro (rfl | ⟨x, ⟨one, other⟩ | ⟨one, other⟩⟩)
    · rfl
    · exact (decode_of_encodes rfl one).trans (decode_of_encodes rfl other).symm
    · exact (decode_of_encodes rfl one).trans (decode_of_encodes rfl other).symm

theorem decode_eq_iff (proper : i.proper = true) : decode w = i ↔ i.Encodes w :=
  ⟨encodes_of_decode, decode_of_encodes proper⟩

end Instruction

end ChipEight
