import ChipEight.Instruction.Basic
import ChipEight.Text.Hex

/-!
The assembler text of a word, and the listing of a program: one line for each word, with its address and
its bytes, and a `DB` line for a last odd byte. `Word.mnemonic` reads the text off the word; it is the text
of the instruction that the word encodes (`Word.mnemonic_eq`).
-/

namespace ChipEight

def Arith.name : Arith → String
  | .copy => "LD"
  | .or => "OR"
  | .and => "AND"
  | .xor => "XOR"
  | .add => "ADD"
  | .sub => "SUB"
  | .subFrom => "SUBN"

namespace Instruction

def register (x : Nibble) : String := "V" ++ Hex.nibble x

def immediate (b : Byte) : String := "0x" ++ Hex.byte b

def target (a : Address) : String := "0x" ++ Hex.pointer a

/-- The assembler text. What is no instruction is shown as data. -/
def mnemonic : Instruction → String
  | clear => "CLS"
  | ret => "RET"
  | sys a => "SYS " ++ target a
  | jump a => "JP " ++ target a
  | call a => "CALL " ++ target a
  | skipIfByte x b => "SE " ++ register x ++ ", " ++ immediate b
  | skipUnlessByte x b => "SNE " ++ register x ++ ", " ++ immediate b
  | skipIfEqual x y => "SE " ++ register x ++ ", " ++ register y
  | skipUnlessEqual x y => "SNE " ++ register x ++ ", " ++ register y
  | loadByte x b => "LD " ++ register x ++ ", " ++ immediate b
  | addByte x b => "ADD " ++ register x ++ ", " ++ immediate b
  | arith op x y => op.name ++ " " ++ register x ++ ", " ++ register y
  | shiftRight x => "SHR " ++ register x
  | shiftLeft x => "SHL " ++ register x
  | loadIndex a => "LD I, " ++ target a
  | jumpOffset a => "JP V0, " ++ target a
  | random x b => "RND " ++ register x ++ ", " ++ immediate b
  | draw x y n => "DRW " ++ register x ++ ", " ++ register y ++ ", " ++ toString n.toNat
  | skipIfKey x => "SKP " ++ register x
  | skipUnlessKey x => "SKNP " ++ register x
  | readDelay x => "LD " ++ register x ++ ", DT"
  | awaitKey x => "LD " ++ register x ++ ", K"
  | setDelay x => "LD DT, " ++ register x
  | setSound x => "LD ST, " ++ register x
  | addIndex x => "ADD I, " ++ register x
  | glyph x => "LD F, " ++ register x
  | decimal x => "LD B, " ++ register x
  | store x => "LD [I], " ++ register x
  | load x => "LD " ++ register x ++ ", [I]"
  | data w => "DW 0x" ++ Hex.word w

/-- The names in class 8, by the last digit. -/
def arithMnemonics : List (Nibble × String) :=
  [(0x0, "LD"),
   (0x1, "OR"),
   (0x2, "AND"),
   (0x3, "XOR"),
   (0x4, "ADD"),
   (0x5, "SUB"),
   (0x6, "SHR"),
   (0x7, "SUBN"),
   (0xE, "SHL")]

/-- The texts in class F, by the low byte, with a place for the register. -/
def miscMnemonics : List (Byte × (String → String)) :=
  [(0x07, fun vx => "LD " ++ vx ++ ", DT"),
   (0x0A, fun vx => "LD " ++ vx ++ ", K"),
   (0x15, fun vx => "LD DT, " ++ vx),
   (0x18, fun vx => "LD ST, " ++ vx),
   (0x1E, fun vx => "ADD I, " ++ vx),
   (0x29, fun vx => "LD F, " ++ vx),
   (0x33, fun vx => "LD B, " ++ vx),
   (0x55, fun vx => "LD [I], " ++ vx),
   (0x65, fun vx => "LD " ++ vx ++ ", [I]")]

end Instruction

namespace Word

open Instruction

/-- The assembler text of a word. What no line before the last has a text for is shown as data. -/
def mnemonic (w : Word) : String := Id.run do
  let vx := register w.x
  let vy := register w.y
  if w.opClass = 0x0 then
    if w = 0x00E0 then return "CLS"
    if w = 0x00EE then return "RET"
    return "SYS " ++ target w.nnn
  if w.opClass = 0x1 then return "JP " ++ target w.nnn
  if w.opClass = 0x2 then return "CALL " ++ target w.nnn
  if w.opClass = 0x3 then return "SE " ++ vx ++ ", " ++ immediate w.kk
  if w.opClass = 0x4 then return "SNE " ++ vx ++ ", " ++ immediate w.kk
  if w.opClass = 0x5 ∧ w.n = 0x0 then return "SE " ++ vx ++ ", " ++ vy
  if w.opClass = 0x6 then return "LD " ++ vx ++ ", " ++ immediate w.kk
  if w.opClass = 0x7 then return "ADD " ++ vx ++ ", " ++ immediate w.kk
  if w.opClass = 0x8 then
    if let some name := arithMnemonics.lookup w.n then
      if w.n = 0x6 ∨ w.n = 0xE then return name ++ " " ++ vx
      return name ++ " " ++ vx ++ ", " ++ vy
  if w.opClass = 0x9 ∧ w.n = 0x0 then return "SNE " ++ vx ++ ", " ++ vy
  if w.opClass = 0xA then return "LD I, " ++ target w.nnn
  if w.opClass = 0xB then return "JP V0, " ++ target w.nnn
  if w.opClass = 0xC then return "RND " ++ vx ++ ", " ++ immediate w.kk
  if w.opClass = 0xD then return "DRW " ++ vx ++ ", " ++ vy ++ ", " ++ toString w.n.toNat
  if w.opClass = 0xE then
    if w.kk = 0x9E then return "SKP " ++ vx
    if w.kk = 0xA1 then return "SKNP " ++ vx
  if w.opClass = 0xF then
    if let some text := miscMnemonics.lookup w.kk then return text vx
  return "DW 0x" ++ Hex.word w

variable {w : Word}

theorem mnemonic_of_arith (opClass : w.opClass = 0x8) : w.mnemonic = (decodeArith w).mnemonic := by
  unfold decodeArith
  split
  case h_10 =>
    have none : arithMnemonics.lookup w.n = none := by
      simp only [arithMnemonics, lookup_cons, ← BitVec.toNat_inj]
      grind
    simp [mnemonic, opClass, none, Instruction.mnemonic]
  all_goals
    rename_i n
    have n := eq_ofNat n
    simp [mnemonic, opClass, n, arithMnemonics, lookup_cons, Instruction.mnemonic, Arith.name]

theorem mnemonic_of_misc (opClass : w.opClass = 0xF) : w.mnemonic = (decodeMisc w).mnemonic := by
  unfold decodeMisc
  split
  case h_10 =>
    have none : miscMnemonics.lookup w.kk = none := by
      simp only [miscMnemonics, lookup_cons, ← BitVec.toNat_inj]
      grind
    simp [mnemonic, opClass, none, Instruction.mnemonic]
  all_goals
    rename_i kk
    have kk := eq_ofNat kk
    simp [mnemonic, opClass, kk, miscMnemonics, lookup_cons, Instruction.mnemonic]

/-- The text of a word is that of the instruction that the word encodes. -/
theorem mnemonic_eq (w : Word) : w.mnemonic = (decode w).mnemonic := by
  have below := w.opClass.isLt
  unfold decode
  split
  case h_9 opClass => exact mnemonic_of_arith (eq_ofNat opClass)
  case h_16 =>
    have last : w.opClass.toNat = 15 := by grind
    exact mnemonic_of_misc (eq_ofNat last)
  all_goals
    rename_i opClass
    have opClass := eq_ofNat opClass
    repeat' split
    all_goals simp_all [mnemonic, Instruction.mnemonic]

end Word

/-- A word with its assembler text, as it is shown for inspection. -/
def Word.describe (w : Word) : String :=
  "Instruction(0x" ++ Hex.word w ++ " " ++ w.mnemonic ++ ")"

namespace Listing

def address (a : Int) : String := Hex.signed 3 a

def wordLine (a : Int) (high low : Byte) : String :=
  address a ++ ": " ++ Hex.byte high ++ Hex.byte low ++ "  " ++ (Word.ofBytes high low).mnemonic

/-- The line of a last byte that has no partner. -/
def byteLine (a : Int) (b : Byte) : String :=
  address a ++ ": " ++ Hex.byte b ++ "    DB 0x" ++ Hex.byte b

end Listing

/-- The listing of a program whose first byte lies at address `start`. -/
def disassemble : List Byte → (start : Int) → List String
  | [], _ => []
  | [b], start => [Listing.byteLine start b]
  | high :: low :: rest, start =>
    Listing.wordLine start high low :: disassemble rest (start + 2)

end ChipEight
