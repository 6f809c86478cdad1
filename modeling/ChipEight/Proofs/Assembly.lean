import ChipEight.Proofs.Digits

/-! # Assembler text

The text of an instruction is the name of an operation and its operands. Names and operands contain no
blank and no comma, so the text falls apart into them again, and each of them is read back by itself: what
the disassembler writes can be assembled (`assemble?_mnemonic`), and no two instructions have one text
(`mnemonic_inj`). -/
namespace ChipEight

/-- The names of the assembler. One name stands for several instructions that take other operands. -/
inductive Operation
  | cls | ret | sys | jp | call | se | sne | ld | add | or | and | xor | sub | subn | shr | shl | rnd | drw
  | skp | sknp | dw
deriving DecidableEq, Repr

/-- The operands that are neither registers of the program nor numbers. -/
inductive Symbol
  | index | atIndex | delay | sound | key | glyph | decimal
deriving DecidableEq, Repr

/-- An operand. -/
inductive Operand
  | register (x : Nibble)
  | byte (b : Byte)
  | address (a : Address)
  | word (w : Word)
  | number (n : Nibble)
  | symbol (s : Symbol)
deriving DecidableEq, Repr

/-- A line of assembler. -/
structure Assembly where
  operation : Operation
  operands : List Operand
deriving DecidableEq, Repr

/-! ## Texts -/

namespace Operation

def text : Operation → String
  | cls => "CLS"
  | ret => "RET"
  | sys => "SYS"
  | jp => "JP"
  | call => "CALL"
  | se => "SE"
  | sne => "SNE"
  | ld => "LD"
  | add => "ADD"
  | or => "OR"
  | and => "AND"
  | xor => "XOR"
  | sub => "SUB"
  | subn => "SUBN"
  | shr => "SHR"
  | shl => "SHL"
  | rnd => "RND"
  | drw => "DRW"
  | skp => "SKP"
  | sknp => "SKNP"
  | dw => "DW"

def all : List Operation :=
  [cls, ret, sys, jp, call, se, sne, ld, add, or, and, xor, sub, subn, shr, shl, rnd, drw, skp, sknp, dw]

/-- The operation of a name. -/
def read (s : List Char) : Option Operation := all.find? fun o => o.text.toList = s

theorem read_text (o : Operation) : read o.text.toList = some o := by
  cases o <;> decide +kernel

end Operation

namespace Symbol

def text : Symbol → String
  | index => "I"
  | atIndex => "[I]"
  | delay => "DT"
  | sound => "ST"
  | key => "K"
  | glyph => "F"
  | decimal => "B"

def all : List Symbol := [index, atIndex, delay, sound, key, glyph, decimal]

end Symbol

namespace Operand

def text : Operand → String
  | register x => Instruction.register x
  | byte b => Instruction.immediate b
  | address a => Instruction.target a
  | word w => "0x" ++ Hex.word w
  | number n => toString n.toNat
  | symbol s => s.text

/-- The number of a hexadecimal operand. Its kind is told by its width. -/
def ofDigits (ds : List Nibble) : Option Operand :=
  match ds.length with
  | 2 => some (byte (BitVec.ofNat 8 (Hex.number ds)))
  | 3 => some (address (BitVec.ofNat 12 (Hex.number ds)))
  | 4 => some (word (BitVec.ofNat 16 (Hex.number ds)))
  | _ => none

/-- The operand of a text. -/
def read : List Char → Option Operand
  | '0' :: 'x' :: ds => (ds.mapM Hex.digit?).bind ofDigits
  | ['V', x] => (Hex.digit? x).map register
  | s => (Symbol.all.map symbol ++ (List.finRange 16).map fun n => number (BitVec.ofFin n)).find? fun o =>
      o.text.toList = s

variable {o : Operand}

theorem read_hex (ds : List Nibble) : read ('0' :: 'x' :: ds.map Hex.digit) = ofDigits ds := by
  rw [read, Hex.mapM_digit?]
  rfl

theorem read_text (o : Operand) : read o.text.toList = some o := by
  cases o with
  | register x =>
    have shown : (text (register x)).toList = ['V', Hex.digit x] := by
      simp [text, Instruction.register, Hex.nibble_eq]
    rw [shown]
    exact congrArg (Option.map register) (Hex.digit?_digit x)
  | byte b =>
    have shown : (text (byte b)).toList =
        '0' :: 'x' :: [b.extractLsb' 4 4, Byte.nibble b].map Hex.digit := by
      simp [text, Instruction.immediate, Hex.byte_eq, Byte.digits]
    have digits : ofDigits [b.extractLsb' 4 4, Byte.nibble b] = some (byte (BitVec.ofNat 8 b.toNat)) := by
      rw [← Byte.number_digits]
      rfl
    rw [shown, read_hex, digits, BitVec.ofNat_toNat, BitVec.setWidth_eq]
  | address a =>
    have shown : (text (address a)).toList =
        '0' :: 'x' :: [a.extractLsb' 8 4, a.extractLsb' 4 4, a.extractLsb' 0 4].map Hex.digit := by
      simp [text, Instruction.target, Hex.pointer_eq]
    have digits : ofDigits [a.extractLsb' 8 4, a.extractLsb' 4 4, a.extractLsb' 0 4] =
        some (address (BitVec.ofNat 12 a.toNat)) := by
      rw [← Address.number_digits]
      rfl
    rw [shown, read_hex, digits, BitVec.ofNat_toNat, BitVec.setWidth_eq]
  | word w =>
    have shown : (text (word w)).toList = '0' :: 'x' :: [w.opClass, w.x, w.y, w.n].map Hex.digit := by
      simp [text, Hex.word_eq, Word.digits]
    have digits : ofDigits [w.opClass, w.x, w.y, w.n] = some (word (BitVec.ofNat 16 w.toNat)) := by
      rw [← Word.number_digits]
      rfl
    rw [shown, read_hex, digits, BitVec.ofNat_toNat, BitVec.setWidth_eq]
  | number n =>
    have each : ∀ n : Nibble, read (text (number n)).toList = some (number n) := by decide +kernel
    exact each n
  | symbol s => cases s <;> decide +kernel

/-- Whether a character can stand in a name or an operand: blanks and commas stand between them. -/
def isPlain (c : Char) : Bool := c ≠ ' ' && c ≠ ','

theorem isPlain_padded {width n : Nat} {c : Char} (inside : c ∈ (Hex.padded width n).toList) :
    isPlain c = true := by
  have digits : ∀ d : Nibble, isPlain (Hex.digit d) = true := by decide
  obtain ⟨d, rfl⟩ := Hex.mem_padded inside
  exact digits d

theorem isPlain_hex {width n : Nat} {c : Char} (inside : c ∈ ("0x" ++ Hex.padded width n).toList) :
    isPlain c = true := by
  rw [String.toList_append, List.mem_append] at inside
  rcases inside with mark | digits
  · have plain : "0x".toList.all isPlain = true := by decide
    exact List.all_eq_true.mp plain c mark
  · exact isPlain_padded digits

theorem isPlain_text {c : Char} (inside : c ∈ o.text.toList) : isPlain c = true := by
  cases o with
  | register x =>
    rw [text, Instruction.register, String.toList_append, List.mem_append] at inside
    rcases inside with mark | digits
    · obtain rfl := List.mem_singleton.mp mark
      rfl
    · exact isPlain_padded digits
  | byte b => exact isPlain_hex inside
  | address a => exact isPlain_hex inside
  | word w => exact isPlain_hex inside
  | number n =>
    have plain : ∀ n : Nibble, (text (number n)).toList.all isPlain = true := by decide +kernel
    exact List.all_eq_true.mp (plain n) c inside
  | symbol s =>
    have plain : s.text.toList.all isPlain = true := by cases s <;> decide
    exact List.all_eq_true.mp plain c inside

/-- The operands of a line. Each but the last has a comma behind it. -/
def listed : List Operand → List String
  | [] => []
  | [o] => [o.text]
  | o :: os => (o.text ++ ",") :: listed os

/-- The operands in what stands between the blanks of a line. -/
def readAll (texts : List (List Char)) : Option (List Operand) :=
  texts.mapM fun s => read (s.filter (· ≠ ','))

theorem filter_text (o : Operand) : o.text.toList.filter (· ≠ ',') = o.text.toList := by
  rw [List.filter_eq_self]
  intro c inside
  have plain := isPlain_text inside
  rw [isPlain, Bool.and_eq_true] at plain
  exact plain.2

theorem readAll_listed (os : List Operand) : readAll ((listed os).map String.toList) = some os := by
  fun_induction listed os with
  | case1 => rfl
  | case2 o =>
    rw [readAll, List.map_singleton, List.mapM_cons, filter_text, read_text]
    rfl
  | case3 o os more ih =>
    have comma : ((o.text ++ ",").toList.filter (· ≠ ',')) = o.text.toList := by
      rw [String.toList_append, List.filter_append, filter_text]
      exact List.append_nil _
    rw [readAll] at ih ⊢
    rw [List.map_cons, List.mapM_cons, comma, read_text, ih]
    rfl

theorem not_blank_of_listed {os : List Operand} {s : String} (inside : s ∈ listed os) :
    ' ' ∉ s.toList := by
  have blank (o : Operand) : ' ' ∉ o.text.toList := fun inside => by cases isPlain_text inside
  fun_induction listed os with
  | case1 => cases inside
  | case2 o =>
    obtain rfl := List.mem_singleton.mp inside
    exact blank o
  | case3 o os more ih =>
    rcases List.mem_cons.mp inside with rfl | later
    · rw [String.toList_append, List.mem_append]
      rintro (text | comma)
      · exact blank o text
      · exact absurd comma (by decide)
    · exact ih later

end Operand

namespace Assembly

/-- What stands between the blanks of a line. -/
def fields (a : Assembly) : List String := a.operation.text :: Operand.listed a.operands

def text (a : Assembly) : String := " ".intercalate a.fields

/-- The line of a text. -/
def read (s : String) : Option Assembly :=
  match s.toList.splitOn ' ' with
  | [] => none
  | name :: operands => do
    let operation ← Operation.read name
    let operands ← Operand.readAll operands
    return ⟨operation, operands⟩

theorem splitOn_text (a : Assembly) : a.text.toList.splitOn ' ' = a.fields.map String.toList := by
  have blank : " ".toList = [' '] := rfl
  rw [text, String.toList_intercalate, blank]
  refine List.splitOn_intercalate ' ' (fun s inside => ?_) (by simp [fields])
  obtain ⟨field, member, rfl⟩ := List.mem_map.mp inside
  rcases List.mem_cons.mp member with rfl | operand
  · have each : ∀ o ∈ Operation.all, ' ' ∉ o.text.toList := by decide +kernel
    exact each a.operation (by cases a.operation <;> decide)
  · exact Operand.not_blank_of_listed operand

/-- A line is read back from its text. -/
theorem read_text (a : Assembly) : read a.text = some a := by
  rw [read, splitOn_text, fields, List.map_cons]
  simp only [Operation.read_text, Operand.readAll_listed]
  rfl

end Assembly

/-! ## Instructions -/

/-- The name of an operation between registers. -/
def Arith.operation : Arith → Operation
  | copy => .ld
  | or => .or
  | and => .and
  | xor => .xor
  | add => .add
  | sub => .sub
  | subFrom => .subn

namespace Instruction

/-- The line of an instruction. -/
def assembly : Instruction → Assembly
  | clear => ⟨.cls, []⟩
  | ret => ⟨.ret, []⟩
  | sys a => ⟨.sys, [.address a]⟩
  | jump a => ⟨.jp, [.address a]⟩
  | call a => ⟨.call, [.address a]⟩
  | skipIfByte x b => ⟨.se, [.register x, .byte b]⟩
  | skipUnlessByte x b => ⟨.sne, [.register x, .byte b]⟩
  | skipIfEqual x y => ⟨.se, [.register x, .register y]⟩
  | skipUnlessEqual x y => ⟨.sne, [.register x, .register y]⟩
  | loadByte x b => ⟨.ld, [.register x, .byte b]⟩
  | addByte x b => ⟨.add, [.register x, .byte b]⟩
  | arith op x y => ⟨op.operation, [.register x, .register y]⟩
  | shiftRight x => ⟨.shr, [.register x]⟩
  | shiftLeft x => ⟨.shl, [.register x]⟩
  | loadIndex a => ⟨.ld, [.symbol .index, .address a]⟩
  | jumpOffset a => ⟨.jp, [.register 0, .address a]⟩
  | random x b => ⟨.rnd, [.register x, .byte b]⟩
  | draw x y n => ⟨.drw, [.register x, .register y, .number n]⟩
  | skipIfKey x => ⟨.skp, [.register x]⟩
  | skipUnlessKey x => ⟨.sknp, [.register x]⟩
  | readDelay x => ⟨.ld, [.register x, .symbol .delay]⟩
  | awaitKey x => ⟨.ld, [.register x, .symbol .key]⟩
  | setDelay x => ⟨.ld, [.symbol .delay, .register x]⟩
  | setSound x => ⟨.ld, [.symbol .sound, .register x]⟩
  | addIndex x => ⟨.add, [.symbol .index, .register x]⟩
  | glyph x => ⟨.ld, [.symbol .glyph, .register x]⟩
  | decimal x => ⟨.ld, [.symbol .decimal, .register x]⟩
  | store x => ⟨.ld, [.symbol .atIndex, .register x]⟩
  | load x => ⟨.ld, [.register x, .symbol .atIndex]⟩
  | data w => ⟨.dw, [.word w]⟩

/-- The instruction of a line. The kinds of the operands tell the instructions of one name apart. -/
def ofAssembly : Assembly → Option Instruction
  | ⟨.cls, []⟩ => some clear
  | ⟨.ret, []⟩ => some ret
  | ⟨.sys, [.address a]⟩ => some (sys a)
  | ⟨.jp, [.address a]⟩ => some (jump a)
  | ⟨.jp, [.register x, .address a]⟩ => if x = 0 then some (jumpOffset a) else none
  | ⟨.call, [.address a]⟩ => some (call a)
  | ⟨.se, [.register x, .byte b]⟩ => some (skipIfByte x b)
  | ⟨.se, [.register x, .register y]⟩ => some (skipIfEqual x y)
  | ⟨.sne, [.register x, .byte b]⟩ => some (skipUnlessByte x b)
  | ⟨.sne, [.register x, .register y]⟩ => some (skipUnlessEqual x y)
  | ⟨.ld, [.register x, .byte b]⟩ => some (loadByte x b)
  | ⟨.ld, [.register x, .register y]⟩ => some (arith .copy x y)
  | ⟨.ld, [.symbol .index, .address a]⟩ => some (loadIndex a)
  | ⟨.ld, [.register x, .symbol .delay]⟩ => some (readDelay x)
  | ⟨.ld, [.register x, .symbol .key]⟩ => some (awaitKey x)
  | ⟨.ld, [.register x, .symbol .atIndex]⟩ => some (load x)
  | ⟨.ld, [.symbol .delay, .register x]⟩ => some (setDelay x)
  | ⟨.ld, [.symbol .sound, .register x]⟩ => some (setSound x)
  | ⟨.ld, [.symbol .glyph, .register x]⟩ => some (glyph x)
  | ⟨.ld, [.symbol .decimal, .register x]⟩ => some (decimal x)
  | ⟨.ld, [.symbol .atIndex, .register x]⟩ => some (store x)
  | ⟨.add, [.register x, .byte b]⟩ => some (addByte x b)
  | ⟨.add, [.register x, .register y]⟩ => some (arith .add x y)
  | ⟨.add, [.symbol .index, .register x]⟩ => some (addIndex x)
  | ⟨.or, [.register x, .register y]⟩ => some (arith .or x y)
  | ⟨.and, [.register x, .register y]⟩ => some (arith .and x y)
  | ⟨.xor, [.register x, .register y]⟩ => some (arith .xor x y)
  | ⟨.sub, [.register x, .register y]⟩ => some (arith .sub x y)
  | ⟨.subn, [.register x, .register y]⟩ => some (arith .subFrom x y)
  | ⟨.shr, [.register x]⟩ => some (shiftRight x)
  | ⟨.shl, [.register x]⟩ => some (shiftLeft x)
  | ⟨.rnd, [.register x, .byte b]⟩ => some (random x b)
  | ⟨.drw, [.register x, .register y, .number n]⟩ => some (draw x y n)
  | ⟨.skp, [.register x]⟩ => some (skipIfKey x)
  | ⟨.sknp, [.register x]⟩ => some (skipUnlessKey x)
  | ⟨.dw, [.word w]⟩ => some (data w)
  | _ => none

/-- The instruction of a text. -/
def assemble? (s : String) : Option Instruction := (Assembly.read s).bind ofAssembly

theorem ofAssembly_assembly (i : Instruction) : ofAssembly i.assembly = some i := by
  cases i with
  | arith op x y => cases op <;> rfl
  | _ => rfl

theorem mnemonic_eq (i : Instruction) : i.mnemonic = i.assembly.text := by
  have zero : (register 0#4).toList = ['V', '0'] := by decide +kernel
  rw [← String.toList_inj]
  cases i with
  | arith op x y =>
    cases op <;> simp [mnemonic, assembly, Arith.name, Arith.operation, Assembly.text, Assembly.fields,
      Operation.text, Operand.listed, Operand.text]
  | _ => simp [mnemonic, assembly, Assembly.text, Assembly.fields, Operation.text, Operand.listed,
      Operand.text, Symbol.text, zero]

/-- What the disassembler writes can be assembled. -/
theorem assemble?_mnemonic (i : Instruction) : assemble? i.mnemonic = some i := by
  rw [assemble?, mnemonic_eq, Assembly.read_text]
  exact ofAssembly_assembly i

theorem mnemonic_inj {i j : Instruction} : i.mnemonic = j.mnemonic ↔ i = j := by
  refine ⟨fun same => ?_, fun same => by rw [same]⟩
  apply Option.some.inj
  rw [← assemble?_mnemonic, ← assemble?_mnemonic, same]

end Instruction

end ChipEight
