/-!
The words of the machine. Every quantity that the machine stores has a fixed width, so each is a
bit vector and its arithmetic wraps by itself; an integer that comes from outside is reduced with
`BitVec.ofInt`, which keeps its low bits whatever its size and sign.
-/

namespace ChipEight

abbrev Byte := BitVec 8

/-- Sixteen bits: an instruction, the index register, the program counter or a stack slot. -/
abbrev Word := BitVec 16

abbrev Address := BitVec 12

/-- Four bits: the index of a register, a key, or the height of a sprite. -/
abbrev Nibble := BitVec 4

namespace Word

/-- The class of an instruction: its top four bits. -/
def opClass (w : Word) : Nibble := w.extractLsb' 12 4

def x (w : Word) : Nibble := w.extractLsb' 8 4

def y (w : Word) : Nibble := w.extractLsb' 4 4

/-- The low four bits: a sprite height, or the selector inside a class. -/
def n (w : Word) : Nibble := w.extractLsb' 0 4

/-- The low byte: an immediate value, or the selector inside a class. -/
def kk (w : Word) : Byte := w.extractLsb' 0 8

def nnn (w : Word) : Address := w.extractLsb' 0 12

/-- The memory cell that a sixteen-bit pointer designates: its low twelve bits. -/
def address (w : Word) : Address := w.setWidth 12

/-- The word stored as two bytes, the high byte first. -/
def ofBytes (high low : Byte) : Word := high ++ low

end Word

theorem eq_ofNat {k n : Nat} {a : BitVec k} (h : a.toNat = n) : a = BitVec.ofNat k n := by
  rw [← h, BitVec.ofNat_toNat, BitVec.setWidth_eq]

theorem lookup_cons {k : Nat} {α : Type} (key selector : BitVec k) (a : α)
    (table : List (BitVec k × α)) : ((key, a) :: table).lookup selector =
      if selector = key then some a else table.lookup selector := by
  rw [List.lookup_cons]
  by_cases same : selector = key
  · have equal : (selector == key) = true := beq_iff_eq.mpr same
    rw [equal, if_pos same]
  · have other : (selector == key) = false := beq_false_of_ne same
    rw [other, if_neg same]

/-- The register or key that a byte designates: its low four bits. -/
def Byte.nibble (b : Byte) : Nibble := b.setWidth 4

end ChipEight
