import ChipEight.Word

/-!
A table has one cell for every word of `w` bits. Memory, the register bank, the stack, the keys and
the screen are all tables, so an index can never be out of range, and one law (`get_set`) says all
there is to say about a write: it changes the cell it names and no other.
-/

namespace ChipEight

/-- One cell of type `α` for each word of `w` bits. -/
structure Table (w : Nat) (α : Type) where
  -- `Nat.pow` by name: what `^` stands for depends on the algebra that a module imports
  cells : Vector α (Nat.pow 2 w)
deriving DecidableEq

namespace Table

variable {w : Nat} {α : Type}

def fill (w : Nat) (a : α) : Table w α := ⟨Vector.replicate (Nat.pow 2 w) a⟩

def get (t : Table w α) (i : BitVec w) : α := t.cells.get i.toFin

def set (t : Table w α) (i : BitVec w) (a : α) : Table w α := ⟨t.cells.set i.toNat a i.isLt⟩

def toList (t : Table w α) : List α := t.cells.toList

/-- The contents of `n` consecutive cells from `start`, continuing at cell 0 after the last. -/
def read (t : Table w α) (start : BitVec w) (n : Nat) : List α :=
  (List.range n).map fun k => t.get (start + BitVec.ofNat w k)

/-- Stores a list in consecutive cells from `start`, continuing at cell 0 after the last. -/
def write (t : Table w α) (start : BitVec w) : List α → Table w α
  | [] => t
  | a :: as => (t.set start a).write (start + 1) as

@[simp] theorem get_fill (a : α) (i : BitVec w) : (fill w a).get i = a := by
  simp [fill, get, Vector.get]

theorem get_eq_getElem (t : Table w α) (i : BitVec w) : t.get i = getElem t.cells i.toNat i.isLt := rfl

theorem get_set (t : Table w α) (i j : BitVec w) (a : α) :
    (t.set i a).get j = if i = j then a else t.get j := by
  simp only [get_eq_getElem, set, Vector.getElem_set, ← BitVec.toNat_inj]

@[simp] theorem get_set_self (t : Table w α) (i : BitVec w) (a : α) : (t.set i a).get i = a := by
  simp [get_set]

theorem get_set_of_ne (t : Table w α) {i j : BitVec w} (h : i ≠ j) (a : α) :
    (t.set i a).get j = t.get j := by
  simp [get_set, h]

theorem ext_get {t u : Table w α} (h : ∀ i, t.get i = u.get i) : t = u := by
  obtain ⟨t⟩ := t
  obtain ⟨u⟩ := u
  congr 1
  refine Vector.ext fun i hi => ?_
  have hmod : i % 2 ^ w = i := Nat.mod_eq_of_lt hi
  have := h (BitVec.ofNat w i)
  simpa [get_eq_getElem, hmod] using this

theorem add_one_add_ofNat (start : BitVec w) (k : Nat) :
    start + 1 + BitVec.ofNat w k = start + BitVec.ofNat w (k + 1) := by
  have succ : BitVec.ofNat w (k + 1) = BitVec.ofNat w k + 1 := BitVec.ofNat_add k 1
  rw [succ, BitVec.add_assoc, BitVec.add_comm 1]

theorem get_write_of_forall_ne (t : Table w α) {start i : BitVec w} {as : List α}
    (missed : ∀ k < as.length, start + BitVec.ofNat w k ≠ i) :
    (t.write start as).get i = t.get i := by
  induction as generalizing t start with
  | nil => rfl
  | cons a as ih =>
    have first : start ≠ i := by
      have zero := missed 0 (Nat.zero_lt_succ _)
      rwa [BitVec.add_zero] at zero
    have rest : ∀ k < as.length, start + 1 + BitVec.ofNat w k ≠ i := by
      intro k inside
      rw [add_one_add_ofNat]
      exact missed (k + 1) (Nat.succ_lt_succ inside)
    rw [write, ih _ rest, get_set_of_ne _ first]

/-- A list that the table has room for is found where it was written. -/
theorem get_write_add (t : Table w α) (start : BitVec w) {as : List α}
    (fits : as.length ≤ Nat.pow 2 w) {k : Nat} (inside : k < as.length) :
    (t.write start as).get (start + BitVec.ofNat w k) = as[k] := by
  induction as generalizing t start k with
  | nil => cases inside
  | cons a as ih =>
    rw [List.length_cons] at fits inside
    cases k with
    | zero =>
      -- the cells behind the first do not come round to it
      have missed : ∀ j < as.length, start + 1 + BitVec.ofNat w j ≠ start := by
        intro j hj same
        rw [add_one_add_ofNat, BitVec.add_right_eq_self] at same
        have zero := congrArg BitVec.toNat same
        have short : j + 1 < 2 ^ w := Nat.lt_of_lt_of_le (Nat.succ_lt_succ hj) fits
        rw [BitVec.toNat_ofNat, Nat.mod_eq_of_lt short, BitVec.toNat_zero] at zero
        omega
      rw [BitVec.add_zero, write, get_write_of_forall_ne _ missed, get_set_self]
      rfl
    | succ k =>
      rw [← add_one_add_ofNat, write]
      exact ih _ _ (by omega) (by omega)

@[simp] theorem length_read (t : Table w α) (start : BitVec w) (n : Nat) :
    (t.read start n).length = n := by
  simp [read]

end Table

end ChipEight
