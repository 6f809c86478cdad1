import Mathlib.Algebra.GroupWithZero.Nat
import Mathlib.Data.List.Induction
import ChipEight.Instruction.Mnemonic

/-! # Hexadecimal digits

The text of a number is a list of digits that make up the number (`exists_padded`), whatever zeros stand in
front. A byte has two digits and a word has four, one for each field of four bits. -/
namespace ChipEight

namespace Hex

/-- The upper-case digit for four bits. -/
def digit (n : Nibble) : Char :=
  ['0', '1', '2', '3', '4', '5', '6', '7', '8', '9', 'A', 'B', 'C', 'D', 'E', 'F'].getD n.toNat '0'

theorem toUpper_digitChar (n : Nat) : (Nat.digitChar (n % 16)).toUpper = digit (BitVec.ofNat 4 n) := by
  have each : ∀ k : Fin 16, (Nat.digitChar k).toUpper = digit (BitVec.ofFin k) := by decide
  exact each ⟨n % 16, Nat.mod_lt n (by decide)⟩

theorem digits_of_lt {n : Nat} (small : n < 16) : digits n = [digit (BitVec.ofNat 4 n)] := by
  rw [digits, Nat.toDigits_of_lt_base small, List.map_singleton, ← toUpper_digitChar,
    Nat.mod_eq_of_lt small]

theorem digits_of_le {n : Nat} (large : 16 ≤ n) :
    digits n = digits (n / 16) ++ [digit (BitVec.ofNat 4 n)] := by
  rw [digits, Nat.toDigits_eq_if (by decide), if_neg (Nat.not_lt.mpr large), List.map_append,
    List.map_singleton, toUpper_digitChar]
  rfl

theorem digit_inj {c d : Nibble} : digit c = digit d ↔ c = d := by
  have each : ∀ c d : Nibble, digit c = digit d ↔ c = d := by decide
  exact each c d

/-- The four bits of an upper-case digit. -/
def digit? (c : Char) : Option Nibble := ((List.range 16).map (BitVec.ofNat 4)).find? fun d => digit d = c

theorem digit?_digit (d : Nibble) : digit? (digit d) = some d := by
  have each : ∀ d : Nibble, digit? (digit d) = some d := by decide
  exact each d

theorem mapM_digit? (ds : List Nibble) : (ds.map digit).mapM digit? = some ds := by
  induction ds with
  | nil => rfl
  | cons d ds ih =>
    rw [List.map_cons, List.mapM_cons, digit?_digit, ih]
    rfl

/-- The number that digits make up, the most significant one first. -/
def number (ds : List Nibble) : Nat := ds.foldl (fun n d => 16 * n + d.toNat) 0

theorem number_concat (ds : List Nibble) (d : Nibble) : number (ds ++ [d]) = 16 * number ds + d.toNat := by
  rw [number, List.foldl_append]
  rfl

theorem number_lt (ds : List Nibble) : number ds < 16 ^ ds.length := by
  induction ds using List.reverseRecOn with
  | nil => exact Nat.one_pos
  | append_singleton ds d ih =>
    rw [number_concat, List.length_append, List.length_singleton, Nat.pow_succ]
    have := d.isLt
    omega

/-- A number that does not start with zero fills all its places. -/
theorem le_number {ds : List Nibble} (places : ds ≠ []) (first : ds.head? ≠ some 0) :
    16 ^ (ds.length - 1) ≤ number ds := by
  induction ds using List.reverseRecOn with
  | nil => exact absurd rfl places
  | append_singleton ds d ih =>
    rw [number_concat, List.length_append, List.length_singleton, Nat.add_sub_cancel]
    cases ds with
    | nil =>
      have value : d.toNat ≠ 0 := fun zero => first (congrArg some (BitVec.eq_of_toNat_eq zero))
      have empty : number [] = 0 := rfl
      rw [List.length_nil, empty]
      omega
    | cons c ds =>
      have shifted : 16 ^ (c :: ds).length = 16 * 16 ^ ((c :: ds).length - 1) := by
        rw [List.length_cons, Nat.add_sub_cancel, Nat.pow_succ, Nat.mul_comm]
      have := ih (List.cons_ne_nil c ds) first
      omega

theorem number_inj {ds es : List Nibble} (places : ds.length = es.length)
    (same : number ds = number es) : ds = es := by
  induction ds using List.reverseRecOn generalizing es with
  | nil => exact (List.length_eq_zero_iff.mp places.symm).symm
  | append_singleton ds d ih =>
    cases es using List.reverseRecOn with
    | nil => simp at places
    | append_singleton es e =>
      rw [List.length_append, List.length_append] at places
      rw [number_concat, number_concat] at same
      have := d.isLt
      have := e.isLt
      have last : d = e := BitVec.eq_of_toNat_eq (by omega)
      rw [ih (Nat.add_right_cancel places) (by omega), last]

theorem number_zeros (k : Nat) (ds : List Nibble) : number (List.replicate k 0 ++ ds) = number ds := by
  induction k with
  | zero => rfl
  | succ k ih => exact ih

/-- The digits of a number make it up, and the first of several is not zero. -/
theorem exists_digits (n : Nat) : ∃ ds : List Nibble, digits n = ds.map digit ∧ number ds = n ∧
    ds ≠ [] ∧ (1 < ds.length → ds.head? ≠ some 0) := by
  induction n using Nat.strongRecOn with
  | ind n ih =>
    have last : (BitVec.ofNat 4 n).toNat = n % 16 := BitVec.toNat_ofNat _ _
    rcases Nat.lt_or_ge n 16 with small | large
    · refine ⟨[BitVec.ofNat 4 n], digits_of_lt small, ?_, by simp, by simp⟩
      have value : number [BitVec.ofNat 4 n] = (BitVec.ofNat 4 n).toNat := Nat.zero_add _
      rw [value, last, Nat.mod_eq_of_lt small]
    · obtain ⟨ds, text, value, nonempty, first⟩ := ih (n / 16) (by omega)
      refine ⟨ds ++ [BitVec.ofNat 4 n], ?_, ?_, by simp, fun _ => ?_⟩
      · rw [digits_of_le large, text, List.map_append, List.map_singleton]
      · rw [number_concat, value, last]
        omega
      · cases ds with
        | nil => exact absurd rfl nonempty
        | cons d ds =>
          intro zero
          obtain rfl : d = 0 := by simpa using zero
          cases ds with
          | nil =>
            have value : 0 = n / 16 := value
            omega
          | cons => exact first (by simp) rfl

/-- Behind the zeros that fill it up, the text of a number is its digits. -/
theorem exists_padded (width n : Nat) : ∃ ds : List Nibble, (padded width n).toList = ds.map digit ∧
    number ds = n ∧ width ≤ ds.length ∧ (1 < ds.length → width < ds.length → ds.head? ≠ some 0) := by
  obtain ⟨ds, text, value, -, first⟩ := exists_digits n
  refine ⟨List.replicate (width - ds.length) 0 ++ ds, ?_, ?_, ?_, fun several longer => ?_⟩
  · have zero : digit 0 = '0' := rfl
    rw [padded, String.toList_ofList, text, List.leftpad, List.length_map, List.map_append,
      List.map_replicate, zero]
  · rw [number_zeros, value]
  · rw [List.length_append, List.length_replicate]
    omega
  · rw [List.length_append, List.length_replicate] at several longer
    have none : width - ds.length = 0 := by omega
    rw [none] at several ⊢
    exact first (by omega)

theorem mem_padded {width n : Nat} {c : Char} (inside : c ∈ (padded width n).toList) :
    ∃ d, digit d = c := by
  obtain ⟨ds, text, -⟩ := exists_padded width n
  rw [text] at inside
  obtain ⟨d, -, same⟩ := List.mem_map.mp inside
  exact ⟨d, same⟩

/-- The last of several digits can be split off. -/
theorem leftpad_digits (width n : Nat) : (digits n).leftpad (width + 2) '0' =
    (digits (n / 16)).leftpad (width + 1) '0' ++ [digit (BitVec.ofNat 4 n)] := by
  rcases Nat.lt_or_ge n 16 with small | large
  · have zero : digits 0 = ['0'] := by decide
    rw [digits_of_lt small, Nat.div_eq_of_lt small, zero]
    simp [List.leftpad, List.replicate_succ']
  · rw [digits_of_le large]
    simp [List.leftpad]

theorem leftpad_digit {n : Nat} (small : n < 16) :
    (digits n).leftpad 1 '0' = [digit (BitVec.ofNat 4 n)] := by
  rw [digits_of_lt small]
  rfl

end Hex

/-- The number of the digits of a byte is the byte. -/
theorem Byte.number_digits (b : Byte) : Hex.number [b.extractLsb' 4 4, Byte.nibble b] = b.toNat := by
  simp only [Hex.number, List.foldl_cons, List.foldl_nil, Byte.nibble, BitVec.extractLsb'_toNat,
    Nat.shiftRight_eq_div_pow, BitVec.toNat_setWidth]
  have := b.isLt
  omega

theorem Address.number_digits (a : Address) :
    Hex.number [a.extractLsb' 8 4, a.extractLsb' 4 4, a.extractLsb' 0 4] = a.toNat := by
  simp only [Hex.number, List.foldl_cons, List.foldl_nil, BitVec.extractLsb'_toNat,
    Nat.shiftRight_eq_div_pow]
  have := a.isLt
  omega

theorem Word.number_digits (w : Word) : Hex.number [w.opClass, w.x, w.y, w.n] = w.toNat := by
  simp only [Hex.number, List.foldl_cons, List.foldl_nil, Word.opClass, Word.x, Word.y, Word.n,
    BitVec.extractLsb'_toNat, Nat.shiftRight_eq_div_pow]
  have := w.isLt
  omega

/-- A byte is its two halves. -/
theorem Byte.eq_of_halves {a b : Byte} (high : a.extractLsb' 4 4 = b.extractLsb' 4 4)
    (low : Byte.nibble a = Byte.nibble b) : a = b := by
  apply BitVec.eq_of_toNat_eq
  rw [← Byte.number_digits, ← Byte.number_digits, high, low]

/-- The two digits of a byte. -/
def Byte.digits (b : Byte) : String :=
  String.ofList [Hex.digit (b.extractLsb' 4 4), Hex.digit b.nibble]

/-- The four digits of a word. -/
def Word.digits (w : Word) : String :=
  String.ofList [Hex.digit w.opClass, Hex.digit w.x, Hex.digit w.y, Hex.digit w.n]

/-- A digit of a number is a field of four bits. -/
theorem Hex.ofNat_eq_field {k : Nat} {a : BitVec k} (start : Nat) {n : Nat} (cut : n = a.toNat / 2 ^ start) :
    BitVec.ofNat 4 n = a.extractLsb' start 4 := by
  apply BitVec.eq_of_toNat_eq
  rw [BitVec.toNat_ofNat, BitVec.extractLsb'_toNat, Nat.shiftRight_eq_div_pow, cut]

theorem Hex.byte_eq (b : Byte) : Hex.byte b = Byte.digits b := by
  have high : BitVec.ofNat 4 (b.toNat / 16) = b.extractLsb' 4 4 := Hex.ofNat_eq_field 4 rfl
  have low : BitVec.ofNat 4 b.toNat = Byte.nibble b := by
    apply BitVec.eq_of_toNat_eq
    simp [Byte.nibble]
  have small : b.toNat / 16 < 16 := Nat.div_lt_of_lt_mul b.isLt
  rw [Hex.byte, Hex.padded, Hex.leftpad_digits 0, Hex.leftpad_digit small, high, low]
  rfl

theorem Hex.nibble_eq (x : Nibble) : Hex.nibble x = String.ofList [digit x] := by
  rw [Hex.nibble, Hex.padded, Hex.leftpad_digit x.isLt, BitVec.ofNat_toNat, BitVec.setWidth_eq]

theorem Hex.pointer_eq (a : Address) : Hex.pointer a =
    String.ofList [digit (a.extractLsb' 8 4), digit (a.extractLsb' 4 4), digit (a.extractLsb' 0 4)] := by
  have high : BitVec.ofNat 4 (a.toNat / 16 / 16) = a.extractLsb' 8 4 := Hex.ofNat_eq_field 8 (by omega)
  have middle : BitVec.ofNat 4 (a.toNat / 16) = a.extractLsb' 4 4 := Hex.ofNat_eq_field 4 rfl
  have low : BitVec.ofNat 4 a.toNat = a.extractLsb' 0 4 := Hex.ofNat_eq_field 0 (Nat.div_one _).symm
  have small : a.toNat / 16 / 16 < 16 := by
    have bound := a.isLt
    omega
  rw [Hex.pointer, Hex.padded, Hex.leftpad_digits 1, Hex.leftpad_digits 0, Hex.leftpad_digit small, high,
    middle, low]
  rfl

theorem Hex.word_eq (w : Word) : Hex.word w = w.digits := by
  have opClass : BitVec.ofNat 4 (w.toNat / 16 / 16 / 16) = w.opClass := Hex.ofNat_eq_field 12 (by omega)
  have x : BitVec.ofNat 4 (w.toNat / 16 / 16) = w.x := Hex.ofNat_eq_field 8 (by omega)
  have y : BitVec.ofNat 4 (w.toNat / 16) = w.y := Hex.ofNat_eq_field 4 rfl
  have n : BitVec.ofNat 4 w.toNat = w.n := Hex.ofNat_eq_field 0 (Nat.div_one _).symm
  have small : w.toNat / 16 / 16 / 16 < 16 := by
    have bound := w.isLt
    omega
  rw [Hex.word, Hex.padded, Hex.leftpad_digits 2, Hex.leftpad_digits 1, Hex.leftpad_digits 0,
    Hex.leftpad_digit small, opClass, x, y, n]
  rfl

theorem Word.digits_ofBytes (high low : Byte) :
    (Word.ofBytes high low).digits = Byte.digits high ++ Byte.digits low := by
  have opClass : (Word.ofBytes high low).opClass = high.extractLsb' 4 4 :=
    BitVec.extractLsb'_append_eq_of_le (by decide)
  have x : (Word.ofBytes high low).x = high.extractLsb' 0 4 :=
    BitVec.extractLsb'_append_eq_of_le (by decide)
  have y : (Word.ofBytes high low).y = low.extractLsb' 4 4 :=
    BitVec.extractLsb'_append_eq_of_add_le (by decide)
  have n : (Word.ofBytes high low).n = low.extractLsb' 0 4 :=
    BitVec.extractLsb'_append_eq_of_add_le (by decide)
  have nibble (b : Byte) : b.extractLsb' 0 4 = Byte.nibble b := rfl
  rw [Word.digits, opClass, x, y, n, nibble, nibble, Byte.digits, Byte.digits, ← String.ofList_append]
  rfl

end ChipEight
