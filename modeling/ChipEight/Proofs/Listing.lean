import Mathlib.Data.List.GetD
import ChipEight.Proofs.Digits

/-! # Listings

A listing has one line for each word, and each line shows its address and the bytes themselves in front of
their meaning. So the bytes can be taken out of the text again (`flatMap_code`), no two programs have the
same listing, and a program of whole words is listed in front of what follows it. -/
namespace ChipEight

/-- The text of an integer with at least `width` characters: a minus sign in front of a negative one, then
the digits of its size, with zeros in front only as far as the width asks for them. -/
structure Hex.Renders (width : Nat) (a : Int) (text : List Char) : Prop where
  ofDigits : ∃ ds : List Nibble, text = (if a < 0 then ['-'] else []) ++ ds.map Hex.digit ∧
    Hex.number ds = a.natAbs ∧ (width < text.length → ds.head? ≠ some 0)
  wide : width ≤ text.length

/-- The digits of bytes, two for each. -/
def Hex.bytes (data : List Byte) : List Char := data.flatMap fun b => (Byte.digits b).toList

namespace Listing

/-- The line shows an address and the digits of bytes in front of a blank. -/
def Shows (line : String) (a : Int) (data : List Byte) : Prop :=
  ∃ address rest : String, Hex.Renders 3 a address.toList ∧
    line = address ++ ": " ++ String.ofList (Hex.bytes data) ++ " " ++ rest

/-- The bytes in a line, as they are shown: what stands behind the first colon and blank, up to the next
blank. -/
def code (line : String) : List Char :=
  ((line.toList.dropWhile (· ≠ ':')).drop 2).takeWhile (· ≠ ' ')

end Listing

namespace Hex

variable {data : List Byte}

theorem renders_signed (a : Int) : Renders 3 a (signed 3 a).toList := by
  cases a with
  | ofNat n =>
    obtain ⟨ds, text, value, wide, first⟩ := exists_padded 3 n
    have natural : ¬ Int.ofNat n < 0 := Int.not_lt.mpr (Int.natCast_nonneg n)
    have shown : (signed 3 (Int.ofNat n)).toList = ds.map digit := text
    refine ⟨⟨ds, ?_, value, fun longer => ?_⟩, ?_⟩
    · rw [shown, if_neg natural, List.nil_append]
    · rw [shown, List.length_map] at longer
      exact first (by omega) longer
    · rw [shown, List.length_map]
      exact wide
  | negSucc n =>
    obtain ⟨ds, text, value, wide, first⟩ := exists_padded 2 (n + 1)
    have shown : (signed 3 (Int.negSucc n)).toList = '-' :: ds.map digit := by
      rw [signed, String.toList_append, text]
      rfl
    refine ⟨⟨ds, ?_, value, fun longer => ?_⟩, ?_⟩
    · rw [shown, if_pos (Int.negSucc_lt_zero n)]
      rfl
    · rw [shown, List.length_cons, List.length_map] at longer
      exact first (by omega) (by omega)
    · rw [shown, List.length_cons, List.length_map]
      omega

/-- An integer has one text: a longer one would start with a digit that is not zero, and so would be of a
larger number. -/
theorem Renders.unique {width : Nat} {a : Int} {s t : List Char} (one : Renders width a s)
    (other : Renders width a t) : s = t := by
  obtain ⟨⟨ds, rfl, value, first⟩, wide⟩ := one
  obtain ⟨⟨es, rfl, value', first'⟩, wide'⟩ := other
  have same : number ds = number es := value.trans value'.symm
  simp only [List.length_append, List.length_map] at first first' wide wide'
  have notLonger {ds es : List Nibble} (same : number ds = number es)
      (first : ds.length < es.length → es.head? ≠ some 0) : es.length ≤ ds.length := by
    by_contra longer
    have places : es ≠ [] := by
      rintro rfl
      exact longer (Nat.zero_le _)
    have large := le_number places (first (Nat.not_le.mp longer))
    have small := number_lt ds
    have fits : 16 ^ ds.length ≤ 16 ^ (es.length - 1) := Nat.pow_le_pow_right (by decide) (by omega)
    omega
  have shorter : es.length ≤ ds.length := notLonger same fun longer => first' (by omega)
  have longer : ds.length ≤ es.length := notLonger same.symm fun longer => first (by omega)
  rw [number_inj (Nat.le_antisymm longer shorter) same]

theorem Renders.ne_colon {width : Nat} {a : Int} {text : List Char} (renders : Renders width a text)
    {c : Char} (inside : c ∈ text) : c ≠ ':' := by
  obtain ⟨ds, rfl, -⟩ := renders.ofDigits
  have digits : ∀ d : Nibble, digit d ≠ ':' := by decide
  rcases List.mem_append.mp inside with sign | number
  · split at sign
    · rw [List.mem_singleton.mp sign]
      decide
    · cases sign
  · obtain ⟨d, -, rfl⟩ := List.mem_map.mp number
    exact digits d

theorem bytes_cons (b : Byte) (data : List Byte) :
    bytes (b :: data) = digit (b.extractLsb' 4 4) :: digit (Byte.nibble b) :: bytes data := by
  rw [bytes, List.flatMap_cons, Byte.digits, String.toList_ofList]
  rfl

theorem ne_blank_of_mem_bytes {c : Char} (inside : c ∈ bytes data) : c ≠ ' ' := by
  have digits : ∀ d : Nibble, digit d ≠ ' ' := by decide
  induction data with
  | nil => cases inside
  | cons b data ih =>
    rw [bytes_cons, List.mem_cons, List.mem_cons] at inside
    rcases inside with rfl | rfl | inside
    · exact digits _
    · exact digits _
    · exact ih inside

theorem bytes_inj {p q : List Byte} : bytes p = bytes q ↔ p = q := by
  refine ⟨fun same => ?_, fun same => by rw [same]⟩
  induction p generalizing q with
  | nil =>
    cases q with
    | nil => rfl
    | cons b q =>
      rw [bytes_cons] at same
      cases same
  | cons a p ih =>
    cases q with
    | nil =>
      rw [bytes_cons] at same
      cases same
    | cons b q =>
      rw [bytes_cons, bytes_cons, List.cons.injEq, List.cons.injEq, digit_inj, digit_inj] at same
      obtain ⟨high, low, rest⟩ := same
      rw [Byte.eq_of_halves high low, ih rest]

end Hex

/-! ## Lines -/

namespace Listing

theorem wordLine_eq (a : Int) (high low : Byte) : Listing.wordLine a high low =
    Listing.address a ++ ": " ++ (Word.ofBytes high low).digits ++ "  " ++
      (Word.ofBytes high low).mnemonic := by
  have joined : Listing.address a ++ ": " ++ Byte.digits high ++ Byte.digits low =
      Listing.address a ++ ": " ++ (Byte.digits high ++ Byte.digits low) := String.append_assoc
  rw [Listing.wordLine, Hex.byte_eq, Hex.byte_eq, joined, Word.digits_ofBytes]

theorem byteLine_eq (a : Int) (b : Byte) : Listing.byteLine a b =
    Listing.address a ++ ": " ++ Byte.digits b ++ "    DB 0x" ++ Byte.digits b := by
  rw [Listing.byteLine, Hex.byte_eq]

theorem shows_wordLine (a : Int) (high low : Byte) : Shows (wordLine a high low) a [high, low] := by
  refine ⟨address a, " " ++ (Word.ofBytes high low).mnemonic, Hex.renders_signed a, ?_⟩
  have digits : String.ofList (Hex.bytes [high, low]) = Byte.digits high ++ Byte.digits low := by
    rw [← String.toList_inj, String.toList_ofList, String.toList_append]
    simp [Hex.bytes]
  have blanks : "  " = " " ++ " " := rfl
  rw [wordLine_eq, Word.digits_ofBytes, digits, blanks]
  simp only [String.append_assoc]

theorem shows_byteLine (a : Int) (b : Byte) : Shows (byteLine a b) a [b] := by
  refine ⟨address a, "   DB 0x" ++ Byte.digits b, Hex.renders_signed a, ?_⟩
  have digits : String.ofList (Hex.bytes [b]) = Byte.digits b := by
    rw [← String.toList_inj, String.toList_ofList]
    simp [Hex.bytes]
  have blanks : "    DB 0x" = " " ++ "   DB 0x" := rfl
  rw [byteLine_eq, digits, blanks]
  simp only [String.append_assoc]

/-- What a line shows is what is read in it: there is no colon in an address and no blank in digits. -/
theorem Shows.code_eq {line : String} {a : Int} {data : List Byte} (shows : Shows line a data) :
    code line = Hex.bytes data := by
  obtain ⟨address, rest, renders, rfl⟩ := shows
  have text : (address ++ ": " ++ String.ofList (Hex.bytes data) ++ " " ++ rest).toList =
      address.toList ++ ':' :: ' ' :: (Hex.bytes data ++ ' ' :: rest.toList) := by
    simp [String.toList_append]
  have front : ∀ c ∈ address.toList, decide (c ≠ ':') = true := fun c inside =>
    decide_eq_true (renders.ne_colon inside)
  have digits : ∀ c ∈ Hex.bytes data, decide (c ≠ ' ') = true := fun c inside =>
    decide_eq_true (Hex.ne_blank_of_mem_bytes inside)
  rw [code, text, List.dropWhile_append_of_pos front, List.dropWhile_cons_of_neg (by decide),
    List.drop_succ_cons, List.drop_succ_cons, List.drop_zero, List.takeWhile_append_of_pos digits,
    List.takeWhile_cons_of_neg (by decide), List.append_nil]

end Listing

/-! ## Programs -/

theorem length_disassemble (data : List Byte) (start : Int) :
    (disassemble data start).length = (data.length + 1) / 2 := by
  fun_induction disassemble data start with
  | case1 => rfl
  | case2 => simp
  | case3 high low rest start ih =>
    rw [List.length_cons, ih, List.length_cons, List.length_cons]
    omega

/-- Behind its first lines a listing is the listing of what is left. -/
theorem drop_disassemble (data : List Byte) (start : Int) (k : Nat) :
    (disassemble data start).drop k = disassemble (data.drop (2 * k)) (start + 2 * k) := by
  fun_induction disassemble data start generalizing k with
  | case1 => simp [disassemble]
  | case2 b start => cases k <;> simp [disassemble, Nat.mul_succ]
  | case3 high low rest start ih =>
    cases k with
    | zero => simp [disassemble]
    | succ k =>
      have address : start + 2 * ((k + 1 : Nat) : Int) = start + 2 + 2 * (k : Int) := by omega
      rw [List.drop_succ_cons, ih, address]
      rfl

theorem disassemble_getElem? (data : List Byte) (start : Int) (k : Nat) :
    (disassemble data start)[k]? = (disassemble (data.drop (2 * k)) (start + 2 * k)).head? := by
  rw [← drop_disassemble, List.head?_drop]

/-- The line of a word that is inside the program. -/
theorem disassemble_word (data : List Byte) (start : Int) {k : Nat} (inside : 2 * k + 1 < data.length) :
    (disassemble data start)[k]? =
      some (Listing.wordLine (start + 2 * k) (data.getD (2 * k) 0) (data.getD (2 * k + 1) 0)) := by
  have first : 2 * k < data.length := by omega
  rw [disassemble_getElem?, List.drop_eq_getElem_cons first, List.drop_eq_getElem_cons inside,
    List.getD_eq_getElem _ _ first, List.getD_eq_getElem _ _ inside]
  rfl

/-- The line of a last byte that has no partner. -/
theorem disassemble_byte (data : List Byte) (start : Int) {k : Nat} (last : 2 * k + 1 = data.length) :
    (disassemble data start)[k]? =
      some (Listing.byteLine (start + 2 * k) (data.getD (2 * k) 0)) := by
  have first : 2 * k < data.length := by omega
  rw [disassemble_getElem?, List.drop_eq_getElem_cons first, List.drop_of_length_le (Nat.le_of_eq last.symm),
    List.getD_eq_getElem _ _ first]
  rfl

theorem shows_disassemble (data : List Byte) (start : Int) {k : Nat} {line : String}
    (inside : (disassemble data start)[k]? = some line) :
    Listing.Shows line (start + 2 * k) ((data.drop (2 * k)).take 2) := by
  rw [disassemble_getElem?] at inside
  generalize data.drop (2 * k) = rest at inside ⊢
  match rest with
  | [] => cases inside
  | [b] =>
    obtain rfl := Option.some.inj inside
    exact Listing.shows_byteLine _ b
  | high :: low :: _ =>
    obtain rfl := Option.some.inj inside
    exact Listing.shows_wordLine _ high low

/-- The bytes in the lines are the bytes of the program. -/
theorem flatMap_code (data : List Byte) (start : Int) :
    (disassemble data start).flatMap Listing.code = Hex.bytes data := by
  fun_induction disassemble data start with
  | case1 => rfl
  | case2 b start =>
    rw [List.flatMap_singleton, (Listing.shows_byteLine start b).code_eq]
  | case3 high low rest start ih =>
    rw [List.flatMap_cons, (Listing.shows_wordLine start high low).code_eq, ih]
    exact List.flatMap_append.symm

theorem disassemble_inj {p q : List Byte} {start : Int} :
    disassemble p start = disassemble q start ↔ p = q := by
  refine ⟨fun same => ?_, fun same => by rw [same]⟩
  rw [← Hex.bytes_inj, ← flatMap_code p start, ← flatMap_code q start, same]

theorem disassemble_append {p : List Byte} (words : p.length % 2 = 0) (q : List Byte) (start : Int) :
    disassemble (p ++ q) start = disassemble p start ++ disassemble q (start + p.length) := by
  fun_induction disassemble p start with
  | case1 start => simp
  | case2 => simp at words
  | case3 high low rest start ih =>
    have even : rest.length % 2 = 0 := by
      rw [List.length_cons, List.length_cons] at words
      omega
    have address : start + ((high :: low :: rest).length : Nat) = start + 2 + rest.length := by
      rw [List.length_cons, List.length_cons]
      omega
    rw [List.cons_append, List.cons_append, disassemble, ih even, address, List.cons_append]

/-- **A listing loses nothing.** From whatever address on, a program has one line for every two bytes, the
last one with a single byte if there is one left over. A line shows its address and its bytes, and the bytes
of all lines are those of the program. So two programs with one listing are equal, and what stands in front
of a program is listed by itself if it is made of whole words. -/
theorem Listing.loses_nothing (start : Int) :
    (∀ data : List Byte, (disassemble data start).length = (data.length + 1) / 2 ∧
      (∀ (k : Nat) (line : String), (disassemble data start)[k]? = some line →
        Shows line (start + 2 * k) ((data.drop (2 * k)).take 2)) ∧
      (disassemble data start).flatMap code = Hex.bytes data) ∧
    (∀ p q : List Byte, disassemble p start = disassemble q start → p = q) ∧
    ∀ p q : List Byte, p.length % 2 = 0 →
      disassemble (p ++ q) start = disassemble p start ++ disassemble q (start + p.length) :=
  ⟨fun data => ⟨length_disassemble data start, fun _ _ => shows_disassemble data start,
      flatMap_code data start⟩,
    fun _ _ => disassemble_inj.mp, fun _ q words => disassemble_append words q start⟩

/-- A listing that starts below zero, of a word and a byte. -/
theorem Listing.loses_nothing_below_zero :
    let p : List Byte := [0x6A, 0x05]
    let q : List Byte := [0xF3]
    disassemble (p ++ q) (-1) = ["-01: 6A05  LD VA, 0x05", "001: F3    DB 0xF3"] ∧
      disassemble (p ++ q) (-1) = disassemble p (-1) ++ disassemble q 1 ∧
      (disassemble (p ++ q) (-1)).flatMap code = "6A05F3".toList ∧
      Shows "001: F3    DB 0xF3" 1 q ∧
      ∀ data : List Byte, disassemble data (-1) = ["-01: 6A05  LD VA, 0x05", "001: F3    DB 0xF3"] →
        data = p ++ q := by
  intro p q
  obtain ⟨views, injective, append⟩ := loses_nothing (-1)
  obtain ⟨-, shows, code⟩ := views (p ++ q)
  have lines : disassemble (p ++ q) (-1) = ["-01: 6A05  LD VA, 0x05", "001: F3    DB 0xF3"] := by
    decide +kernel
  have digits : Hex.bytes (p ++ q) = "6A05F3".toList := by decide +kernel
  have words : p.length % 2 = 0 := Nat.mod_self 2
  refine ⟨lines, append p q words, code.trans digits, shows 1 _ ?_, fun data same => ?_⟩
  · rw [lines]
    rfl
  · exact injective data (p ++ q) (same.trans lines.symm)

end ChipEight
