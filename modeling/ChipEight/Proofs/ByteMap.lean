import Mathlib.Data.List.GetD
import ChipEight.Memory

/-! # Memory as a map

Memory answers for every integer address with the last byte that was stored into the cell of that address,
whichever call stored it (`Memory.lastStored`). Cells are named by integers modulo 4096, and calls are
compared with a plain row of bytes, which looks up every index and would grow or shrink under a careless
copy: the row never fails and keeps its length (`Row.perform?_toList`). -/
namespace ChipEight

variable {data : List Byte} {start : Int}

namespace Memory

/-- The cells of memory just switched on hold the glyphs, and zero above them. -/
theorem get_fresh (a : Address) : fresh.get a = font.getD a.toNat 0 := by
  have length : font.length = 80 := rfl
  have from_zero (b : Address) : (0 : Address) + b = b := BitVec.zero_add b
  rcases Nat.lt_or_ge a.toNat 80 with inside | outside
  · have written := Table.get_write_add (Table.fill 12 0) (0 : Address)
      (show font.length ≤ Nat.pow 2 12 by decide) (show a.toNat < font.length from inside)
    rw [from_zero, BitVec.ofNat_toNat, BitVec.setWidth_eq] at written
    rw [fresh, loadFont, written, List.getD_eq_getElem _ _ (length ▸ inside)]
  · have missed : ∀ k < font.length, (0 : Address) + BitVec.ofNat 12 k ≠ a := by
      intro k hk same
      have cell := congrArg BitVec.toNat same
      rw [from_zero, BitVec.toNat_ofNat] at cell
      omega
    rw [fresh, loadFont, Table.get_write_of_forall_ne _ missed, Table.get_fill,
      List.getD_eq_default _ _ (length ▸ outside)]

theorem get_fresh_of_le {a : Address} (above : 80 ≤ a.toNat) : fresh.get a = 0 := by
  rw [get_fresh, List.getD_eq_default _ _ above]

/-! ## Cells -/

theorem toNat_cell (a : Int) : ((BitVec.ofInt 12 a).toNat : Int) = a % 4096 := by
  rw [BitVec.toNat_ofInt]
  omega

theorem cell_eq_iff {a b : Int} : BitVec.ofInt 12 a = BitVec.ofInt 12 b ↔ a % 4096 = b % 4096 := by
  rw [← BitVec.toNat_inj, ← toNat_cell a, ← toNat_cell b]
  omega

/-- The cell `k` places behind that of an integer. -/
theorem cell_add (a : Int) (k : Nat) :
    BitVec.ofInt 12 a + BitVec.ofNat 12 k = BitVec.ofInt 12 (a + k) := by
  rw [← BitVec.ofInt_natCast, BitVec.ofInt_add]

theorem readByte_fresh (a : Int) : fresh.readByte a = font.getD (a % 4096).toNat 0 := by
  have cell : (BitVec.ofInt 12 a).toNat = (a % 4096).toNat := by
    rw [← toNat_cell, Int.toNat_natCast]
  rw [readByte, get_fresh, cell]

/-! ## Loads -/

theorem load_of_room (m : Memory) (room : (data.length : Int) ≤ 4096 - start) :
    m.load data start = .ok (m.write (BitVec.ofInt 12 start) data) := by
  have fits : ¬ (data.length : Int) > (size : Int) - start := Int.not_lt.mpr room
  simp only [load, if_neg fits]

theorem load_of_no_room (m : Memory) (large : 4096 - start < (data.length : Int)) :
    m.load data start = .error (.imageTooLarge data.length (4096 - start)) := by
  have unfit : (data.length : Int) > (size : Int) - start := large
  simp only [load, if_pos unfit]
  rfl

theorem perform_load_of_room (m : Memory) (room : (data.length : Int) ≤ 4096 - start) :
    m.perform (.load data start) = (m.write (BitVec.ofInt 12 start) data, .ok .done) := by
  rw [perform, load_of_room m room]

theorem perform_load_of_no_room (m : Memory) (large : 4096 - start < (data.length : Int)) :
    m.perform (.load data start) = (m, .error (.imageTooLarge data.length (4096 - start))) := by
  rw [perform, load_of_no_room m large]

theorem readByte_write (m : Memory) (placed : 0 ≤ start) (room : (data.length : Int) ≤ 4096 - start)
    {k : Nat} (inside : k < data.length) :
    readByte (m.write (BitVec.ofInt 12 start) data) (start + k) = data[k] := by
  have fits : data.length ≤ Nat.pow 2 12 := by
    have size : Nat.pow 2 12 = 4096 := rfl
    omega
  rw [readByte, ← cell_add]
  exact Table.get_write_add m _ fits inside

theorem readByte_write_of_outside (m : Memory) (placed : 0 ≤ start)
    (room : (data.length : Int) ≤ 4096 - start) {a : Int}
    (outside : a % 4096 < start ∨ start + data.length ≤ a % 4096) :
    readByte (m.write (BitVec.ofInt 12 start) data) a = m.readByte a := by
  refine Table.get_write_of_forall_ne m fun k inside same => ?_
  rw [cell_add, cell_eq_iff] at same
  omega

/-! ## Histories -/

/-- Memory after a call. -/
def after (m : Memory) (c : Call) : Memory := (m.perform c).1

/-- What a call answers. -/
def answer (m : Memory) (c : Call) : Except Refusal Answer := (m.perform c).2

/-- Memory after a history of calls. -/
def afterAll (m : Memory) (cs : List Call) : Memory := cs.foldl after m

/-- What the calls of a history answer, in order. -/
def answers (m : Memory) : List Call → List (Except Refusal Answer)
  | [] => []
  | c :: cs => m.answer c :: (m.after c).answers cs

/-- Nothing is loaded to a negative address. -/
def Call.Placed : Call → Prop
  | .load _ start => 0 ≤ start
  | _ => True

/-- The byte that a call stores into the cell of `a`. -/
def Call.stored (a : Int) : Call → Option Byte
  | .writeByte b value => if b % 4096 = a % 4096 then some (BitVec.ofInt 8 value) else none
  | .load data start =>
    if data.length ≤ 4096 - start ∧ start ≤ a % 4096 then data[(a % 4096 - start).toNat]? else none
  | .reset => some (font.getD (a % 4096).toNat 0)
  | _ => none

/-- The last byte that a history stores into the cell of `a`. -/
def lastStored (a : Int) (cs : List Call) : Option Byte := cs.reverse.findSome? (Call.stored a)

theorem lastStored_cons (a : Int) (c : Call) (cs : List Call) :
    lastStored a (c :: cs) = (lastStored a cs).or (c.stored a) := by
  simp [lastStored, List.findSome?_append]

theorem readByte_after_load (m : Memory) (placed : 0 ≤ start) (a : Int) :
    (m.after (.load data start)).readByte a =
      (Call.stored a (.load data start)).getD (m.readByte a) := by
  rcases Int.lt_or_le (4096 - start) data.length with large | room
  · have refused : m.after (.load data start) = m := by
      simp only [after, perform, load_of_no_room m large]
    have nothing : Call.stored a (.load data start) = none :=
      if_neg fun taken => Int.not_le.mpr large taken.1
    rw [refused, nothing, Option.getD_none]
  · have taken : m.after (.load data start) = m.write (BitVec.ofInt 12 start) data := by
      simp only [after, perform, load_of_room m room]
    rw [taken]
    by_cases above : start ≤ a % 4096
    · have stored : Call.stored a (.load data start) = data[(a % 4096 - start).toNat]? :=
        if_pos ⟨room, above⟩
      rw [stored]
      generalize offset : (a % 4096 - start).toNat = k
      rcases Nat.lt_or_ge k data.length with inside | behind
      · have cell : BitVec.ofInt 12 a = BitVec.ofInt 12 (start + k) := cell_eq_iff.mpr (by omega)
        rw [List.getElem?_eq_getElem inside, Option.getD_some, ← readByte_write m placed room inside,
          readByte, readByte, cell]
      · rw [List.getElem?_eq_none behind, Option.getD_none]
        exact readByte_write_of_outside m placed room (.inr (by omega))
    · have nothing : Call.stored a (.load data start) = none := if_neg fun taken => above taken.2
      rw [nothing, Option.getD_none]
      exact readByte_write_of_outside m placed room (.inl (Int.not_le.mp above))

/-- What is read after a call is what it stored there, or what was there before. -/
theorem readByte_after (m : Memory) {c : Call} (placed : c.Placed) (a : Int) :
    (m.after c).readByte a = (c.stored a).getD (m.readByte a) := by
  cases c with
  | writeByte b value =>
    have set : (m.after (.writeByte b value)).readByte a =
        if BitVec.ofInt 12 b = BitVec.ofInt 12 a then BitVec.ofInt 8 value else m.readByte a :=
      Table.get_set m _ _ _
    rw [set, Call.stored]
    simp only [cell_eq_iff]
    split <;> rfl
  | load data start => exact readByte_after_load m placed a
  | reset => exact readByte_fresh a
  | _ => rfl

theorem readByte_afterAll (m : Memory) {cs : List Call} (placed : ∀ c ∈ cs, c.Placed) (a : Int) :
    (m.afterAll cs).readByte a = (lastStored a cs).getD (m.readByte a) := by
  induction cs generalizing m with
  | nil => rfl
  | cons c cs ih =>
    have later : ∀ d ∈ cs, d.Placed := fun d h => placed d (List.mem_cons_of_mem c h)
    have here : (m.afterAll (c :: cs)).readByte a = ((m.after c).afterAll cs).readByte a := rfl
    rw [here, ih _ later, readByte_after m (placed c List.mem_cons_self), lastStored_cons]
    cases lastStored a cs <;> rfl

end Memory

/-! ## A row of bytes -/

/-- Bytes one after another, as many as there are. -/
abbrev Row := List Byte

namespace Row

/-- The byte at an address, if the row reaches so far. -/
def byte? (r : Row) (a : Int) : Option Byte := r[(a % 4096).toNat]?

/-- The row with the low byte of `value` at an address, if the row reaches so far. -/
def put? (r : Row) (a value : Int) : Option Row :=
  if (a % 4096).toNat < r.length then some (r.set (a % 4096).toNat (BitVec.ofInt 8 value)) else none

/-- Puts `data` in the place of as many bytes from `start` on. A row that ends before is made longer. -/
def splice (r : Row) (start : Nat) (data : List Byte) : Row :=
  r.take start ++ data ++ r.drop (start + data.length)

/-- The row with the glyphs at its beginning, and zero behind them. -/
def fresh : Row := splice (List.replicate 4096 0) 0 Memory.font

/-- What memory does, done to a row; none if an index is looked up that is not there. -/
def perform? (r : Row) : Memory.Call → Option (Row × Except Refusal Answer)
  | .readByte a => do
    let b ← r.byte? a
    some (r, .ok (.number b.toNat))
  | .readWord a => do
    let high ← r.byte? a
    let low ← r.byte? (a + 1)
    some (r, .ok (.number (256 * high.toNat + low.toNat)))
  | .readBlock a length => do
    let bytes ← (List.range length.toNat).mapM fun (k : Nat) => r.byte? (a + k)
    some (r, .ok (.bytes bytes))
  | .writeByte a value => do
    let r ← r.put? a value
    some (r, .ok .done)
  | .load data start =>
    let capacity := 4096 - start
    if (data.length : Int) > capacity then some (r, .error (.imageTooLarge data.length capacity))
    else some (r.splice start.toNat data, .ok .done)
  | .reset => some (fresh, .ok .done)
  | .dump => some (r, .ok (.bytes r))

/-- A row after a history, and what the calls answer; none if one of them fails. -/
def performAll? (r : Row) : List Memory.Call → Option (Row × List (Except Refusal Answer))
  | [] => some (r, [])
  | c :: cs => do
    let (r, answer) ← r.perform? c
    let (r, answers) ← r.performAll? cs
    some (r, answer :: answers)

end Row

namespace Memory

variable {m : Memory}

theorem length_toList (m : Memory) : m.toList.length = 4096 := Vector.length_toList

theorem getElem_toList (m : Memory) {k : Nat} (inside : k < m.toList.length) :
    m.toList[k] = m.readByte k := by
  have cell : (BitVec.ofInt 12 (k : Int)).toNat = k := by
    have below := m.length_toList
    rw [BitVec.ofInt_natCast, BitVec.toNat_ofNat]
    exact Nat.mod_eq_of_lt (by omega)
  rw [readByte, Table.get_eq_getElem]
  simp only [cell]
  exact Vector.getElem_toList inside

theorem byte?_toList (m : Memory) (a : Int) : Row.byte? m.toList a = some (m.readByte a) := by
  have inside : (a % 4096).toNat < m.toList.length := by
    rw [length_toList]
    omega
  have cell : BitVec.ofInt 12 ((a % 4096).toNat : Int) = BitVec.ofInt 12 a :=
    cell_eq_iff.mpr (by omega)
  rw [Row.byte?, List.getElem?_eq_getElem inside, getElem_toList, readByte, readByte, cell]

theorem put?_toList (m : Memory) (a value : Int) :
    Row.put? m.toList a value = some (m.writeByte a value).toList := by
  have inside : (a % 4096).toNat < m.toList.length := by
    rw [length_toList]
    omega
  have cell : (BitVec.ofInt 12 a).toNat = (a % 4096).toNat := by
    rw [← toNat_cell, Int.toNat_natCast]
  have set : (m.writeByte a value).toList =
      m.toList.set (BitVec.ofInt 12 a).toNat (BitVec.ofInt 8 value) :=
    Vector.toList_set (BitVec.isLt _)
  rw [Row.put?, if_pos inside, set, cell]

/-- A copy that is inside the row keeps its length, and is the same as in memory. -/
theorem splice_toList (m : Memory) (placed : 0 ≤ start)
    (room : (data.length : Int) ≤ 4096 - start) :
    Row.splice m.toList start.toNat data = Table.toList (m.write (BitVec.ofInt 12 start) data) := by
  have length := m.length_toList
  have front : (m.toList.take start.toNat).length = start.toNat := by
    rw [List.length_take]
    omega
  refine List.ext_getElem ?_ fun k inside inside' => ?_
  · rw [length_toList, Row.splice, List.length_append, List.length_append, front, List.length_drop]
    omega
  · rw [length_toList] at inside'
    have cell : (k : Int) % 4096 = k := by omega
    rw [getElem_toList]
    simp only [Row.splice, List.getElem_append, List.length_append, front]
    rcases Nat.lt_or_ge k start.toNat with before | from_start
    · rw [dif_pos (by omega), dif_pos before, List.getElem_take, getElem_toList,
        readByte_write_of_outside m placed room (.inl (by omega))]
    · rcases Nat.lt_or_ge k (start.toNat + data.length) with within | behind
      · have address : start + (k - start.toNat : Nat) = k := by omega
        rw [dif_pos within, dif_neg (by omega), ← readByte_write m placed room (by omega), address]
      · rw [dif_neg (by omega), List.getElem_drop, getElem_toList,
          readByte_write_of_outside m placed room (.inr (by omega))]
        congr 2
        omega

theorem toList_fresh : Row.fresh = fresh.toList := by
  have empty : (Table.fill 12 (0 : Byte)).toList = List.replicate 4096 0 := Vector.toList_replicate
  have copied := splice_toList (Table.fill 12 0) (Int.le_refl 0) (show (font.length : Int) ≤ 4096 - 0 by decide)
  rw [empty] at copied
  exact copied

theorem mapM_byte?_toList (m : Memory) (a : Int) (ks : List Nat) :
    (ks.mapM fun (k : Nat) => Row.byte? m.toList (a + k)) =
      some (ks.map fun (k : Nat) => m.readByte (a + k)) := by
  simp only [byte?_toList]
  exact List.mapM_pure

theorem toNat_readWord (m : Memory) (a : Int) : ((m.readWord a).toNat : Int) =
    256 * (m.readByte a).toNat + (m.readByte (a + 1)).toNat := by
  have low := (m.readByte (a + 1)).isLt
  rw [readWord, Word.ofBytes, BitVec.toNat_append, ← Nat.shiftLeft_add_eq_or_of_lt low, Nat.shiftLeft_eq]
  omega

/-- The row never looks up an index that is not there, and stays what memory is. -/
theorem perform?_toList (m : Memory) {c : Call} (placed : c.Placed) :
    Row.perform? m.toList c = some ((m.after c).toList, m.answer c) := by
  cases c with
  | readByte a => simp only [Row.perform?, byte?_toList]; rfl
  | readWord a =>
    have answers : m.answer (.readWord a) = .ok (.number (m.readWord a).toNat) := rfl
    simp only [Row.perform?, byte?_toList]
    rw [answers, toNat_readWord]
    rfl
  | readBlock a length =>
    simp only [Row.perform?, mapM_byte?_toList]
    rfl
  | writeByte a value => simp only [Row.perform?, put?_toList]; rfl
  | load data start =>
    rcases Int.lt_or_le (4096 - start) data.length with large | room
    · rw [Row.perform?, if_pos large, after, answer, perform_load_of_no_room m large]
    · rw [Row.perform?, if_neg (Int.not_lt.mpr room), after, answer, perform_load_of_room m room,
        splice_toList m placed room]
  | reset => rw [Row.perform?, toList_fresh]; rfl
  | dump => rfl

theorem performAll?_toList (m : Memory) {cs : List Call} (placed : ∀ c ∈ cs, c.Placed) :
    Row.performAll? m.toList cs = some ((m.afterAll cs).toList, m.answers cs) := by
  induction cs generalizing m with
  | nil => rfl
  | cons c cs ih =>
    have later : ∀ d ∈ cs, d.Placed := fun d h => placed d (List.mem_cons_of_mem c h)
    simp only [Row.performAll?, perform?_toList m (placed c List.mem_cons_self), Option.bind_eq_bind,
      Option.bind_some, ih (m.after c) later]
    rfl

/-- **Memory is a map from addresses modulo 4096 to bytes.** After every history it does what a row of bytes
does, which never fails and always has 4096 of them. A byte that is read is the last one stored into its
cell, by a write, by a load that covers it or by a reset, or else the byte of before the history; words and
blocks are made of such bytes. A load is refused exactly if the image would run past the last cell, and then
changes nothing; else it changes the cells of the image and no other. -/
theorem memory_is_map {cs : List Call} (placed : ∀ c ∈ cs, c.Placed) :
    let m := fresh.afterAll cs
    let byte (a : Int) : Byte := (lastStored a cs).getD (font.getD (a % 4096).toNat 0)
    (Row.performAll? Row.fresh cs = some (m.toList, fresh.answers cs) ∧ m.toList.length = 4096) ∧
    (∀ a, m.answer (.readByte a) = .ok (.number (byte a).toNat)) ∧
    (∀ a, m.answer (.readWord a) = .ok (.number (256 * (byte a).toNat + (byte (a + 1)).toNat))) ∧
    (∀ a length, m.answer (.readBlock a length) =
      .ok (.bytes ((List.range length.toNat).map fun (k : Nat) => byte (a + k)))) ∧
    ∀ data start, 0 ≤ start →
      let n := m.after (.load data start)
      let answer := m.answer (.load data start)
      ((∃ refusal, answer = .error refusal) ↔ (data.length : Int) > 4096 - start) ∧
      (∀ refusal, answer = .error refusal →
        refusal = .imageTooLarge data.length (4096 - start) ∧ n = m) ∧
      (data.length ≤ 4096 - start → answer = .ok .done ∧
        (∀ k (inside : k < data.length), n.readByte (start + k) = data[k]) ∧
        ∀ a, a % 4096 < start ∨ start + data.length ≤ a % 4096 → n.readByte a = m.readByte a) := by
  intro m byte
  have read (a : Int) : m.readByte a = byte a := by
    rw [readByte_afterAll fresh placed, readByte_fresh]
  refine ⟨⟨?_, length_toList m⟩, fun a => ?_, fun a => ?_, fun a length => ?_,
    fun data start placed => ?_⟩
  · rw [toList_fresh]
    exact performAll?_toList fresh placed
  · rw [← read]
    rfl
  · have answers : m.answer (.readWord a) = .ok (.number (m.readWord a).toNat) := rfl
    rw [answers, toNat_readWord, read, read]
  · simp only [← read]
    rfl
  · intro n answer
    rcases Int.lt_or_le (4096 - start) data.length with large | room
    · have refused := perform_load_of_no_room m large
      have leads : n = m := congrArg Prod.fst refused
      have answered : answer = .error (.imageTooLarge data.length (4096 - start)) :=
        congrArg Prod.snd refused
      refine ⟨⟨fun _ => large, fun _ => ⟨_, answered⟩⟩, fun refusal failed => ?_,
        fun room => absurd large (Int.not_lt.mpr room)⟩
      exact ⟨Except.error.inj (failed.symm.trans answered), leads⟩
    · have taken := perform_load_of_room m room
      have leads : n = m.write (BitVec.ofInt 12 start) data := congrArg Prod.fst taken
      have answered : answer = .ok .done := congrArg Prod.snd taken
      have accepted {refusal : Refusal} : answer ≠ .error refusal := by
        rw [answered]
        nofun
      refine ⟨⟨fun ⟨_, failed⟩ => absurd failed accepted, fun large => absurd room (Int.not_le.mpr large)⟩,
        fun refusal failed => absurd failed accepted, fun _ => ⟨answered, ?_, ?_⟩⟩
      · intro k inside
        rw [leads, readByte_write m placed room inside]
      · intro a outside
        rw [leads, readByte_write_of_outside m placed room outside]

/-- A program ends in the last cell, an empty one and one byte are refused behind it, and the last cell is
written under another address. Words and blocks are read across the end. -/
theorem memory_is_map_round_the_end :
    let cs : List Call :=
      [.load [1, 2, 3] 4093, .load [] 4097, .load [9] 4096, .writeByte (-4097) (-2), .load [] 4096]
    let m := fresh.afterAll cs
    (∀ c ∈ cs, c.Placed) ∧ Row.performAll? Row.fresh cs = some (m.toList, fresh.answers cs) ∧
      m.answer (.readByte (-3)) = .ok (.number 1) ∧ m.answer (.readWord 8191) = .ok (.number 0xFEF0) ∧
      m.answer (.readBlock 4093 5) = .ok (.bytes [1, 2, 0xFE, 0xF0, 0x90]) ∧
      m.answer (.readBlock 7 (-1)) = .ok (.bytes []) ∧
      m.answer (.load [] 5000) = .error (.imageTooLarge 0 (-904)) ∧ m.after (.load [] 5000) = m ∧
      m.answer (.load [7] 4095) = .ok .done ∧ (m.after (.load [7] 4095)).readByte 4095 = 7 ∧
      (m.after (.load [7] 4095)).readByte (-2) = m.readByte (-2) := by
  intro cs m
  have placed : ∀ c ∈ cs, c.Placed := by simp [cs, Call.Placed]
  obtain ⟨⟨row, -⟩, bytes, words, blocks, loads⟩ := memory_is_map placed
  let byte (a : Int) : Byte := (lastStored a cs).getD (font.getD (a % 4096).toNat 0)
  have first : byte (-3) = 1 := by decide
  have last : byte 8191 = 0xFE := by decide
  have glyphs : byte 8192 = 0xF0 := by decide
  have block : ((List.range 5).map fun (k : Nat) => byte (4093 + k)) = [1, 2, 0xFE, 0xF0, 0x90] := by
    decide
  have one : m.answer (.readByte (-3)) = .ok (.number (byte (-3)).toNat) := bytes (-3)
  have word : m.answer (.readWord 8191) =
      .ok (.number (256 * (byte 8191).toNat + (byte 8192).toNat)) := words 8191
  have five : m.answer (.readBlock 4093 5) =
      .ok (.bytes ((List.range 5).map fun (k : Nat) => byte (4093 + k))) := blocks 4093 5
  obtain ⟨refused, unchanged, -⟩ := loads [] 5000 (by decide)
  obtain ⟨refusal, failed⟩ := refused.mpr (by decide)
  obtain ⟨rfl, same⟩ := unchanged refusal failed
  obtain ⟨-, -, taken⟩ := loads [7] 4095 (by decide)
  obtain ⟨done, copied, others⟩ := taken (by decide)
  rw [first] at one
  rw [last, glyphs] at word
  rw [block] at five
  exact ⟨placed, row, one, word, five, blocks 7 (-1), failed, same, done, copied 0 (by decide),
    others (-2) (.inl (by decide))⟩

end Memory

end ChipEight
