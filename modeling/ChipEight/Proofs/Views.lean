import ChipEight.Proofs.ByteMap
import ChipEight.Proofs.Listing
import ChipEight.Proofs.Loading
import ChipEight.Proofs.Restart

/-! # The views of a program

A program is seen as a file, as a listing, as an image in memory and through what the machine fetches. All
of them are compared with the bytes of the file: a cell above `200` holds the byte of its offset, or zero
behind the last one (`loaded_get`), and the words that are fetched and listed are made of two such bytes. -/
namespace ChipEight

variable {data : List Byte}

/-! ## Memory -/

/-- The word of a program at an offset. Behind the last byte there are zeros. -/
def Rom.wordAt (data : List Byte) (offset : Nat) : Word :=
  Word.ofBytes (data.getD offset 0) (data.getD (offset + 1) 0)

namespace Machine

variable {m : Machine}

/-- Above `200` a machine that was just loaded holds the program, and zero behind it. -/
theorem loaded_get (m : Machine) (fits : data.length ≤ 3584) {k : Nat} (above : k < 3584) :
    (m.loaded data).memory.get (BitVec.ofNat 12 (0x200 + k)) = data.getD k 0 := by
  rw [loaded_eq_freshWith]
  rcases Nat.lt_or_ge k data.length with inside | behind
  · rw [freshWith_program _ fits inside, List.getD_eq_getElem _ _ inside]
  · have cell : (BitVec.ofNat 12 (0x200 + k)).toNat = 0x200 + k := by
      rw [BitVec.toNat_ofNat, Nat.mod_eq_of_lt (by omega)]
    have zero : Memory.fresh.get (BitVec.ofNat 12 (0x200 + k)) = 0 :=
      Memory.get_fresh_of_le (by omega)
    rw [freshWith_other _ fits (by omega), zero, List.getD_eq_default _ _ behind]

/-- A machine with a program just loaded fetches the word at the offset where its program counter is. -/
theorem fetch_loaded {n : Machine} (memory : n.memory = (m.loaded data).memory)
    (fits : data.length ≤ 3584) {offset : Nat} (above : offset + 1 < 3584)
    (pc : n.registers.pc.address = BitVec.ofNat 12 (0x200 + offset)) :
    n.fetch = Rom.wordAt data offset := by
  have next : BitVec.ofNat 12 (0x200 + offset) + 1 = BitVec.ofNat 12 (0x200 + (offset + 1)) :=
    (BitVec.ofNat_add (0x200 + offset) 1).symm
  rw [fetch, memory, pc, Memory.wordAt, next, loaded_get m fits (by omega), loaded_get m fits above,
    Rom.wordAt]

theorem address_ofInt (n : Nat) : Word.address (BitVec.ofInt 16 (n : Int)) = BitVec.ofNat 12 n := by
  apply BitVec.eq_of_toNat_eq
  simp [Word.address]

theorem fetch_setPc (m : Machine) (fits : data.length ≤ 3584) {offset : Nat}
    (above : offset + 1 < 3584) :
    ((m.loaded data).after (.setPc (0x200 + offset : Nat))).fetch = Rom.wordAt data offset := by
  have memory : ((m.loaded data).after (.setPc (0x200 + offset : Nat))).memory =
      (m.loaded data).memory := rfl
  exact fetch_loaded memory fits above (address_ofInt _)

/-- The program counter of a machine just loaded is at the first word. -/
theorem fetch_entry (m : Machine) (fits : data.length ≤ 3584) :
    (m.loaded data).fetch = Rom.wordAt data 0 := by
  have start : (m.loaded data).registers.pc.address = BitVec.ofNat 12 (0x200 + 0) := rfl
  exact fetch_loaded rfl fits (by decide) start

theorem read_loaded (m : Machine) (fits : data.length ≤ 3584) :
    (m.loaded data).memory.readBlock 0x200 data.length = data := by
  refine List.ext_getElem ?_ fun k inside inside' => ?_
  · simp [Memory.readBlock]
  · have cell : BitVec.ofInt 12 (0x200 + (k : Int)) = BitVec.ofNat 12 (0x200 + k) := by
      apply BitVec.eq_of_toNat_eq
      simp
      omega
    simp only [Memory.readBlock, List.getElem_map, List.getElem_range, Memory.readByte, cell]
    rw [loaded_get m fits (by omega), List.getD_eq_getElem _ _ inside']

end Machine

namespace Rom

theorem accepts_iff (path : String) (data : List Byte) :
    (∃ rom, Rom.ofEntry path (.file data) = .ok rom) ↔ 1 ≤ data.length ∧ data.length ≤ 3584 := by
  constructor
  · rintro ⟨rom, accepted⟩
    obtain ⟨file, -⟩ := Rom.ofEntry_eq_ok accepted
    cases file
    exact rom.fits
  · intro fits
    exact ⟨_, Rom.ofEntry_file path fits⟩

/-- **All views of a program agree.** A file is accepted exactly if it has between one byte and 3584. Then
every machine takes it, its bytes are read back from `200` on, and no other cell holds anything but the
glyphs. The first word as it is shown is the one that is fetched first, the line of every other word shows
what is fetched there, and a last byte without partner is fetched with a zero behind it. -/
theorem views_agree :
    (∀ (path : String) (data : List Byte),
      (∃ rom, Rom.ofEntry path (.file data) = .ok rom) ↔ 1 ≤ data.length ∧ data.length ≤ 3584) ∧
    ∀ (path : String) (data : List Byte) (rom : Rom), Rom.ofEntry path (.file data) = .ok rom →
      rom.size = data.length ∧ rom.size + rom.free = 3584 ∧
      (disassemble data 0x200).length = (data.length + 1) / 2 ∧
      ∀ m : Machine, ∃ loaded, Board.perform m (.load rom.data) = (loaded, .ok .done) ∧
        loaded.answer (.read 0x200 data.length) = .ok (.bytes data) ∧
        (∀ a : Address, a.toNat < 0x200 ∨ 0x200 + data.length ≤ a.toNat →
          loaded.memory.get a = Memory.font.getD a.toNat 0) ∧
        rom.entryText = "0x" ++ loaded.fetch.digits ∧
        (∀ k : Nat, 2 * k + 1 < data.length →
          let a : Nat := 0x200 + 2 * k
          let fetched := (loaded.after (.setPc a)).fetch
          (disassemble data 0x200)[k]? = some
            (Listing.address a ++ ": " ++ fetched.digits ++ "  " ++ fetched.mnemonic)) ∧
        ∀ k : Nat, 2 * k + 1 = data.length →
          let a : Nat := 0x200 + 2 * k
          ∃ last, data.getLast? = some last ∧
            (loaded.after (.setPc a)).fetch = Word.ofBytes last 0 ∧
            (disassemble data 0x200)[k]? = some
              (Listing.address a ++ ": " ++ Byte.digits last ++ "    DB 0x" ++ Byte.digits last) := by
  refine ⟨accepts_iff, fun path data rom accepted => ?_⟩
  obtain ⟨file, -⟩ := Rom.ofEntry_eq_ok accepted
  obtain rfl : data = rom.data := Entry.file.inj file
  have fits : rom.data.length ≤ 3584 := rom.fits.2
  have address (k : Nat) : (0x200 : Int) + 2 * (k : Int) = ((0x200 + 2 * k : Nat) : Int) := by omega
  refine ⟨rfl, Nat.add_sub_cancel' fits, length_disassemble _ _, fun m => ?_⟩
  refine ⟨m.loaded rom.data, Machine.perform_load_of_fits fits, ?_, fun a outside => ?_, ?_,
    fun k inside => ?_, fun k last => ?_⟩
  · exact congrArg (Except.ok ∘ Answer.bytes) (m.read_loaded fits)
  · rw [Machine.loaded_eq_freshWith, Machine.freshWith_other _ fits outside, Memory.get_fresh]
  · have first : rom.entry = Rom.wordAt rom.data 0 := rfl
    rw [m.fetch_entry fits, entryText, Hex.word_eq, first]
  · intro a fetched
    have word : fetched = Rom.wordAt rom.data (2 * k) := m.fetch_setPc fits (by omega)
    rw [disassemble_word rom.data 0x200 inside, address, Listing.wordLine_eq, word, Rom.wordAt]
  · have behind : rom.data.getD (2 * k + 1) 0 = 0 :=
      List.getD_eq_default _ _ (Nat.le_of_eq last.symm)
    intro a
    refine ⟨rom.data.getD (2 * k) 0, ?_, ?_, ?_⟩
    · have here : 2 * k < rom.data.length := by omega
      rw [List.getLast?_eq_getElem?, ← last, Nat.add_sub_cancel, List.getD_eq_getElem _ _ here,
        List.getElem?_eq_getElem here]
    · rw [m.fetch_setPc fits (by omega), Rom.wordAt, behind]
    · rw [disassemble_byte rom.data 0x200 last, address, Listing.byteLine_eq]

/-- A program of three bytes is loaded into a machine that waits for a key. -/
theorem views_agree_odd :
    let data : List Byte := [0x6A, 0x05, 0xF3]
    let m := (Machine.fresh (Generator.ofSeed 0)).afterAll [.load [0xF3, 0x0A], .step, .poke 0x300 7]
    m.isWaiting = true ∧ m.memory.get 0x300 = 7 ∧
      disassemble data 0x200 = ["200: 6A05  LD VA, 0x05", "202: F3    DB 0xF3"] ∧
      ∃ rom loaded, Rom.ofEntry "a.ch8" (.file data) = .ok rom ∧
        Board.perform m (.load rom.data) = (loaded, .ok .done) ∧
        loaded.memory.get 0x300 = 0 ∧ rom.entryText = "0x" ++ loaded.fetch.digits ∧
        rom.entryText = "0x6A05" ∧ (loaded.after (.setPc 0x202)).fetch = 0xF300 := by
  intro data m
  obtain ⟨-, accepted⟩ := views_agree
  obtain ⟨-, -, -, machines⟩ := accepted "a.ch8" data _ rfl
  obtain ⟨loaded, taken, -, others, entry, -, byte⟩ := machines m
  obtain ⟨waits, patched⟩ : m.isWaiting = true ∧ m.memory.get 0x300 = 7 := by decide +kernel
  obtain ⟨last, final, fetched, -⟩ := byte 1 rfl
  obtain rfl : 0xF3 = last := Option.some.inj final
  have lines : disassemble data 0x200 = ["200: 6A05  LD VA, 0x05", "202: F3    DB 0xF3"] := by
    decide +kernel
  exact ⟨waits, patched, lines, _, loaded, rfl, taken, others 0x300 (by decide), entry,
    by decide +kernel, fetched⟩

end Rom

end ChipEight
