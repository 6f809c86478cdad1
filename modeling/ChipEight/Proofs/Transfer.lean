import ChipEight.Proofs.Footprint

/-! # Blocks of memory

`Fx55` and `Fx65` move the registers `V0` to `Vx` to memory and back, and `Fx33` writes the three decimal
digits of `Vx`. The cells follow one another from `I` on and go round behind the last one; a block is
shorter than memory, so no cell of it is met twice (`Table.get_write_add`). Each instruction is described
once, by `Stores`, `Loads` and `Spells`, and the two ways there and back follow from the descriptions. -/
namespace ChipEight

theorem Table.getElem_read {w : Nat} {α : Type} (t : Table w α) (start : BitVec w) {n k : Nat}
    (inside : k < (t.read start n).length) :
    (t.read start n)[k] = t.get (start + BitVec.ofNat w k) := by
  simp [read]

namespace Registers

variable {r : Registers} {x k : Nibble}

/-- The cell `k` places behind the one that `I` designates. -/
def cell (r : Registers) (k : Nat) : Address := BitVec.ofNat 12 ((r.i.toNat + k) % 4096)

theorem cell_eq (r : Registers) (k : Nat) : r.cell k = r.i.address + BitVec.ofNat 12 k := by
  apply BitVec.eq_of_toNat_eq
  rw [Word.toNat_address_add, cell, BitVec.toNat_ofNat, Nat.mod_mod]

theorem from_zero (k : Nibble) : (0 : Nibble) + k = k := BitVec.zero_add k

theorem from_zero_toNat (k : Nibble) : (0 : Nibble) + BitVec.ofNat 4 k.toNat = k := by
  rw [from_zero, BitVec.ofNat_toNat, BitVec.setWidth_eq]

theorem length_upTo (r : Registers) (x : Nibble) : (r.upTo x).length = x.toNat + 1 :=
  Table.length_read _ _ _

theorem getElem_upTo (r : Registers) (k : Nibble) (inside : k.toNat < (r.upTo x).length) :
    (r.upTo x)[k.toNat] = r.get k := by
  simp only [upTo, Table.getElem_read, from_zero_toNat]
  rfl

theorem get_putFront {bytes : List Byte} (fits : bytes.length ≤ 16) (inside : k.toNat < bytes.length) :
    (r.putFront bytes).get k = bytes[k.toNat] := by
  have written := Table.get_write_add r.v 0 fits inside
  rwa [from_zero_toNat] at written

theorem get_putFront_of_le {bytes : List Byte} (fits : bytes.length ≤ 16)
    (behind : bytes.length ≤ k.toNat) : (r.putFront bytes).get k = r.get k := by
  refine Table.get_write_of_forall_ne r.v fun j inside same => ?_
  have numbers := congrArg BitVec.toNat same
  rw [from_zero, BitVec.toNat_ofNat, Nat.mod_eq_of_lt (by omega)] at numbers
  omega

end Registers

namespace Byte

/-- The three digits of a byte make it up. -/
theorem decimals_eq (b : Byte) : ∃ h t u : Byte, b.decimals = [h, t, u] ∧
    h.toNat ≤ 9 ∧ t.toNat ≤ 9 ∧ u.toNat ≤ 9 ∧ 100 * h.toNat + 10 * t.toNat + u.toNat = b.toNat := by
  have below := b.isLt
  refine ⟨_, _, _, rfl, ?_⟩
  have hundred : (100 : Byte).toNat = 100 := rfl
  have ten : (10 : Byte).toNat = 10 := rfl
  simp only [BitVec.toNat_udiv, BitVec.toNat_umod, hundred, ten]
  omega

end Byte

/-! ## The three instructions -/

namespace Machine

variable {m n p : Machine} {x : Nibble}

/-- From `m` to `n` the registers `V0` to `Vx` have gone to memory. -/
structure Stores (m n : Machine) (x : Nibble) : Prop where
  cells : ∀ k ≤ x, n.memory.get (m.registers.cell k.toNat) = m.registers.get k
  others : ∀ a : Address, (∀ k ≤ x, a ≠ m.registers.cell k.toNat) → n.memory.get a = m.memory.get a
  registers : n.registers = m.registers.advance 2

/-- From `m` to `n` the registers `V0` to `Vx` have come from memory. -/
structure Loads (m n : Machine) (x : Nibble) : Prop where
  registers : ∀ k ≤ x, n.registers.get k = m.memory.get (m.registers.cell k.toNat)
  others : ∀ k, x < k → n.registers.get k = m.registers.get k
  index : n.registers.i = m.registers.i
  memory : n.memory = m.memory

/-- From `m` to `n` the decimal digits of `Vx` have gone to memory. -/
structure Spells (m n : Machine) (x : Nibble) : Prop where
  digits : ∃ h t u : Byte, n.memory.get (m.registers.cell 0) = h ∧
    n.memory.get (m.registers.cell 1) = t ∧ n.memory.get (m.registers.cell 2) = u ∧
    h.toNat ≤ 9 ∧ t.toNat ≤ 9 ∧ u.toNat ≤ 9 ∧
    100 * h.toNat + 10 * t.toNat + u.toNat = (m.registers.get x).toNat
  others : ∀ a : Address, (∀ k < 3, a ≠ m.registers.cell k) → n.memory.get a = m.memory.get a
  registers : n.registers = m.registers.advance 2

/-- The machine with a list in the cells from `I` on. -/
def written (m : Machine) (bytes : List Byte) : Machine :=
  { m with
    memory := m.memory.write m.registers.i.address bytes
    registers := m.registers.advance 2
    executed := m.executed + 1 }

theorem written_cell {bytes : List Byte} (fits : bytes.length ≤ 4096) {k : Nat}
    (inside : k < bytes.length) : (m.written bytes).memory.get (m.registers.cell k) = bytes[k] := by
  rw [Registers.cell_eq]
  exact Table.get_write_add m.memory _ fits inside

theorem written_other {bytes : List Byte} {a : Address}
    (other : ∀ k < bytes.length, a ≠ m.registers.cell k) :
    (m.written bytes).memory.get a = m.memory.get a := by
  refine Table.get_write_of_forall_ne m.memory fun k inside same => ?_
  rw [← Registers.cell_eq] at same
  exact other k inside same.symm

/-- The machine with `V0` to `Vx` from the cells from `I` on. -/
def recalled (m : Machine) (x : Nibble) : Machine :=
  { m with
    registers := (m.registers.putFront (m.memory.read m.registers.i.address (x.toNat + 1))).advance 2
    executed := m.executed + 1 }

theorem step_of_store (running : m.mode = .running) (stores : m.fetch.Misc 0x55) :
    m.step = (m.written (m.registers.upTo m.fetch.x), .ok) := by
  have fetched : Instruction.decode m.fetch = .store m.fetch.x :=
    Instruction.decode_of_encodes rfl ⟨stores.1, stores.2, rfl⟩
  rw [step_of_simple running (by rw [fetched]; rfl), proceed, fetched]
  rfl

theorem step_of_load (running : m.mode = .running) (loads : m.fetch.Misc 0x65) :
    m.step = (m.recalled m.fetch.x, .ok) := by
  have fetched : Instruction.decode m.fetch = .load m.fetch.x :=
    Instruction.decode_of_encodes rfl ⟨loads.1, loads.2, rfl⟩
  rw [step_of_simple running (by rw [fetched]; rfl), proceed, fetched]
  rfl

theorem step_of_decimal (running : m.mode = .running) (spells : m.fetch.Misc 0x33) :
    m.step = (m.written (m.registers.get m.fetch.x).decimals, .ok) := by
  have fetched : Instruction.decode m.fetch = .decimal m.fetch.x :=
    Instruction.decode_of_encodes rfl ⟨spells.1, spells.2, rfl⟩
  rw [step_of_simple running (by rw [fetched]; rfl), proceed, fetched]
  rfl

theorem stores_written (m : Machine) (x : Nibble) : m.Stores (m.written (m.registers.upTo x)) x where
  cells k upTo := by
    have inside : k.toNat < (m.registers.upTo x).length := by
      rw [Registers.length_upTo]
      exact Nat.lt_succ_of_le upTo
    have room : (m.registers.upTo x).length ≤ 4096 := by
      have small := x.isLt
      rw [Registers.length_upTo]
      omega
    rw [written_cell room inside, Registers.getElem_upTo]
  others a other := by
    refine written_other fun k inside => ?_
    have small := x.isLt
    rw [Registers.length_upTo] at inside
    have number : (BitVec.ofNat 4 k).toNat = k := Nat.mod_eq_of_lt (by omega)
    have apart := other (BitVec.ofNat 4 k) (by rw [BitVec.le_def, number]; omega)
    rwa [number] at apart
  registers := rfl

theorem loads_recalled (m : Machine) (x : Nibble) : m.Loads (m.recalled x) x where
  registers k upTo := by
    have small := x.isLt
    have length := Table.length_read m.memory m.registers.i.address (x.toNat + 1)
    have inside : k.toNat < (m.memory.read m.registers.i.address (x.toNat + 1)).length := by
      rw [length]
      exact Nat.lt_succ_of_le upTo
    have put := Registers.get_putFront (r := m.registers) (by omega) inside
    rw [Registers.cell_eq, ← Table.getElem_read _ _ inside]
    exact put
  others k behind := by
    have small := x.isLt
    have length := Table.length_read m.memory m.registers.i.address (x.toNat + 1)
    have above : x.toNat + 1 ≤ k.toNat := behind
    exact Registers.get_putFront_of_le (by omega) (by omega)
  index := rfl
  memory := rfl

theorem spells_written (m : Machine) (x : Nibble) :
    m.Spells (m.written (m.registers.get x).decimals) x where
  digits := by
    obtain ⟨h, t, u, digits, made⟩ := Byte.decimals_eq (m.registers.get x)
    have cell {k : Nat} (inside : k < 3) :
        (m.written [h, t, u]).memory.get (m.registers.cell k) = [h, t, u][k] :=
      written_cell (Nat.le_of_ble_eq_true rfl) inside
    rw [digits]
    exact ⟨h, t, u, cell (k := 0) (by decide), cell (k := 1) (by decide), cell (k := 2) (by decide), made⟩
  others _ other := written_other other
  registers := rfl

/-! ## There and back -/

/-- The block of memory from `I` on, and how far it reaches, are the same for both machines. -/
structure SameBlock (m p : Machine) : Prop where
  running : p.mode = .running
  index : p.registers.i = m.registers.i
  last : p.fetch.x = m.fetch.x

theorem SameBlock.cell (same : m.SameBlock p) (k : Nat) : p.registers.cell k = m.registers.cell k := by
  rw [Registers.cell, Registers.cell, same.index]

/-- What was stored comes back into whatever registers, while its cells are left alone. -/
theorem load_after_store (stores : m.Stores n m.fetch.x) (same : m.SameBlock p)
    (loads : p.fetch.Misc 0x65)
    (kept : ∀ k ≤ m.fetch.x, p.memory.get (m.registers.cell k.toNat) =
      n.memory.get (m.registers.cell k.toNat)) {k : Nibble} (upTo : k ≤ m.fetch.x) :
    p.step.1.registers.get k = m.registers.get k := by
  have back := loads_recalled p p.fetch.x
  rw [step_of_load same.running loads, back.registers k (by rwa [same.last]), same.cell, kept k upTo,
    stores.cells k upTo]

/-- What was loaded is in its cells already. -/
theorem store_after_load (loads : m.Loads n m.fetch.x) (same : m.SameBlock p)
    (stores : p.fetch.Misc 0x55)
    (registers : ∀ k ≤ m.fetch.x, p.registers.get k = n.registers.get k)
    (kept : ∀ k ≤ m.fetch.x, p.memory.get (m.registers.cell k.toNat) =
      m.memory.get (m.registers.cell k.toNat)) : p.step.1.memory = p.memory := by
  have stored := stores_written p p.fetch.x
  rw [step_of_store same.running stores]
  refine Table.ext_get fun a => ?_
  by_cases hit : ∃ k ≤ p.fetch.x, a = p.registers.cell k.toNat
  · obtain ⟨k, upTo, rfl⟩ := hit
    rw [stored.cells k upTo]
    rw [same.last] at upTo
    rw [registers k upTo, loads.registers k upTo, same.cell, kept k upTo]
  · exact stored.others a fun k upTo here => hit ⟨k, upTo, here⟩

/-- **Blocks of registers and decimal digits.** Wherever `I` points, `Fx55` puts `V0` to `Vx` into the cells
from there on and no byte into any other cell, `Fx65` takes them from there and leaves the registers behind
`Vx` and all of memory alone, and `Fx33` puts the three digits of `Vx` there. None of them changes `I`. So
what was stored comes back, whatever the registers held in between, and storing what was just loaded changes
no byte. -/
theorem step_transfers (m : Machine) (running : m.mode = .running) :
    let w := m.fetch
    let n := m.after .step
    let cell (k : Nibble) := m.registers.cell k.toNat
    (w.Misc 0x55 → m.answer .step = .ok (.result .ok) ∧ m.Stores n w.x ∧
      ∀ p, m.SameBlock p → p.fetch.Misc 0x65 →
        (∀ k ≤ w.x, p.memory.get (cell k) = n.memory.get (cell k)) →
          ∀ k ≤ w.x, (p.after .step).registers.get k = m.registers.get k) ∧
    (w.Misc 0x65 → m.answer .step = .ok (.result .ok) ∧ m.Loads n w.x ∧
      ∀ p, m.SameBlock p → p.fetch.Misc 0x55 →
        (∀ k ≤ w.x, p.registers.get k = n.registers.get k) →
        (∀ k ≤ w.x, p.memory.get (cell k) = m.memory.get (cell k)) →
          (p.after .step).memory = p.memory) ∧
    (w.Misc 0x33 → m.answer .step = .ok (.result .ok) ∧ m.Spells n w.x) ∧
    (w.Misc 0x55 ∨ w.Misc 0x65 ∨ w.Misc 0x33 → n.registers.i = m.registers.i) := by
  intro w n cell
  have stored (stores : w.Misc 0x55) : m.answer .step = .ok (.result .ok) ∧ m.Stores n w.x := by
    have step := step_of_store running stores
    have leads : n = m.written (m.registers.upTo w.x) := after_step_eq step
    rw [answer_step, step, leads]
    exact ⟨rfl, stores_written m w.x⟩
  have loaded (loads : w.Misc 0x65) : m.answer .step = .ok (.result .ok) ∧ m.Loads n w.x := by
    have step := step_of_load running loads
    have leads : n = m.recalled w.x := after_step_eq step
    rw [answer_step, step, leads]
    exact ⟨rfl, loads_recalled m w.x⟩
  have spelled (spells : w.Misc 0x33) : m.answer .step = .ok (.result .ok) ∧ m.Spells n w.x := by
    have step := step_of_decimal running spells
    have leads : n = m.written (m.registers.get w.x).decimals := after_step_eq step
    rw [answer_step, step, leads]
    exact ⟨rfl, spells_written m w.x⟩
  refine ⟨fun stores => ⟨(stored stores).1, (stored stores).2, fun p same loads kept k upTo => ?_⟩,
    fun loads => ⟨(loaded loads).1, (loaded loads).2, fun p same stores registers kept => ?_⟩,
    spelled, fun which => ?_⟩
  · rw [after_step]
    exact load_after_store (stored stores).2 same loads kept upTo
  · rw [after_step]
    exact store_after_load (loaded loads).2 same stores registers kept
  · rcases which with stores | loads | spells
    · rw [(stored stores).2.registers]
      rfl
    · exact (loaded loads).2.index
    · rw [(spelled spells).2.registers]
      rfl

/-- Three registers go to the last two cells and the first and come back into registers that were cleared;
storing them once more changes nothing. Then the digits of the last one go to the same cells. -/
theorem step_transfers_round_the_end :
    let m := (fresh (Generator.ofSeed 0)).afterAll
      [.load [0xF2, 0x55, 0xF2, 0x65, 0xF2, 0x33], .setI 0xFFFE, .setV 0 7, .setV 1 9, .setV 2 0xFE]
    let p := m.afterAll [.step, .setV 0 0, .setV 1 0, .setV 2 0]
    let d := p.after .step
    let q := d.after (.setPc 0x200)
    m.fetch = 0xF255#16 ∧ p.fetch = 0xF265#16 ∧ q.fetch = 0xF255#16 ∧ d.fetch = 0xF233#16 ∧
      (m.after .step).memory.get 0xFFE = 7 ∧ (m.after .step).memory.get 0xFFF = 9 ∧
      (m.after .step).memory.get 0x000 = 0xFE ∧ p.registers.get 2 = 0 ∧ d.registers.get 2 = 0xFE ∧
      (q.after .step).memory = q.memory ∧
      ∃ h t u, (d.after .step).memory.get 0xFFE = h ∧ (d.after .step).memory.get 0xFFF = t ∧
        (d.after .step).memory.get 0x000 = u ∧ 100 * h.toNat + 10 * t.toNat + u.toNat = 254 := by
  intro m p d q
  obtain ⟨running, fetched, index, zero, one, two⟩ : m.mode = .running ∧ m.fetch = 0xF255#16 ∧
      m.registers.i = 0xFFFE ∧ m.registers.get 0 = 7 ∧ m.registers.get 1 = 9 ∧
      m.registers.get 2 = 0xFE := by
    decide +kernel
  obtain ⟨running', fetched', index', cleared⟩ : p.mode = .running ∧ p.fetch = 0xF265#16 ∧
      p.registers.i = 0xFFFE ∧ p.registers.get 2 = 0 := by
    decide +kernel
  obtain ⟨running'', fetched'', index''⟩ : d.mode = .running ∧ d.fetch = 0xF233#16 ∧
      d.registers.i = 0xFFFE := by
    decide +kernel
  obtain ⟨again, refetched, reindexed⟩ : q.mode = .running ∧ q.fetch = 0xF255#16 ∧
      q.registers.i = 0xFFFE := by
    decide +kernel
  have stores : m.fetch.Misc 0x55 := by rw [fetched]; decide
  have loads : p.fetch.Misc 0x65 := by rw [fetched']; decide
  have spells : d.fetch.Misc 0x33 := by rw [fetched'']; decide
  have restores : q.fetch.Misc 0x55 := by rw [refetched]; decide
  obtain ⟨-, stored, back⟩ := (step_transfers m running).1 stores
  obtain ⟨-, loaded, unchanged⟩ := (step_transfers p running').2.1 loads
  obtain ⟨-, digits, -⟩ := (step_transfers d running'').2.2.1 spells
  have there : m.SameBlock p := ⟨running', by rw [index', index], by rw [fetched', fetched]; rfl⟩
  have here : p.SameBlock q := ⟨again, by rw [reindexed, index'], by rw [refetched, fetched']; rfl⟩
  have reach (k : Nibble) (upTo : k ≤ 2) : k ≤ m.fetch.x := by rwa [fetched]
  have cells {r : Registers} (index : r.i = 0xFFFE) :
      r.cell 0 = 0xFFE ∧ r.cell 1 = 0xFFF ∧ r.cell 2 = 0x000 := by
    simp only [Registers.cell, index]
    decide
  obtain ⟨first, second, third⟩ := cells index
  obtain ⟨first', second', third'⟩ := cells index''
  -- said of any machine, so that none has to be evaluated
  have patched (m : Machine) : (m.afterAll [.step, .setV 0 0, .setV 1 0, .setV 2 0]).memory =
      (m.after .step).memory := rfl
  have moved (m : Machine) : (m.after (.setPc 0x200)).memory = m.memory ∧
      (m.after (.setPc 0x200)).registers.v = m.registers.v := ⟨rfl, rfl⟩
  have kept : p.memory = (m.after .step).memory := patched m
  have restored : d.registers.get 2 = 0xFE :=
    (back p there loads (fun k _ => by rw [kept]) 2 (reach 2 (by decide))).trans two
  have same : (q.after .step).memory = q.memory := by
    refine unchanged q here restores (fun k _ => ?_) fun k _ => ?_
    · rw [Registers.get, (moved d).2]
      rfl
    · rw [(moved d).1, loaded.memory]
  obtain ⟨h, t, u, hundreds, tens, units, -, -, -, sum⟩ := digits
  rw [first'] at hundreds
  rw [second'] at tens
  rw [third'] at units
  have value : d.fetch.x = 2 := by rw [fetched'']; rfl
  rw [value, restored] at sum
  have zeroth := stored.cells 0 (reach 0 (by decide))
  have next := stored.cells 1 (reach 1 (by decide))
  have final := stored.cells 2 (reach 2 (by decide))
  rw [show (0 : Nibble).toNat = 0 from rfl, first, zero] at zeroth
  rw [show (1 : Nibble).toNat = 1 from rfl, second, one] at next
  rw [show (2 : Nibble).toNat = 2 from rfl, third, two] at final
  exact ⟨fetched, fetched', refetched, fetched'', zeroth, next, final, cleared, restored, same, h, t, u,
    hundreds, tens, units, sum⟩

end Machine

end ChipEight
