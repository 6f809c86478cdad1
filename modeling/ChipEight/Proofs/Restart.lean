import ChipEight.Proofs.History

/-! # Starting over

A reset, and a program that fits, leave nothing of what a machine was: only the source of random bytes
runs on. Two machines with the same source cannot be told apart once the same program is loaded into
both. -/
namespace ChipEight
namespace Machine

variable {m n : Machine} {data : List Byte}

theorem fresh_random (random : Generator) : (fresh random).random = random := rfl

/-- The machine as it is when it is switched on, with a program in memory. -/
def freshWith (random : Generator) (data : List Byte) : Machine :=
  { fresh random with
    memory := Memory.fresh.write (BitVec.ofNat 12 Memory.programStart) data
    programSize := data.length }

theorem loaded_eq_freshWith (m : Machine) (data : List Byte) :
    m.loaded data = freshWith m.random data := by
  rw [loaded, reset_eq_fresh]
  rfl

/-- The program lies in the cells from `200` on. -/
theorem freshWith_program (random : Generator) (fits : data.length ≤ 3584) {k : Nat}
    (inside : k < data.length) :
    (freshWith random data).memory.get (BitVec.ofNat 12 (0x200 + k)) = data[k] := by
  have room : data.length ≤ Nat.pow 2 12 := Nat.le_trans fits (by decide)
  have cell : BitVec.ofNat 12 (0x200 + k) = BitVec.ofNat 12 0x200 + BitVec.ofNat 12 k :=
    BitVec.ofNat_add _ _
  rw [cell]
  exact Table.get_write_add Memory.fresh (BitVec.ofNat 12 0x200) room inside

/-- The other cells hold what they hold without a program. -/
theorem freshWith_other (random : Generator) (fits : data.length ≤ 3584) {a : Address}
    (outside : a.toNat < 0x200 ∨ 0x200 + data.length ≤ a.toNat) :
    (freshWith random data).memory.get a = Memory.fresh.get a := by
  apply Table.get_write_of_forall_ne
  intro k inside same
  have cell := congrArg BitVec.toNat same
  rw [BitVec.toNat_add, BitVec.toNat_ofNat, BitVec.toNat_ofNat] at cell
  rw [Memory.programStart] at cell
  omega

/-- **Nothing survives a restart.** Whatever state a machine is in, a reset makes it a machine just
switched on, but for the source of random bytes. A program that fits does the same and puts the program
into memory, so machines with the same source answer every history alike after it, and are the same
machine. -/
theorem restart_forgets :
    (∀ m : Machine, m.answer .reset = .ok .done ∧ m.after .reset = fresh m.random) ∧
    ∀ data : List Byte, data.length ≤ 3584 →
      (∀ m : Machine, m.answer (.load data) = .ok .done ∧ ∃ memory : Memory,
        m.after (.load data) =
          { fresh m.random with memory := memory, programSize := data.length } ∧
        (∀ k (inside : k < data.length), memory.get (BitVec.ofNat 12 (0x200 + k)) = data[k]) ∧
        ∀ a : Address, a.toNat < 0x200 ∨ 0x200 + data.length ≤ a.toNat →
          memory.get a = Memory.fresh.get a) ∧
      ∀ m n : Machine, m.random = n.random → ∀ cs,
        m.answers (.load data :: cs) = n.answers (.load data :: cs) ∧
          m.afterAll (.load data :: cs) = n.afterAll (.load data :: cs) := by
  refine ⟨fun m => ⟨rfl, (after_reset m).trans (reset_eq_fresh m)⟩, fun data fits => ?_⟩
  have load (m : Machine) :
      m.answer (.load data) = .ok .done ∧ m.after (.load data) = freshWith m.random data := by
    rw [answer, after, perform_load_of_fits fits, loaded_eq_freshWith]
    exact ⟨rfl, rfl⟩
  refine ⟨fun m => ?_, fun m n same cs => ?_⟩
  · obtain ⟨answer, state⟩ := load m
    refine ⟨answer, (freshWith m.random data).memory, state, fun k inside => ?_, fun a outside => ?_⟩
    · exact freshWith_program m.random fits inside
    · exact freshWith_other m.random fits outside
  · obtain ⟨answer, state⟩ := load m
    obtain ⟨answer', state'⟩ := load n
    rw [answers, answers, afterAll_cons, afterAll_cons, answer, answer', state, state', same]
    exact ⟨rfl, rfl⟩

/-- A machine that holds a key for a wait, with its font overwritten and its tone on, runs a program as
one does that was just switched on, and so does a machine that is halted by a fault. A wait that is over
has left its register behind; that goes, too. -/
theorem restart_from_wait_and_fault :
    let waiting := (fresh (Generator.ofSeed 0)).afterAll
      [.load [0xF3, 0x0A], .step, .press 7, .setSound 9, .poke 0 0xFF, .setV 3 200]
    let resumed := waiting.after .step
    let halted := (fresh (Generator.ofSeed 0)).afterAll [.load [0x00, 0xEE], .step, .press 2]
    let history : List Call :=
      [.load [0xC0, 0xFF, 0xD0, 0x05, 0xF0, 0x0A], .run 9, .press 4, .step, .frame, .describe]
    (waiting.isWaiting = true ∧ waiting.keypad.armed = true ∧ waiting.keypad.latched = some 7 ∧
      waiting.timers.tone = true) ∧ (resumed.isWaiting = false ∧ resumed.waitRegister = 3) ∧
      halted.fault.isSome = true ∧ waiting.after .reset = fresh waiting.random ∧
      resumed.after .reset = fresh resumed.random ∧
      (waiting.answers history = (fresh waiting.random).answers history ∧
        waiting.afterAll history = (fresh waiting.random).afterAll history) ∧
      halted.answers history = (fresh halted.random).answers history ∧
        halted.afterAll history = (fresh halted.random).afterAll history := by
  intro waiting resumed halted history
  have waits : waiting.isWaiting = true ∧ waiting.keypad.armed = true ∧
      waiting.keypad.latched = some 7 ∧ waiting.timers.tone = true := by decide +kernel
  have left : resumed.isWaiting = false ∧ resumed.waitRegister = 3 := by decide +kernel
  have fault : halted.fault.isSome = true := by decide +kernel
  obtain ⟨reset, load⟩ := restart_forgets
  obtain ⟨-, same⟩ := load [0xC0, 0xFF, 0xD0, 0x05, 0xF0, 0x0A] (by decide)
  have source (m : Machine) : m.random = (fresh m.random).random := (fresh_random _).symm
  exact ⟨waits, left, fault, (reset waiting).2, (reset resumed).2, same waiting _ (source waiting) _,
    same halted _ (source halted) _⟩

end Machine

end ChipEight
