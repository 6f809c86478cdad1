import ChipEight.Proofs.Halt

/-! # Suspended machines stand at the instruction that suspended them

A wait and a fault are entered by an instruction that moves nothing else, and until they end no call
but a direct write touches the pointers or the memory. So the instruction is still there to be read
(`Mode.Explained`): a machine that waits stands at the wait, and a halted one at the call or return
that its fault names, with the stack that made it fail. -/
namespace ChipEight

/-- The instruction at the program counter is the reason for the mode. -/
inductive Mode.Explained (m : Machine) : Mode → Prop
  | running : Explained m .running
  | awaiting {x : Nibble} (fetched : Instruction.decode m.fetch = .awaitKey x) :
      Explained m (.awaiting x)
  | halted {cause : FaultCause}
      (fault : (Instruction.decode m.fetch).fault? m.registers = some cause) :
      Explained m (.halted ⟨cause, m.registers.pc, m.fetch⟩)

namespace Instruction

theorem toNat_pointer_le (a : Address) : (a.setWidth 16).toNat ≤ 0xFFF := by
  have ha := a.isLt
  rw [BitVec.toNat_setWidth]
  omega

/-- Every instruction that sets the index sets it to an address. -/
theorem execute_index {m : Machine} (h : m.registers.i.toNat ≤ 0xFFF) (i : Instruction) :
    (i.execute m).1.registers.i.toNat ≤ 0xFFF := by
  cases i with
  | loadIndex target => exact toNat_pointer_le target
  | addIndex x => exact toNat_pointer_le _
  | glyph x => exact toNat_pointer_le _
  | arith op x y =>
    change (Registers.put _ x _ _).i.toNat ≤ 0xFFF
    rwa [put_index]
  | shiftRight x =>
    change (Registers.put _ x _ _).i.toNat ≤ 0xFFF
    rwa [put_index]
  | shiftLeft x =>
    change (Registers.put _ x _ _).i.toNat ≤ 0xFFF
    rwa [put_index]
  | _ => exact h

end Instruction

namespace Machine

variable {m n : Machine}

/-- The index is an address, and the mode is explained by the instruction at the program counter. -/
structure Coherent (m : Machine) : Prop where
  index : m.registers.i.toNat ≤ 0xFFF
  mode : m.mode.Explained m

theorem Coherent.of_running (index : m.registers.i.toNat ≤ 0xFFF) (running : m.mode = .running) :
    m.Coherent :=
  ⟨index, running ▸ .running⟩

/-- The timers, the keys and the screen have no part in it. -/
theorem Coherent.transfer (h : m.Coherent) (registers : n.registers = m.registers)
    (memory : n.memory = m.memory) (mode : n.mode = m.mode) : n.Coherent := by
  have fetch : n.fetch = m.fetch := by rw [Machine.fetch, Machine.fetch, registers, memory]
  obtain ⟨index, explained⟩ := h
  refine ⟨registers ▸ index, ?_⟩
  rw [mode]
  generalize m.mode = s at explained ⊢
  cases explained with
  | running => exact .running
  | awaiting fetched => exact .awaiting (fetch ▸ fetched)
  | halted fault =>
    rw [← fetch, ← registers] at fault ⊢
    exact .halted fault

theorem Coherent.step (h : m.Coherent) : m.step.1.Coherent := by
  have turn := turn_step m
  generalize m.step = out at turn ⊢
  cases turn with
  | halted mode => exact h
  | waits mode empty => exact h
  | resumes mode held => exact .of_running h.index (resumed_mode mode _)
  | faults mode fault => exact ⟨h.index, .halted fault⟩
  | suspends mode fetched =>
    refine ⟨h.index, ?_⟩
    rw [suspend_mode mode]
    exact .awaiting fetched
  | executes mode sound fetched =>
    exact .of_running (Instruction.execute_index h.index _) ((proceed_suspension fetched).1.trans mode)

theorem Coherent.beside (h : m.Coherent) (beside : Beside m n) : n.Coherent := by
  cases beside with
  | idle => exact h
  | _ => exact h.transfer rfl rfl rfl

theorem Coherent.fresh (random : Generator) : (fresh random).Coherent :=
  .of_running (Nat.zero_le _) rfl

theorem Coherent.load (h : m.Coherent) (data : List Byte) : (m.after (.load data)).Coherent := by
  by_cases fits : data.length ≤ 3584
  · rw [Machine.after, perform_load_of_fits fits]
    exact .of_running (Nat.zero_le _) rfl
  · rw [Machine.after, perform_load_of_too_large (Nat.lt_of_not_le fits)]
    exact h

theorem Coherent.after (h : m.Coherent) {c : Call} (single : c.single = true)
    (untouched : c.kind ≠ .patch) : (m.after c).Coherent := by
  cases kind : c.kind with
  | drive =>
    rcases after_cases single kind with rfl | beside
    · rw [after_step]
      exact h.step
    · exact h.beside beside
  | restart =>
    rcases restart_cases kind with rfl | ⟨data, rfl⟩
    · exact .of_running (Nat.zero_le _) rfl
    · exact h.load data
  | patch => exact absurd kind untouched

theorem coherent_afterAll (random : Generator) {cs : List Call}
    (untouched : ∀ c ∈ cs, c.kind ≠ .patch) : ((Machine.fresh random).afterAll cs).Coherent :=
  afterAll_keeps (K := (· ≠ .patch)) (fun _ _ single kind h => h.after single kind) untouched
    (.fresh random)

/-- **A suspension can be read off the machine.** As long as nobody writes registers or memory
directly, the index stays an address. A machine that waits for a key for `Vx` has `Fx0A` at its program
counter. A halted machine has the instruction of the fault there, which is a call with fifteen calls
open or a return with none. -/
theorem suspension_coherent (random : Generator) {cs : List Call}
    (untouched : ∀ c ∈ cs, c.kind ≠ .patch) :
    let m := (Machine.fresh random).afterAll cs
    m.registers.i.toNat ≤ 0xFFF ∧
    (∀ x, m.mode = .awaiting x → m.fetch.toNat = 0xF00A + 256 * x.toNat) ∧
    ∀ f, m.mode = .halted f →
      f.pc = m.registers.pc ∧ f.opcode = m.fetch ∧
        ((f.cause = .stackOverflow ∧ m.registers.sp = 15 ∧ m.fetch.opClass = 2) ∨
          (f.cause = .stackUnderflow ∧ m.registers.sp = 0 ∧ m.fetch = 0x00EE#16)) := by
  intro m
  have stack : m.registers.StackSound := (Reachable.sound ⟨random, cs, rfl⟩).stack
  obtain ⟨index, mode⟩ : m.Coherent := coherent_afterAll random untouched
  refine ⟨index, fun x waits => ?_, fun f halted => ?_⟩
  · rw [waits] at mode
    cases mode with
    | awaiting fetched =>
      obtain ⟨opClass, kk, hx⟩ := Instruction.decode_eq_awaitKey_iff.mp fetched
      rw [Word.toNat_fields, opClass, kk, hx]
      change 4096 * 15 + 256 * x.toNat + 10 = 0xF00A + 256 * x.toNat
      omega
  · rw [halted] at mode
    cases mode with
    | @halted cause fault =>
      refine ⟨rfl, rfl, ?_⟩
      cases cause with
      | stackOverflow =>
        obtain ⟨calls, full⟩ := (overflow_iff stack).mp fault
        exact .inl ⟨rfl, full, calls⟩
      | stackUnderflow =>
        obtain ⟨returns, empty⟩ := underflow_iff.mp fault
        exact .inr ⟨rfl, empty, returns⟩

/-- A program that writes the wait it is about to meet, a sixteenth call, and a return from nowhere. -/
theorem suspension_of_each_kind :
    let source := Generator.ofSeed 0
    let waits : List Call :=
      [.load [0x60, 0xF3, 0x61, 0x0A, 0xA2, 0x08, 0xF1, 0x55], .run 5, .press 3, .tick]
    let calls : List Call := [.load [0x22, 0x00], .run 16, .release 1]
    let returns : List Call := [.load [0x00, 0xEE], .step, .look, .step]
    let waiting := (Machine.fresh source).afterAll waits
    let deep := (Machine.fresh source).afterAll calls
    let empty := (Machine.fresh source).afterAll returns
    waiting.mode = .awaiting 3 ∧ waiting.fetch.toNat = 0xF30A ∧
      deep.mode = .halted ⟨.stackOverflow, 0x200, 0x2200⟩ ∧
      deep.registers.sp = 15 ∧ deep.fetch.opClass = 2 ∧
      empty.mode = .halted ⟨.stackUnderflow, 0x200, 0x00EE⟩ ∧
      empty.registers.sp = 0 ∧ empty.fetch = 0x00EE#16 := by
  intro source waits calls returns waiting deep empty
  have waitMode : waiting.mode = .awaiting 3 := by decide +kernel
  have deepMode : deep.mode = .halted ⟨.stackOverflow, 0x200, 0x2200⟩ := by decide +kernel
  have emptyMode : empty.mode = .halted ⟨.stackUnderflow, 0x200, 0x00EE⟩ := by decide +kernel
  obtain ⟨-, wait, -⟩ :=
    suspension_coherent source (show ∀ c ∈ waits, c.kind ≠ .patch by decide)
  obtain ⟨-, -, overflow⟩ :=
    suspension_coherent source (show ∀ c ∈ calls, c.kind ≠ .patch by decide)
  obtain ⟨-, -, underflow⟩ :=
    suspension_coherent source (show ∀ c ∈ returns, c.kind ≠ .patch by decide)
  obtain ⟨-, -, ⟨-, full, calls⟩ | ⟨cause, -⟩⟩ := overflow _ deepMode
  · obtain ⟨-, -, ⟨cause, -⟩ | ⟨-, none, returns⟩⟩ := underflow _ emptyMode
    · cases cause
    · exact ⟨waitMode, wait 3 waitMode, deepMode, full, calls, emptyMode, none, returns⟩
  · cases cause

end Machine

end ChipEight
