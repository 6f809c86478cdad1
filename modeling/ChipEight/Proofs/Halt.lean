import ChipEight.Proofs.Invariant

/-! # Faults

A step faults in two cases only, a call with no free slot and a return with no open call, and the
fault is all that it leaves behind. A halted machine answers every further step with the fault, and
what the program had computed stays readable until the machine starts over. -/
namespace ChipEight
namespace Machine

variable {m n : Machine} {f : Fault}

/-! ## The step that faults -/

theorem overflow_iff (stack : m.registers.StackSound) :
    (Instruction.decode m.fetch).fault? m.registers = some .stackOverflow ↔
      m.fetch.opClass = 2 ∧ m.registers.sp = 15 := by
  have hle := stack.le_max
  rw [Instruction.fault?_eq_some_iff]
  constructor
  · rintro (⟨-, -, h⟩ | ⟨⟨t, ht⟩, hsp, -⟩)
    · cases h
    · exact ⟨(Instruction.decode_eq_call_iff.mp ht).1, by omega⟩
  · rintro ⟨hclass, hsp⟩
    exact .inr ⟨⟨_, Instruction.decode_eq_call_iff.mpr ⟨hclass, rfl⟩⟩, by omega, rfl⟩

theorem underflow_iff :
    (Instruction.decode m.fetch).fault? m.registers = some .stackUnderflow ↔
      m.fetch = 0x00EE#16 ∧ m.registers.sp = 0 := by
  rw [Instruction.fault?_eq_some_iff, ← Instruction.decode_eq_ret_iff]
  constructor
  · rintro (⟨hret, hsp, -⟩ | ⟨-, -, h⟩)
    · exact ⟨hret, hsp⟩
    · cases h
  · rintro ⟨hret, hsp⟩
    exact .inl ⟨hret, hsp, rfl⟩

theorem step_fault_iff (running : m.mode = .running) :
    m.step.2 = .fault ↔
      ∃ cause, (Instruction.decode m.fetch).fault? m.registers = some cause := by
  have turn := turn_step m
  generalize m.step = out at turn ⊢
  cases turn with
  | halted mode => rw [running] at mode; cases mode
  | waits mode empty => rw [running] at mode; cases mode
  | resumes mode held => rw [running] at mode; cases mode
  | faults mode fault => exact ⟨fun _ => ⟨_, fault⟩, fun _ => rfl⟩
  | suspends mode fetched =>
    rw [fetched]
    simp [Instruction.fault?]
  | executes mode sound fetched =>
    rw [sound]
    simp

/-! ## The halted machine -/

/-- What the machine `n` has kept of the halted machine `m`. -/
structure Frozen (m n : Machine) : Prop where
  mode : n.mode = m.mode
  registers : n.registers = m.registers
  memory : n.memory = m.memory
  pixels : n.display.pixels = m.display.pixels
  random : n.random = m.random
  executed : n.executed = m.executed

theorem Frozen.refl (m : Machine) : Frozen m m := ⟨rfl, rfl, rfl, rfl, rfl, rfl⟩

theorem Frozen.step (halted : m.mode = .halted f) (h : Frozen m n) : Frozen m n.step.1 := by
  rw [step_of_halted (h.mode.trans halted)]
  exact h

theorem Frozen.beside {k : Machine} (h : Frozen m n) (beside : Beside n k) : Frozen m k := by
  obtain ⟨mode, registers, memory, pixels, random, executed⟩ := h
  cases beside with
  | tick => exact ⟨mode, registers, memory, pixels, random, executed⟩
  | press k => exact ⟨mode, registers, memory, pixels, random, executed⟩
  | release k => exact ⟨mode, registers, memory, pixels, random, executed⟩
  | look => exact ⟨mode, registers, memory, pixels, random, executed⟩
  | idle => exact ⟨mode, registers, memory, pixels, random, executed⟩

theorem frozen_afterAll (halted : m.mode = .halted f) {cs : List Call}
    (drives : ∀ c ∈ cs, c.kind = .drive) : Frozen m (m.afterAll cs) := by
  refine afterAll_keeps (K := (· = .drive)) (fun n c single kind h => ?_) drives (Frozen.refl m)
  rcases after_cases single kind with rfl | beside
  · rw [after_step]
    exact h.step halted
  · exact h.beside beside

theorem answer_step_of_halted (halted : m.mode = .halted f) :
    m.answer .step = .ok (.result .fault) := by
  rw [answer_step, step_of_halted halted]

theorem answer_run_of_halted (halted : m.mode = .halted f) {limit : Int} (hlimit : 1 ≤ limit) :
    m.answer (.run limit) = .ok (.result .fault) := by
  have hstep : Board.step m = (m, .fault) := (Board.step_machine m).trans (step_of_halted halted)
  have hanswer : m.answer (.run limit) = .ok (.result (Board.burst m 0 limit.toNat).2.2) := rfl
  obtain ⟨n, hn⟩ : ∃ n, limit.toNat = n + 1 := ⟨limit.toNat - 1, by omega⟩
  rw [hanswer, hn, Board.burst, hstep]

/-- Every step and every run of a halted machine answers with the fault. -/
theorem answers_of_halted (halted : m.mode = .halted f) {cs : List Call}
    (drives : ∀ c ∈ cs, c.kind = .drive) {i : Nat} {c : Call} (hc : cs[i]? = some c)
    (steps : c = .step ∨ ∃ limit ≥ 1, c = .run limit) :
    (m.answers cs)[i]? = some (.ok (.result .fault)) := by
  have frozen : Frozen m (m.afterAll (cs.take i)) :=
    frozen_afterAll halted fun d hd => drives d (List.mem_of_mem_take hd)
  have still := frozen.mode.trans halted
  rw [answers_getElem?, hc, Option.map_some]
  rcases steps with rfl | ⟨limit, hlimit, rfl⟩
  · rw [answer_step_of_halted still]
  · rw [answer_run_of_halted still hlimit]

theorem fault_after_load (m : Machine) {data : List Byte} (fits : data.length ≤ 3584) :
    m.answer (.load data) = .ok .done ∧ (m.after (.load data)).fault = none := by
  rw [answer, after, perform_load_of_fits fits]
  exact ⟨rfl, rfl⟩

/-- **Faults are exact, leave nothing else behind, and last.** A running machine faults at a call
with fifteen calls open and at a return with none, and nowhere else, and the fault is all that changes.
A halted machine answers every step and every run with the fault and keeps what the program had
computed, until a reset or a program that fits. -/
theorem fault_exact_and_lasting (reach : m.Reachable) :
    (m.mode = .running →
      (m.answer .step = .ok (.result .fault) ↔
        (m.fetch.opClass = 2 ∧ m.registers.sp = 15) ∨
          (m.fetch = 0x00EE#16 ∧ m.registers.sp = 0)) ∧
      (m.fetch.opClass = 2 ∧ m.registers.sp = 15 →
        m.after .step =
          { m with fault := some ⟨.stackOverflow, m.registers.pc, m.fetch⟩ }) ∧
      (m.fetch = 0x00EE#16 ∧ m.registers.sp = 0 →
        m.after .step =
          { m with fault := some ⟨.stackUnderflow, m.registers.pc, m.fetch⟩ })) ∧
    (∀ f, m.mode = .halted f → ∀ cs : List Call, (∀ c ∈ cs, c.kind = .drive) →
      Frozen m (m.afterAll cs) ∧
      (∀ (i : Nat) (c : Call), cs[i]? = some c → (c = .step ∨ ∃ limit ≥ 1, c = .run limit) →
        (m.answers cs)[i]? = some (.ok (.result .fault))) ∧
      ((m.afterAll cs).after .reset).fault = none ∧
      ∀ data : List Byte, data.length ≤ 3584 →
        (m.afterAll cs).answer (.load data) = .ok .done ∧
          ((m.afterAll cs).after (.load data)).fault = none) := by
  have stack := reach.sound.stack
  refine ⟨fun running => ⟨?_, fun full => ?_, fun empty => ?_⟩, fun f halted cs drives => ?_⟩
  · rw [answer_step, ← overflow_iff stack, ← underflow_iff]
    simp only [Except.ok.injEq, Answer.result.injEq, step_fault_iff running]
    constructor
    · rintro ⟨cause, hcause⟩
      cases cause with
      | stackOverflow => exact .inl hcause
      | stackUnderflow => exact .inr hcause
    · rintro (h | h)
      · exact ⟨_, h⟩
      · exact ⟨_, h⟩
  · rw [after_step, step_of_fault running ((overflow_iff stack).mpr full)]
    rfl
  · rw [after_step, step_of_fault running (underflow_iff.mpr empty)]
    rfl
  · exact ⟨frozen_afterAll halted drives, fun i c => answers_of_halted halted drives, rfl,
      fun data => fault_after_load _⟩

/-- A program that calls itself faults at the sixteenth call, and a return without a call stays a
fault whatever is tried afterwards. -/
theorem fault_of_endless_calls :
    let deep := (fresh (Generator.ofSeed 0)).afterAll [.load [0x22, 0x00], .run 15]
    let dead := (fresh (Generator.ofSeed 0)).afterAll [.load [0x00, 0xEE], .step]
    let cs : List Call := [.tick, .press 5, .run 3, .look, .step]
    deep.mode = .running ∧ deep.fetch.opClass = 2 ∧ deep.registers.sp = 15 ∧
      deep.after .step =
        { deep with fault := some ⟨.stackOverflow, deep.registers.pc, deep.fetch⟩ } ∧
      dead.mode = .halted ⟨.stackUnderflow, 0x200, 0x00EE⟩ ∧
      Frozen dead (dead.afterAll cs) ∧
      (dead.answers cs)[2]? = some (.ok (.result .fault)) ∧
      ((dead.afterAll cs).after .reset).fault = none := by
  intro deep dead cs
  have running : deep.mode = .running := by decide +kernel
  have full : deep.fetch.opClass = 2 ∧ deep.registers.sp = 15 := by decide +kernel
  have halted : dead.mode = .halted ⟨.stackUnderflow, 0x200, 0x00EE⟩ := by decide +kernel
  have drives : ∀ c ∈ cs, c.kind = .drive := by decide
  have exact := (fault_exact_and_lasting (m := deep) ⟨_, _, rfl⟩).1 running
  have lasting := (fault_exact_and_lasting (m := dead) ⟨_, _, rfl⟩).2 _ halted cs drives
  obtain ⟨frozen, answers, reset, -⟩ := lasting
  exact ⟨running, full.1, full.2, exact.2.1 full, halted, frozen,
    answers 2 (.run 3) rfl (.inr ⟨3, by decide, rfl⟩), reset⟩

end Machine

end ChipEight
