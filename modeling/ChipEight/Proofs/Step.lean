import ChipEight.Machine.Step
import ChipEight.Proofs.Encoding

/-! # What one step can do

A step does one of six things, and `Machine.Turn` lists them with the state and the result of each:
it is what later proofs split a step by, so none of them opens the interpreter again. In front of it
stand the words that decode to the three instructions with a say in suspending the machine (a return,
a call, a wait for a key), and the parts of the machine that all other instructions leave alone. -/
namespace ChipEight

/-- The tone sounds while the sound timer is above zero. -/
def Timers.Settled (t : Timers) : Prop := t.tone = true ↔ 0 < t.sound.toNat

theorem Timers.settled_settle (t : Timers) : t.settle.Settled := by
  have hzero : t.sound = 0 ↔ t.sound.toNat = 0 := by rw [BitVec.toNat_eq]; rfl
  simp only [Settled, settle, decide_eq_true_eq, ne_eq, hzero]
  omega

theorem Timers.settled_fresh : fresh.Settled := settled_settle fresh

/-! ## Words of the three instructions -/

namespace Instruction

/-- `00EE` is the only word of a return. -/
theorem decode_eq_ret_iff {w : Word} : decode w = ret ↔ w = 0x00EE#16 := decode_eq_iff rfl

/-- The words of class 2 are the calls. -/
theorem decode_eq_call_iff {w : Word} {t : Address} :
    decode w = call t ↔ w.opClass = 2 ∧ w.nnn = t := decode_eq_iff rfl

/-- The words `Fx0A` are the waits for a key. -/
theorem decode_eq_awaitKey_iff {w : Word} {x : Nibble} :
    decode w = awaitKey x ↔ w.opClass = 0xF ∧ w.kk = 0x0A ∧ w.x = x := decode_eq_iff rfl

/-- Only a return with no open call and a call with no free slot are faults. -/
theorem fault?_eq_some_iff {i : Instruction} {r : Registers} {cause : FaultCause} :
    i.fault? r = some cause ↔
      (i = ret ∧ r.sp = 0 ∧ cause = .stackUnderflow) ∨
      ((∃ t, i = call t) ∧ 15 ≤ r.sp ∧ cause = .stackOverflow) := by
  cases i <;> simp [fault?, Registers.maxDepth, eq_comm]

/-- Whether an instruction neither moves the stack nor waits for a key. -/
def simple : Instruction → Bool
  | ret | call _ | awaitKey _ => false
  | _ => true

theorem fault?_eq_none_iff {i : Instruction} {r : Registers} :
    i.fault? r = none ↔ (i = ret → r.sp ≠ 0) ∧ ∀ t, i = call t → r.sp < 15 := by
  cases i <;> simp [fault?, Registers.maxDepth]

/-! ## What the other instructions leave alone -/

variable {m : Machine} {i : Instruction}

theorem put_pc (r : Registers) (x : Nibble) (b : Byte) (flag : Option Bool) :
    (r.put x b flag).pc = r.pc := by
  cases flag <;> rfl

theorem put_sp (r : Registers) (x : Nibble) (b : Byte) (flag : Option Bool) :
    (r.put x b flag).sp = r.sp := by
  cases flag <;> rfl

theorem put_stack (r : Registers) (x : Nibble) (b : Byte) (flag : Option Bool) :
    (r.put x b flag).stack = r.stack := by
  cases flag <;> rfl

theorem put_index (r : Registers) (x : Nibble) (b : Byte) (flag : Option Bool) :
    (r.put x b flag).i = r.i := by
  cases flag <;> rfl

theorem execute_stack (hr : i ≠ ret) (hc : ∀ t, i ≠ call t) :
    (i.execute m).1.registers.sp = m.registers.sp ∧
      (i.execute m).1.registers.stack = m.registers.stack := by
  cases i with
  | ret => exact absurd rfl hr
  | call t => exact absurd rfl (hc t)
  | arith op x y => exact ⟨put_sp _ _ _ _, put_stack _ _ _ _⟩
  | shiftRight x => exact ⟨put_sp _ _ _ _, put_stack _ _ _ _⟩
  | _ => exact ⟨rfl, rfl⟩

theorem execute_suspension (hk : ∀ x, i ≠ awaitKey x) :
    (i.execute m).1.mode = m.mode ∧ (i.execute m).1.keypad = m.keypad := by
  cases i with
  | awaitKey x => exact absurd rfl (hk x)
  | _ => exact ⟨rfl, rfl⟩

theorem execute_programSize (m : Machine) (i : Instruction) :
    (i.execute m).1.programSize = m.programSize := by
  cases i <;> rfl

theorem execute_settled (i : Instruction) (h : m.timers.Settled) :
    (i.execute m).1.timers.Settled := by
  cases i with
  | setSound x => exact Timers.settled_settle _
  | _ => exact h

end Instruction

/-! ## The six turns -/

/-- What a step does to the stack: a return, a call, or nothing. -/
inductive Registers.StackMove (r : Registers) : Registers → Prop
  | pop (nonempty : r.sp ≠ 0) : StackMove r (r.pop.advance 2)
  | push (room : r.sp < 15) (t : Address) : StackMove r (r.push t)
  | keep {s : Registers} (sp : s.sp = r.sp) (stack : s.stack = r.stack) : StackMove r s

namespace Machine

variable {m : Machine}

/-- The machine halted at the instruction that it fetched. -/
def halt (m : Machine) (cause : FaultCause) : Machine :=
  { m with fault := some ⟨cause, m.registers.pc, m.fetch⟩ }

/-- The machine that has begun to wait for a key for `Vx`. -/
def suspend (m : Machine) (x : Nibble) : Machine :=
  { m with
    keypad := m.keypad.arm
    isWaiting := true
    waitRegister := x
    executed := m.executed + 1 }

/-- The machine whose wait has ended with key `k` in `Vx`. -/
def resumed (m : Machine) (x k : Nibble) : Machine :=
  { m with
    keypad := { m.keypad with armed := false, latched := none }
    registers := (m.registers.set x (k.setWidth 8)).advance 2
    isWaiting := false
    executed := m.executed + 1 }

theorem suspend_mode (mode : m.mode = .running) (x : Nibble) : (m.suspend x).mode = .awaiting x :=
  mode_eq_awaiting_iff.mpr ⟨(mode_eq_running_iff.mp mode).1, rfl, rfl⟩

theorem resumed_mode {x : Nibble} (mode : m.mode = .awaiting x) (k : Nibble) :
    (m.resumed x k).mode = .running :=
  mode_eq_running_iff.mpr ⟨(mode_eq_awaiting_iff.mp mode).1, rfl⟩

/-- The machine that has executed the instruction that it fetched. -/
def proceed (m : Machine) : Machine :=
  let (after, advance) := (Instruction.decode m.fetch).execute m
  after.complete advance

/-- What a step leads to. -/
inductive Turn (m : Machine) : Machine × StepResult → Prop
  /-- A halted machine does nothing. -/
  | halted {f : Fault} (mode : m.mode = .halted f) : Turn m (m, .fault)
  /-- No key has gone down since the wait began. -/
  | waits {x : Nibble} (mode : m.mode = .awaiting x)
      (empty : ∀ k, m.keypad.latch ≠ .holding k) : Turn m (m, .waiting)
  /-- The key that was held ends the wait. -/
  | resumes {x k : Nibble} (mode : m.mode = .awaiting x) (held : m.keypad.latch = .holding k) :
      Turn m (m.resumed x k, .ok)
  /-- The stack has no slot for a call, or no call for a return. -/
  | faults {cause : FaultCause} (mode : m.mode = .running)
      (fault : (Instruction.decode m.fetch).fault? m.registers = some cause) :
      Turn m (m.halt cause, .fault)
  /-- The instruction begins a wait for a key. -/
  | suspends {x : Nibble} (mode : m.mode = .running)
      (fetched : Instruction.decode m.fetch = .awaitKey x) : Turn m (m.suspend x, .waiting)
  /-- Any other instruction is executed. -/
  | executes (mode : m.mode = .running)
      (sound : (Instruction.decode m.fetch).fault? m.registers = none)
      (fetched : ∀ x, Instruction.decode m.fetch ≠ .awaitKey x) : Turn m (m.proceed, .ok)

theorem step_of_halted {f : Fault} (mode : m.mode = .halted f) : m.step = (m, .fault) := by
  rw [step_eq, mode]

theorem step_of_awaiting {x : Nibble} (mode : m.mode = .awaiting x) : m.step = m.resume := by
  rw [step_eq, mode]

theorem step_of_running (mode : m.mode = .running) : m.step = m.dispatch m.fetch := by
  rw [step_eq, mode]

theorem step_of_empty {x : Nibble} (mode : m.mode = .awaiting x)
    (empty : ∀ k, m.keypad.latch ≠ .holding k) : m.step = (m, .waiting) := by
  rw [step_of_awaiting mode, resume, Keypad.take_of_empty empty]

theorem step_of_held {x k : Nibble} (mode : m.mode = .awaiting x)
    (held : m.keypad.latch = .holding k) : m.step = (m.resumed x k, .ok) := by
  obtain ⟨-, -, rfl⟩ := mode_eq_awaiting_iff.mp mode
  rw [step_of_awaiting mode, resume, Keypad.take_of_holding held]
  rfl

theorem dispatch_of_fault {w : Word} {cause : FaultCause}
    (fault : (Instruction.decode w).fault? m.registers = some cause) :
    m.dispatch w = ({ m with fault := some ⟨cause, m.registers.pc, w⟩ }, .fault) := by
  rw [← Instruction.fault?_dispatched] at fault
  simp only [dispatch, fault]

theorem dispatch_of_sound {w : Word} (sound : (Instruction.decode w).fault? m.registers = none) :
    m.dispatch w =
      let made := (Instruction.decode w).execute m
      (made.1.complete made.2, (made.1.complete made.2).outcome) := by
  rw [← Instruction.fault?_dispatched] at sound
  simp only [dispatch, sound, Instruction.execute_dispatched]

theorem step_of_fault {cause : FaultCause} (mode : m.mode = .running)
    (fault : (Instruction.decode m.fetch).fault? m.registers = some cause) :
    m.step = (m.halt cause, .fault) := by
  rw [step_of_running mode, dispatch_of_fault fault]
  rfl

theorem proceed_awaitKey {x : Nibble} (fetched : Instruction.decode m.fetch = .awaitKey x) :
    m.proceed = m.suspend x := by
  simp [proceed, fetched, Instruction.execute, complete, suspend, Registers.advance, Advance.amount]

theorem proceed_ret (fetched : Instruction.decode m.fetch = .ret) :
    m.proceed = { m with
      registers := m.registers.pop.advance 2, executed := m.executed + 1 } := by
  simp only [proceed, fetched]
  rfl

theorem proceed_call {t : Address} (fetched : Instruction.decode m.fetch = .call t) :
    m.proceed = { m with registers := m.registers.push t, executed := m.executed + 1 } := by
  simp [proceed, fetched, Instruction.execute, Instruction.executeRegisters, complete,
    Registers.advance, Advance.amount]

theorem proceed_stackMove (sound : (Instruction.decode m.fetch).fault? m.registers = none) :
    m.registers.StackMove m.proceed.registers := by
  obtain ⟨hret, hcall⟩ := Instruction.fault?_eq_none_iff.mp sound
  by_cases ret : Instruction.decode m.fetch = .ret
  · rw [proceed_ret ret]
    exact .pop (hret ret)
  · by_cases call : ∃ t, Instruction.decode m.fetch = .call t
    · obtain ⟨t, call⟩ := call
      rw [proceed_call call]
      exact .push (hcall t call) t
    · obtain ⟨hsp, hstack⟩ := Instruction.execute_stack ret fun t ht => call ⟨t, ht⟩
      exact .keep hsp hstack

/-- Only a wait for a key changes the mode or arms the latch. -/
theorem proceed_suspension (hk : ∀ x, Instruction.decode m.fetch ≠ .awaitKey x) :
    m.proceed.mode = m.mode ∧ m.proceed.keypad = m.keypad :=
  Instruction.execute_suspension hk

theorem proceed_programSize (m : Machine) : m.proceed.programSize = m.programSize :=
  Instruction.execute_programSize m _

theorem proceed_settled (h : m.timers.Settled) : m.proceed.timers.Settled :=
  Instruction.execute_settled _ h

theorem step_of_sound (mode : m.mode = .running)
    (sound : (Instruction.decode m.fetch).fault? m.registers = none) :
    m.step = (m.proceed, m.proceed.outcome) := by
  rw [step_of_running mode, dispatch_of_sound sound]
  rfl

theorem step_of_awaitKey {x : Nibble} (mode : m.mode = .running)
    (fetched : Instruction.decode m.fetch = .awaitKey x) :
    m.step = (m.suspend x, .waiting) := by
  have sound : (Instruction.decode m.fetch).fault? m.registers = none := by rw [fetched]; rfl
  rw [step_of_sound mode sound, proceed_awaitKey fetched]
  rfl

theorem step_of_executes (mode : m.mode = .running)
    (sound : (Instruction.decode m.fetch).fault? m.registers = none)
    (fetched : ∀ x, Instruction.decode m.fetch ≠ .awaitKey x) :
    m.step = (m.proceed, .ok) := by
  have idle := mode_eq_running_iff.mp ((proceed_suspension fetched).1.trans mode)
  rw [step_of_sound mode sound, outcome, idle.2]
  rfl

/-- An instruction that neither moves the stack nor waits is executed in whatever state. -/
theorem step_of_simple (mode : m.mode = .running)
    (simple : (Instruction.decode m.fetch).simple = true) : m.step = (m.proceed, .ok) := by
  have sound : (Instruction.decode m.fetch).fault? m.registers = none := by
    refine Instruction.fault?_eq_none_iff.mpr ⟨fun ret => ?_, fun t call => ?_⟩
    · rw [ret] at simple
      cases simple
    · rw [call] at simple
      cases simple
  refine step_of_executes mode sound fun x fetched => ?_
  rw [fetched] at simple
  cases simple

/-- Every step is one of the six turns. -/
theorem turn_step (m : Machine) : Turn m m.step := by
  cases mode : m.mode with
  | halted f =>
    rw [step_of_halted mode]
    exact .halted mode
  | awaiting x =>
    by_cases held : ∃ k, m.keypad.latch = .holding k
    · obtain ⟨k, held⟩ := held
      rw [step_of_held mode held]
      exact .resumes mode held
    · have empty : ∀ k, m.keypad.latch ≠ .holding k := fun k h => held ⟨k, h⟩
      rw [step_of_empty mode empty]
      exact .waits mode empty
  | running =>
    cases fault : (Instruction.decode m.fetch).fault? m.registers with
    | some cause =>
      rw [step_of_fault mode fault]
      exact .faults mode fault
    | none =>
      by_cases fetched : ∃ x, Instruction.decode m.fetch = .awaitKey x
      · obtain ⟨x, fetched⟩ := fetched
        rw [step_of_awaitKey mode fetched]
        exact .suspends mode fetched
      · have other : ∀ x, Instruction.decode m.fetch ≠ .awaitKey x := fun x h => fetched ⟨x, h⟩
        rw [step_of_executes mode fault other]
        exact .executes mode fault other

theorem step_stackMove (m : Machine) : m.registers.StackMove m.step.1.registers := by
  have turn := turn_step m
  generalize m.step = out at turn ⊢
  cases turn with
  | executes mode sound fetched => exact proceed_stackMove sound
  | _ => exact .keep rfl rfl

end Machine

end ChipEight
