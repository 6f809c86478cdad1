import ChipEight.Proofs.History
import ChipEight.Proofs.Step

/-! # Pointers to the same cell

The index, the program counter and the stack keep sixteen bits, and memory is addressed by twelve of
them. The upper four are never seen: machines that agree but for those bits (`Machine.Alias`) give the
same answers and agree in the same way afterwards. Each operation on the registers keeps `Registers.Alias`,
so each instruction does, each step, and each call. -/
namespace ChipEight

/-- Two words point to the same cell of memory. -/
def Word.Alias (a b : Word) : Prop := a.toNat % 4096 = b.toNat % 4096

/-- The banks agree but for what their pointers have above the address. -/
structure Registers.Alias (r s : Registers) : Prop where
  v : r.v = s.v
  i : r.i.Alias s.i
  pc : r.pc.Alias s.pc
  sp : r.sp = s.sp
  stack : ∀ k, (r.stack.get k).Alias (s.stack.get k)

/-- The faults are the same, at the same cell. -/
structure Fault.Alias (f g : Fault) : Prop where
  cause : f.cause = g.cause
  pc : f.pc.Alias g.pc
  opcode : f.opcode = g.opcode

/-- The machines agree but for what their pointers have above the address. -/
structure Machine.Alias (m n : Machine) : Prop where
  memory : m.memory = n.memory
  registers : m.registers.Alias n.registers
  display : m.display = n.display
  keypad : m.keypad = n.keypad
  timers : m.timers = n.timers
  random : m.random = n.random
  isWaiting : m.isWaiting = n.isWaiting
  waitRegister : m.waitRegister = n.waitRegister
  fault : Option.Rel Fault.Alias m.fault n.fault
  executed : m.executed = n.executed
  programSize : m.programSize = n.programSize

/-! ## Words -/

namespace Word

variable {a b : Word}

theorem Alias.refl (a : Word) : a.Alias a := rfl

theorem Alias.address (h : a.Alias b) : a.address = b.address := by
  apply BitVec.eq_of_toNat_eq
  rw [Word.address, Word.address, BitVec.toNat_setWidth, BitVec.toNat_setWidth]
  exact h

theorem Alias.add (h : a.Alias b) (d : Word) : (a + d).Alias (b + d) := by
  simp only [Alias, BitVec.toNat_add] at h ⊢
  omega

/-- The word with the upper four bits cleared. -/
def wrapped (a : Word) : Word := a.address.setWidth 16

theorem alias_wrapped (a : Word) : a.Alias a.wrapped := by
  simp only [Alias, wrapped, address, BitVec.toNat_setWidth]
  omega

end Word

/-! ## Registers -/

namespace Registers

variable {r s : Registers}

theorem Alias.refl (r : Registers) : r.Alias r := ⟨rfl, rfl, rfl, rfl, fun _ => rfl⟩

theorem Alias.get (h : r.Alias s) (x : Nibble) : r.get x = s.get x := by
  rw [Registers.get, h.v]
  rfl

theorem Alias.upTo (h : r.Alias s) (x : Nibble) : r.upTo x = s.upTo x := by
  rw [Registers.upTo, h.v]
  rfl

theorem Alias.set (h : r.Alias s) (x : Nibble) (b : Byte) : (r.set x b).Alias (s.set x b) :=
  ⟨congrArg (·.set x b) h.v, h.i, h.pc, h.sp, h.stack⟩

theorem Alias.putFront (h : r.Alias s) (bytes : List Byte) :
    (r.putFront bytes).Alias (s.putFront bytes) :=
  ⟨congrArg (·.write 0 bytes) h.v, h.i, h.pc, h.sp, h.stack⟩

theorem Alias.put (h : r.Alias s) (x : Nibble) (b : Byte) (flag : Option Bool) :
    (r.put x b flag).Alias (s.put x b flag) := by
  cases flag with
  | none => exact h.set x b
  | some flag => exact (h.set x b).set Registers.flag _

theorem Alias.withI (h : r.Alias s) {a b : Word} (i : a.Alias b) :
    Alias { r with i := a } { s with i := b } := ⟨h.v, i, h.pc, h.sp, h.stack⟩

theorem Alias.withPc (h : r.Alias s) {a b : Word} (pc : a.Alias b) :
    Alias { r with pc := a } { s with pc := b } := ⟨h.v, h.i, pc, h.sp, h.stack⟩

theorem Alias.advance (h : r.Alias s) (amount : Word) :
    (r.advance amount).Alias (s.advance amount) := h.withPc (h.pc.add amount)

theorem Alias.setSlot (h : r.Alias s) (k : Nibble) {a b : Word} (same : a.Alias b) (j : Nibble) :
    ((r.stack.set k a).get j).Alias ((s.stack.set k b).get j) := by
  rw [Table.get_set, Table.get_set]
  by_cases hit : k = j
  · rw [if_pos hit, if_pos hit]
    exact same
  · rw [if_neg hit, if_neg hit]
    exact h.stack j

theorem Alias.push (h : r.Alias s) (t : Address) : (r.push t).Alias (s.push t) := by
  refine ⟨h.v, h.i, .refl _, congrArg (· + 1) h.sp, ?_⟩
  rw [Registers.push, Registers.push, h.sp]
  exact h.setSlot _ h.pc

theorem Alias.pop (h : r.Alias s) : r.pop.Alias s.pop := by
  have slot : slot r.sp = slot s.sp := congrArg Registers.slot h.sp
  refine ⟨h.v, h.i, ?_, congrArg (· - 1) h.sp, ?_⟩
  · rw [Registers.pop, Registers.pop, slot]
    exact h.stack _
  · rw [Registers.pop, Registers.pop, slot]
    exact h.setSlot _ (.refl 0)

end Registers

/-! ## Instructions -/

namespace Instruction

variable {r s : Registers} {m n : Machine}

theorem fault?_congr (h : r.Alias s) (i : Instruction) : i.fault? r = i.fault? s := by
  cases i with
  | ret => rw [fault?, fault?, h.sp]
  | call t => rw [fault?, fault?, h.sp]
  | _ => rfl

theorem alias_executeRegisters (h : r.Alias s) (i : Instruction) :
    (executeRegisters r i).Alias (executeRegisters s i) := by
  cases i with
  | ret => exact h.pop
  | jump t => exact h.withPc (.refl _)
  | call t => exact h.push t
  | loadByte x b => exact h.set x b
  | addByte x b =>
    simp only [executeRegisters, h.get]
    exact h.set x _
  | arith op x y =>
    simp only [executeRegisters, h.get]
    exact h.put x _ _
  | shiftRight x =>
    simp only [executeRegisters, h.get]
    exact h.put x _ _
  | shiftLeft x =>
    simp only [executeRegisters, h.get]
    exact h.put x _ _
  | loadIndex t => exact h.withI (.refl _)
  | jumpOffset t =>
    simp only [executeRegisters, h.get]
    exact h.withPc (.refl _)
  | addIndex x =>
    -- the sum is cut to the address, so here the pointers become equal
    simp only [executeRegisters, h.get, (h.i.add _).address]
    exact h.withI (.refl _)
  | glyph x =>
    simp only [executeRegisters, h.get]
    exact h.withI (.refl _)
  | _ => exact h

end Instruction

namespace Machine

variable {m n : Machine}

theorem Alias.refl (m : Machine) : m.Alias m where
  memory := rfl
  registers := .refl _
  display := rfl
  keypad := rfl
  timers := rfl
  random := rfl
  isWaiting := rfl
  waitRegister := rfl
  fault := by
    cases m.fault with
    | none => exact .none
    | some f => exact .some ⟨rfl, rfl, rfl⟩
  executed := rfl
  programSize := rfl

/-- Two outcomes with the same answer, and machines that agree. -/
def Same {α : Type} (p q : Machine × α) : Prop := p.1.Alias q.1 ∧ p.2 = q.2

theorem Alias.withRegisters (h : m.Alias n) {r s : Registers} (registers : r.Alias s) :
    Alias { m with registers := r } { n with registers := s } :=
  { h with registers := registers }

theorem Alias.fetch (h : m.Alias n) : m.fetch = n.fetch := by
  rw [Machine.fetch, Machine.fetch, h.memory, h.registers.pc.address]

theorem Alias.execute (h : m.Alias n) (i : Instruction) : Same (i.execute m) (i.execute n) := by
  have moved := h.withRegisters (Instruction.alias_executeRegisters h.registers i)
  cases i with
  | clear => exact ⟨{ h with display := congrArg Display.clear h.display }, rfl⟩
  | skipIfByte x b => exact ⟨h, by simp only [Instruction.execute, h.registers.get]⟩
  | skipUnlessByte x b => exact ⟨h, by simp only [Instruction.execute, h.registers.get]⟩
  | skipIfEqual x y => exact ⟨h, by simp only [Instruction.execute, h.registers.get]⟩
  | skipUnlessEqual x y => exact ⟨h, by simp only [Instruction.execute, h.registers.get]⟩
  | random x mask =>
    simp only [Instruction.execute, h.random]
    exact ⟨{ h with registers := h.registers.set x _, random := rfl }, rfl⟩
  | draw x y height =>
    simp only [Instruction.execute, Instruction.executeDraw, h.registers.get,
      h.registers.i.address, h.memory, h.display]
    exact ⟨{ h with registers := h.registers.set _ _, display := rfl, memory := rfl }, rfl⟩
  | skipIfKey x =>
    exact ⟨h, by simp only [Instruction.execute, h.registers.get, h.keypad]⟩
  | skipUnlessKey x =>
    exact ⟨h, by simp only [Instruction.execute, h.registers.get, h.keypad]⟩
  | readDelay x =>
    simp only [Instruction.execute, h.timers]
    exact ⟨{ h with registers := h.registers.set x _, timers := rfl }, rfl⟩
  | awaitKey x =>
    have keypad := congrArg Keypad.arm h.keypad
    exact ⟨{ h with keypad, isWaiting := rfl, waitRegister := rfl }, rfl⟩
  | setDelay x =>
    simp only [Instruction.execute, h.registers.get, h.timers]
    exact ⟨{ h with timers := rfl }, rfl⟩
  | setSound x =>
    simp only [Instruction.execute, h.registers.get, h.timers]
    exact ⟨{ h with timers := rfl }, rfl⟩
  | decimal x =>
    simp only [Instruction.execute, h.registers.get, h.registers.i.address, h.memory]
    exact ⟨{ h with memory := rfl }, rfl⟩
  | store x =>
    simp only [Instruction.execute, h.registers.upTo, h.registers.i.address, h.memory]
    exact ⟨{ h with memory := rfl }, rfl⟩
  | load x =>
    simp only [Instruction.execute, h.registers.i.address, h.memory]
    exact ⟨{ h with registers := h.registers.putFront _, memory := rfl }, rfl⟩
  | _ => exact ⟨moved, rfl⟩

/-! ## Steps -/

theorem Alias.complete (h : m.Alias n) (advance : Advance) :
    (m.complete advance).Alias (n.complete advance) :=
  { h with
    registers := h.registers.advance _
    executed := congrArg (· + 1) h.executed }

theorem Alias.outcome (h : m.Alias n) : m.outcome = n.outcome := by
  rw [Machine.outcome, Machine.outcome, h.isWaiting]

theorem Alias.dispatch (h : m.Alias n) (w : Word) : Same (m.dispatch w) (n.dispatch w) := by
  simp only [Machine.dispatch, Instruction.fault?_congr h.registers]
  cases w.dispatched.fault? n.registers with
  | some cause => exact ⟨{ h with fault := .some ⟨rfl, h.registers.pc, rfl⟩ }, rfl⟩
  | none =>
    obtain ⟨after, advance⟩ := h.execute w.dispatched
    simp only [advance]
    exact ⟨after.complete _, (after.complete _).outcome⟩

theorem Alias.resume (h : m.Alias n) : Same m.resume n.resume := by
  simp only [Machine.resume, h.keypad, h.waitRegister]
  rcases n.keypad.take with ⟨keypad, _ | key⟩
  · exact ⟨h, rfl⟩
  · have woken : Alias
        { m with
          keypad
          registers := m.registers.set n.waitRegister (key.setWidth 8)
          isWaiting := false
          waitRegister := n.waitRegister }
        { n with
          keypad
          registers := n.registers.set n.waitRegister (key.setWidth 8)
          isWaiting := false } :=
      { h with
        keypad := rfl
        registers := h.registers.set _ _
        isWaiting := rfl
        waitRegister := rfl }
    exact ⟨woken.complete .next, rfl⟩

theorem Alias.step (h : m.Alias n) : Same m.step n.step := by
  have halted : m.fault.isSome = n.fault.isSome := by
    have fault := h.fault
    generalize m.fault = f at fault
    generalize n.fault = g at fault
    cases fault with
    | _ => rfl
  rw [Machine.step, Machine.step, halted, h.isWaiting, h.fetch]
  split
  · exact ⟨h, rfl⟩
  · split
    · exact h.resume
    · exact h.dispatch n.fetch

/-! ## Calls -/

theorem Alias.burst (h : m.Alias n) (executed limit : Nat) :
    Same (Board.burst m executed limit) (Board.burst n executed limit) := by
  induction limit generalizing m n executed with
  | zero => exact ⟨h, rfl⟩
  | succ limit ih =>
    have step := h.step
    rw [Board.burst, Board.burst, Board.step_machine, Board.step_machine]
    generalize m.step = p at step ⊢
    generalize n.step = q at step ⊢
    obtain ⟨p, result⟩ := p
    obtain ⟨q, other⟩ := q
    obtain ⟨after, rfl⟩ : p.Alias q ∧ result = other := step
    cases result with
    | ok => exact ih after (executed + 1)
    | waiting => exact ⟨after, rfl⟩
    | fault => exact ⟨after, rfl⟩

theorem Alias.run (h : m.Alias n) (limit : Nat) : Same (Board.run m limit) (Board.run n limit) := by
  obtain ⟨after, same⟩ := h.burst 0 limit
  exact ⟨after, congrArg (·.2) same⟩

theorem Alias.stepsOnto (h : m.Alias n) (results : List StepResult) (k : Nat) :
    Same (Board.stepsOnto results m k) (Board.stepsOnto results n k) := by
  induction k generalizing m n results with
  | zero => exact ⟨h, rfl⟩
  | succ k ih =>
    obtain ⟨after, result⟩ := h.step
    have next := ih after (m.step.2 :: results)
    rw [result] at next
    simp only [Board.stepsOnto, Board.step_machine, result]
    exact next

theorem Alias.steps (h : m.Alias n) (k : Nat) : Same (Board.steps m k) (Board.steps n k) := by
  obtain ⟨after, same⟩ := h.stepsOnto [] k
  exact ⟨after, congrArg List.reverse same⟩

theorem Alias.tick (h : m.Alias n) : Same (Board.tick m) (Board.tick n) := by
  have timers : m.timers.tick = n.timers.tick := congrArg Timers.tick h.timers
  rw [Board.tick_machine, Board.tick_machine]
  exact ⟨{ h with timers := timers }, congrArg Timers.tone timers⟩

theorem Alias.ticks (h : m.Alias n) (k : Nat) : Same (Board.ticks m k) (Board.ticks n k) := by
  induction k generalizing m n with
  | zero => exact ⟨h, rfl⟩
  | succ k ih =>
    obtain ⟨next, tone⟩ := h.tick
    obtain ⟨after, tones⟩ := ih next
    exact ⟨after, by simp only [Board.ticks, tone, tones]⟩

theorem Alias.reset (h : m.Alias n) : m.reset = n.reset := by
  rw [reset_eq_fresh, reset_eq_fresh, h.random]

theorem Alias.load (h : m.Alias n) (data : List Byte) : m.load data = n.load data := by
  simp only [Machine.load, h.reset]

theorem Alias.withKey (h : m.Alias n) (k : Int) {act : Machine → Nibble → Machine}
    (keeps : ∀ key, (act m key).Alias (act n key)) :
    Same (Board.withKey m k act) (Board.withKey n k act) := by
  unfold Board.withKey
  cases Keypad.key k with
  | ok key => exact ⟨keeps key, rfl⟩
  | error e => exact ⟨h, rfl⟩

theorem Alias.press (h : m.Alias n) (k : Nibble) : (m.press k).Alias (n.press k) :=
  { h with keypad := congrArg (·.press k) h.keypad }

theorem Alias.release (h : m.Alias n) (k : Nibble) : (m.release k).Alias (n.release k) :=
  { h with keypad := congrArg (·.release k) h.keypad }

theorem Same.answer {α : Type} {p q : Machine × α} (same : Same p q) (f : α → Answer) :
    Same (p.1, (.ok (f p.2) : Except Refusal Answer)) (q.1, (.ok (f q.2) : Except Refusal Answer)) :=
  ⟨same.1, congrArg (fun a => Except.ok (f a)) same.2⟩

theorem Alias.look (h : m.Alias n) : Same m.look n.look := by
  have seen : { m.display with dirty := false } = { n.display with dirty := false } := by
    rw [h.display]
  exact ⟨{ h with display := seen }, congrArg Display.dirty h.display⟩

/-- Every call but the one that prints the pointers is answered alike. -/
theorem Alias.perform (h : m.Alias n) {c : Call} (seen : c ≠ .describe) :
    Same (Board.perform m c) (Board.perform n c) := by
  have asked {α : Type} {a b : α} (same : a = b) : Same (m, a) (n, b) := ⟨h, same⟩
  cases c with
  | describe => exact absurd rfl seen
  | reset =>
    rw [perform_reset, perform_reset, h.reset]
    exact ⟨.refl _, rfl⟩
  | load data =>
    rw [perform_load, perform_load, h.load data]
    cases n.load data with
    | ok q => exact ⟨.refl q, rfl⟩
    | error e => exact ⟨h, rfl⟩
  | step =>
    rw [perform_step, perform_step]
    exact h.step.answer .result
  | steps k => exact (h.steps k).answer .results
  | run k => exact (h.run k.toNat).answer .result
  | tick => exact h.tick.answer .flag
  | ticks k => exact (h.ticks k).answer .flags
  | press k =>
    rw [perform_press, perform_press]
    exact h.withKey k h.press
  | release k => exact h.withKey k h.release
  | look => exact h.look.answer .flag
  | isDown k => exact (asked (congrArg (·.isDown (BitVec.ofInt 4 k)) h.keypad)).answer .flag
  | frame => exact (asked (congrArg Display.frame h.display)).answer .frame
  | read a length => exact (asked (congrArg (·.readBlock a length) h.memory)).answer .bytes
  | fetch => exact (asked h.fetch).answer fun w => .number w.toNat
  | litCount => exact (asked (congrArg Display.litCount h.display)).answer fun k => .number k
  | poke a value => exact ⟨{ h with memory := congrArg (·.writeByte a value) h.memory }, rfl⟩
  | setV x value => exact ⟨h.withRegisters (h.registers.set _ _), rfl⟩
  | setI value => exact ⟨h.withRegisters (h.registers.withI (.refl _)), rfl⟩
  | setPc value => exact ⟨h.withRegisters (h.registers.withPc (.refl _)), rfl⟩
  | setDelay value =>
    exact ⟨{ h with timers := congrArg (·.setDelay (BitVec.ofInt 8 value)) h.timers }, rfl⟩
  | setSound value =>
    rw [perform_setSound, perform_setSound]
    exact ⟨{ h with timers := congrArg (·.setSound (BitVec.ofInt 8 value)) h.timers }, rfl⟩

theorem Alias.afterAll (h : m.Alias n) {cs : List Call} (seen : .describe ∉ cs) :
    (m.afterAll cs).Alias (n.afterAll cs) ∧ m.answers cs = n.answers cs := by
  induction cs generalizing m n with
  | nil => exact ⟨h, rfl⟩
  | cons c cs ih =>
    obtain ⟨after, first⟩ := h.perform (c := c) fun eq => seen (eq ▸ List.mem_cons_self)
    obtain ⟨state, rest⟩ := ih after fun mem => seen (List.mem_cons_of_mem c mem)
    have answer : m.answer c = n.answer c := first
    have others : (m.after c).answers cs = (n.after c).answers cs := rest
    exact ⟨state, by rw [answers, answers, answer, others]⟩

/-- The machine with its program counter wrapped to the twelve bits of an address. -/
def wrapPc (m : Machine) : Machine :=
  { m with registers := { m.registers with pc := m.registers.pc.wrapped } }

/-- **Programs do not see the upper bits of a pointer.** Machines that agree but for those bits answer
every history alike and agree after it, whatever it asks of them but to print the pointers. A machine
whose program counter has run past the end of memory does what the one does that has wrapped around. -/
theorem aliasing_invisible {cs : List Call} (seen : .describe ∉ cs) :
    (∀ m n : Machine, m.Alias n →
      m.answers cs = n.answers cs ∧ (m.afterAll cs).Alias (n.afterAll cs)) ∧
    ∀ m : Machine,
      m.answers cs = m.wrapPc.answers cs ∧ (m.afterAll cs).Alias (m.wrapPc.afterAll cs) := by
  have related (m n : Machine) (h : m.Alias n) :
      m.answers cs = n.answers cs ∧ (m.afterAll cs).Alias (n.afterAll cs) :=
    (h.afterAll seen).symm
  refine ⟨related, fun m => related m m.wrapPc ?_⟩
  exact (Alias.refl m).withRegisters ((Registers.Alias.refl _).withPc (Word.alias_wrapped _))

/-- A program runs past the end of memory into a return with no open call: the faults are found at
`1000` and at `0000`, and no answer tells. -/
theorem aliasing_past_the_end :
    let m := (fresh (Generator.ofSeed 0)).afterAll
      [.poke 0 0x00, .poke 1 0xEE, .setPc 0xFFE, .setI 0x1234, .step]
    let cs : List Call := [.run 3, .tick, .press 4, .look, .step]
    m.registers.pc = 0x1000 ∧ m.wrapPc.registers.pc = 0x0000 ∧
      (m.afterAll cs).fault = some ⟨.stackUnderflow, 0x1000, 0x00EE⟩ ∧
      (m.wrapPc.afterAll cs).fault = some ⟨.stackUnderflow, 0x0000, 0x00EE⟩ ∧
      m.answers cs = m.wrapPc.answers cs ∧ (m.afterAll cs).Alias (m.wrapPc.afterAll cs) := by
  intro m cs
  have past : m.registers.pc = 0x1000 := by decide +kernel
  have wrapped : m.wrapPc.registers.pc = 0x0000 := by decide +kernel
  have fault : (m.afterAll cs).fault = some ⟨.stackUnderflow, 0x1000, 0x00EE⟩ := by
    decide +kernel
  have other : (m.wrapPc.afterAll cs).fault = some ⟨.stackUnderflow, 0x0000, 0x00EE⟩ := by
    decide +kernel
  have seen : .describe ∉ cs := by decide
  exact ⟨past, wrapped, fault, other, (aliasing_invisible seen).2 m⟩

end Machine

end ChipEight
