import ChipEight.Proofs.Invariant

/-! # Subroutines come back to where they were called

A call puts its own address into the slot above the open ones. `Registers.Inside` says that this slot
and those below it are as the call left them, and a step inside the subroutine either keeps that or is
the return: whatever else the program does, it works on higher slots. -/
namespace ChipEight

namespace Registers

variable {r s : Registers}

/-- The registers `s` of a machine that is inside the subroutine called with the registers `r`. -/
structure Inside (r s : Registers) : Prop where
  deeper : r.sp < s.sp
  place : s.stack.get (slot (r.sp + 1)) = r.pc
  below : ∀ k : Nibble, k.toNat ≤ r.sp → s.stack.get k = r.stack.get k

/-- The registers `s` of a machine just back from the subroutine called with the registers `r`. -/
structure Returned (r s : Registers) : Prop where
  depth : s.sp = r.sp
  pc : s.pc = r.pc + 2
  cleared : s.stack.get (slot (r.sp + 1)) = 0
  below : ∀ k : Nibble, k.toNat ≤ r.sp → s.stack.get k = r.stack.get k

theorem Inside.congr {s' : Registers} (h : r.Inside s) (hsp : s'.sp = s.sp)
    (hstack : s'.stack = s.stack) : r.Inside s' := by
  obtain ⟨hdeep, hplace, hbelow⟩ := h
  exact ⟨hsp ▸ hdeep, hstack ▸ hplace, by rw [hstack]; exact hbelow⟩

theorem inside_push (h : r.StackSound) (room : r.sp < 15) (t : Address) : r.Inside (r.push t) where
  deeper := by simp only [push]; omega
  place := Table.get_set_self _ _ _
  below := by
    intro k hk
    have h0 := h.nonneg
    exact Table.get_set_of_ne _ (slot_ne (by omega) (by omega) (by omega)) _

/-- A call inside the subroutine uses a higher slot. -/
theorem Inside.push (h : r.Inside s) (hr : 0 ≤ r.sp) (room : s.sp < 15) (t : Address) :
    r.Inside (s.push t) where
  deeper := by have := h.deeper; simp only [Registers.push]; omega
  place := by
    have hdeep := h.deeper
    have hne : slot (s.sp + 1) ≠ slot (r.sp + 1) := by
      refine slot_ne (by omega) (by omega) ?_
      rw [toNat_slot (by omega) (by omega)]
      omega
    rw [Registers.push, Table.get_set_of_ne _ hne]
    exact h.place
  below := by
    intro k hk
    have hdeep := h.deeper
    have hne : slot (s.sp + 1) ≠ k := slot_ne (by omega) (by omega) (by omega)
    rw [Registers.push, Table.get_set_of_ne _ hne]
    exact h.below k hk

/-- A return from a deeper call leaves the subroutine's slot alone. -/
theorem Inside.pop_deeper (h : r.Inside s) (hr : 0 ≤ r.sp) (hs : s.sp ≤ 15)
    (deeper : r.sp + 1 < s.sp) : r.Inside s.pop where
  deeper := by simp only [Registers.pop]; omega
  place := by
    have hne : slot s.sp ≠ slot (r.sp + 1) := by
      refine slot_ne (by omega) hs ?_
      rw [toNat_slot (by omega) (by omega)]
      omega
    rw [Registers.pop, Table.get_set_of_ne _ hne]
    exact h.place
  below := by
    intro k hk
    rw [Registers.pop, Table.get_set_of_ne _ (slot_ne (by omega) hs (by omega))]
    exact h.below k hk

/-- The return from the subroutine itself goes behind the call and clears its slot. -/
theorem Inside.pop_own (h : r.Inside s) (hr : 0 ≤ r.sp) (hs : s.sp ≤ 15)
    (own : s.sp = r.sp + 1) : r.Returned (s.pop.advance 2) where
  depth := by simp only [advance, Registers.pop]; omega
  pc := by
    simp only [advance, Registers.pop, own, h.place]
  cleared := by
    simp only [advance, Registers.pop, own, Table.get_set_self]
  below := by
    intro k hk
    simp only [advance, Registers.pop]
    rw [Table.get_set_of_ne _ (slot_ne (by omega) hs (by omega))]
    exact h.below k hk

/-- What moves the stack inside a subroutine stays inside or is its return. -/
theorem Inside.move {s' : Registers} (h : r.Inside s) (hr : 0 ≤ r.sp) (hs : s.sp ≤ 15)
    (move : s.StackMove s') : r.Inside s' ∨ r.Returned s' := by
  have hdeep := h.deeper
  cases move with
  | pop nonempty =>
    by_cases own : s.sp = r.sp + 1
    · exact .inr (h.pop_own hr hs own)
    · exact .inl ((h.pop_deeper hr hs (by omega)).congr rfl rfl)
  | push room t => exact .inl (h.push hr room t)
  | keep sp stack => exact .inl (h.congr sp stack)

end Registers

namespace Machine

variable {m n : Machine} {r : Registers}

theorem inside_after {c : Call} (hr : 0 ≤ r.sp) (h : r.Inside n.registers) (sound : n.Sound)
    (single : c.single = true) (drives : c.kind = .drive) :
    r.Inside (n.after c).registers ∨ (c = .step ∧ r.Returned (n.after c).registers) := by
  rcases after_cases single drives with rfl | beside
  · rw [after_step]
    rcases h.move hr sound.stack.le_max (step_stackMove n) with inside | returned
    · exact .inl inside
    · exact .inr ⟨rfl, returned⟩
  · rw [beside.registers]
    exact .inl h

/-- One single call further in a history, the machine is still inside or has come back by a step. -/
theorem inside_passed_succ (hr : 0 ≤ r.sp) (reach : n.Reachable) {cs : List Call}
    (drives : ∀ c ∈ cs, c.kind = .drive) {j : Nat} (h : r.Inside (n.passed cs j).registers) :
    r.Inside (n.passed cs (j + 1)).registers ∨
      ((n.unroll cs)[j]? = some .step ∧ r.Returned (n.passed cs (j + 1)).registers) := by
  rcases passed_succ n cs j with ended | ⟨c, hc, next⟩
  · rw [ended]
    exact .inl h
  · obtain ⟨hkind, hsingle⟩ := kind_of_mem_unroll (K := (· = .drive)) drives c
      (List.mem_of_getElem? hc)
    rw [next, hc]
    rcases inside_after hr h (reach.afterAll _).sound hsingle hkind with inside | ⟨rfl, returned⟩
    · exact .inl inside
    · exact .inr ⟨rfl, returned⟩

/-- A history stays inside until the stack pointer is back. -/
theorem inside_passed (hr : 0 ≤ r.sp) (reach : n.Reachable) (h : r.Inside n.registers)
    {cs : List Call} (drives : ∀ c ∈ cs, c.kind = .drive) (j : Nat)
    (away : ∀ i ≤ j, (n.passed cs i).registers.sp ≠ r.sp) :
    r.Inside (n.passed cs j).registers := by
  induction j with
  | zero => exact h
  | succ j ih =>
    have inside := ih fun i hi => away i (by omega)
    rcases inside_passed_succ hr reach drives inside with h | ⟨-, h⟩
    · exact h
    · exact absurd h.depth (away (j + 1) (Nat.le_refl _))

/-- The registers right after a call. -/
theorem step_registers_of_call (running : m.mode = .running) (room : m.registers.sp < 15)
    (calls : m.fetch.opClass = 2) : (m.after .step).registers = m.registers.push m.fetch.nnn := by
  have fetched : Instruction.decode m.fetch = .call m.fetch.nnn :=
    Instruction.decode_eq_call_iff.mpr ⟨calls, rfl⟩
  have noFault : (Instruction.decode m.fetch).fault? m.registers = none := by
    rw [fetched]
    exact Instruction.fault?_eq_none_iff.mpr ⟨by simp, fun _ _ => room⟩
  rw [after_step, step_of_sound running noFault, proceed_call fetched]

/-- **A subroutine comes back to where it was called.** A running machine executes a call, and
then anything happens that drives it. While the stack pointer has not come back, the slot of the call
holds its address and the slots below it are untouched. The single call that brings the stack pointer
back is a step, and it goes on right behind the call with the slot cleared. -/
theorem call_returns (reach : m.Reachable) (running : m.mode = .running)
    (room : m.registers.sp < 15) (calls : m.fetch.opClass = 2) {cs : List Call}
    (drives : ∀ c ∈ cs, c.kind = .drive) {j : Nat} (hj : 0 < j) :
    ((∀ i ≤ j, 0 < i → (m.passed (.step :: cs) i).registers.sp ≠ m.registers.sp) →
      m.registers.Inside (m.passed (.step :: cs) j).registers) ∧
    ((∀ i < j, 0 < i → (m.passed (.step :: cs) i).registers.sp ≠ m.registers.sp) →
      (m.passed (.step :: cs) j).registers.sp = m.registers.sp →
      (m.unroll (.step :: cs))[j - 1]? = some .step ∧
        m.registers.Returned (m.passed (.step :: cs) j).registers) := by
  have hr := reach.sound.stack.nonneg
  have entered : m.registers.Inside (m.after .step).registers := by
    rw [step_registers_of_call running room calls]
    exact Registers.inside_push reach.sound.stack room _
  have later : (m.after .step).Reachable := reach.afterAll [.step]
  -- the first single call is the call itself; `i` counts those after it
  obtain ⟨i, rfl⟩ : ∃ i, j = i + 1 := ⟨j - 1, by omega⟩
  have shift : ∀ i, m.passed (.step :: cs) (i + 1) = (m.after .step).passed cs i := fun _ => rfl
  constructor
  · intro away
    rw [shift]
    refine inside_passed hr later entered drives i fun k hk => ?_
    rw [← shift]
    exact away (k + 1) (by omega) (by omega)
  · intro away back
    rw [shift] at back ⊢
    cases i with
    | zero => exact absurd back (Int.ne_of_gt entered.deeper)
    | succ i =>
      have inside := inside_passed hr later entered drives i fun k hk => by
        rw [← shift]
        exact away (k + 1) (by omega) (by omega)
      rcases inside_passed_succ hr later drives inside with h | h
      · exact absurd back (Int.ne_of_gt h.deeper)
      · exact h

/-- A subroutine that itself makes a call, with keys and ticks on the way. -/
theorem call_returns_nested :
    let m := (fresh (Generator.ofSeed 0)).afterAll
      [.load [0x22, 0x04, 0x12, 0x02, 0x22, 0x08, 0x00, 0xEE, 0x00, 0xEE]]
    let cs : List Call := [.press 3, .run 2, .tick, .step]
    m.mode = .running ∧ m.registers.sp < 15 ∧ m.fetch.opClass = 2 ∧
      m.registers.Inside (m.passed (.step :: cs) 4).registers ∧
      (m.unroll (.step :: cs))[5]? = some .step ∧
      m.registers.Returned (m.passed (.step :: cs) 6).registers := by
  intro m cs
  have reach : m.Reachable := ⟨_, _, rfl⟩
  have running : m.mode = .running := by decide +kernel
  have room : m.registers.sp < 15 := by decide +kernel
  have calls : m.fetch.opClass = 2 := by decide +kernel
  have drives : ∀ c ∈ cs, c.kind = .drive := by decide
  refine ⟨running, room, calls,
    (call_returns reach running room calls drives (show 0 < 4 by decide)).1 ?_,
    (call_returns reach running room calls drives (show 0 < 6 by decide)).2 ?_ ?_⟩
  · decide +kernel
  · decide +kernel
  · decide +kernel

end Machine

end ChipEight
