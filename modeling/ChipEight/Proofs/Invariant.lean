import ChipEight.Proofs.History
import ChipEight.Proofs.Step

/-! # What holds of every machine in use

Two kinds of facts hold in every state that calls can lead to. The widths of the parts (`Fits`) are
a matter of their types. The facts that tie parts together (`Sound`: the stack and its pointer, the
tone and the sound timer, the wait and the keypad) are not, and every operation has to restore them.
From both follows that no step ever uses a slot beyond the ends of the stack (`step?`). -/
namespace ChipEight

/-! ## The stack -/

namespace Registers

/-- The pointer lies on the stack, and every slot that holds no open call is zero. -/
structure StackSound (r : Registers) : Prop where
  nonneg : 0 ≤ r.sp
  le_max : r.sp ≤ 15
  bottom : r.stack.get 0 = 0
  above : ∀ k : Nibble, r.sp < k.toNat → r.stack.get k = 0

theorem toNat_slot {s : Int} (h0 : 0 ≤ s) (h : s ≤ 15) : ((slot s).toNat : Int) = s := by
  simp only [slot, BitVec.toNat_ofInt]
  omega

theorem slot_ne {s : Int} {k : Nibble} (h0 : 0 ≤ s) (h : s ≤ 15) (hk : (k.toNat : Int) ≠ s) :
    slot s ≠ k := by
  intro heq
  exact hk (heq ▸ toNat_slot h0 h)

theorem stackSound_fresh : fresh.StackSound where
  nonneg := Int.le_refl 0
  le_max := Int.le.intro 15 rfl
  bottom := Table.get_fill _ _
  above := fun _ _ => Table.get_fill _ _

theorem StackSound.congr {r r' : Registers} (h : r.StackSound) (hsp : r'.sp = r.sp)
    (hstack : r'.stack = r.stack) : r'.StackSound := by
  obtain ⟨h0, h15, hbottom, habove⟩ := h
  exact ⟨hsp ▸ h0, hsp ▸ h15, hstack ▸ hbottom, by rw [hsp, hstack]; exact habove⟩

theorem StackSound.push {r : Registers} (h : r.StackSound) (hsp : r.sp < 15) (t : Address) :
    (r.push t).StackSound where
  nonneg := by have := h.nonneg; simp only [Registers.push]; omega
  le_max := by simp only [Registers.push]; omega
  bottom := by
    have hne : slot (r.sp + 1) ≠ 0 := slot_ne (by have := h.nonneg; omega) (by omega)
      (by have := h.nonneg; simp; omega)
    rw [Registers.push, Table.get_set_of_ne _ hne]
    exact h.bottom
  above := by
    intro k hk
    simp only [Registers.push] at hk ⊢
    have hne : slot (r.sp + 1) ≠ k := slot_ne (by have := h.nonneg; omega) (by omega) (by omega)
    rw [Table.get_set_of_ne _ hne]
    exact h.above k (by omega)

theorem StackSound.pop {r : Registers} (h : r.StackSound) (hsp : r.sp ≠ 0) :
    r.pop.StackSound where
  nonneg := by have := h.nonneg; simp only [Registers.pop]; omega
  le_max := by have := h.le_max; simp only [Registers.pop]; omega
  bottom := by
    have hne : slot r.sp ≠ 0 := slot_ne h.nonneg h.le_max (by simp; omega)
    rw [Registers.pop, Table.get_set_of_ne _ hne]
    exact h.bottom
  above := by
    intro k hk
    simp only [Registers.pop] at hk ⊢
    by_cases htop : (k.toNat : Int) = r.sp
    · have heq : slot r.sp = k := by
        rw [← BitVec.toNat_inj]
        have := toNat_slot h.nonneg h.le_max
        omega
      rw [heq, Table.get_set_self]
    · rw [Table.get_set_of_ne _ (slot_ne h.nonneg h.le_max htop)]
      exact h.above k (by omega)

theorem StackSound.move {r s : Registers} (h : r.StackSound) (move : r.StackMove s) :
    s.StackSound := by
  cases move with
  | pop nonempty => exact (h.pop nonempty).congr rfl rfl
  | push room t => exact h.push room t
  | keep sp stack => exact h.congr sp stack

end Registers

/-! ## The machine -/

/-- A key is kept for a wait only. -/
def Keypad.Latched (p : Keypad) : Prop := ∀ k, p.latched = some k → p.armed = true

theorem Keypad.Latched.press {p : Keypad} (h : p.Latched) (k : Nibble) : (p.press k).Latched := by
  intro j latched
  by_cases armed : p.armed ∧ p.latched = none
  · exact armed.1
  · rw [Keypad.press, if_neg armed] at latched
    exact h j latched

namespace Machine

variable {m : Machine}

/-- What the types of the parts say: their sizes, and the ranges of their values. -/
structure Fits (m : Machine) : Prop where
  v : m.registers.v.toList.length = 16 ∧ ∀ b ∈ m.registers.v.toList, b.toNat ≤ 255
  i : m.registers.i.toNat ≤ 65535
  pc : m.registers.pc.toNat ≤ 65535
  stack : m.registers.stack.toList.length = 16 ∧ ∀ w ∈ m.registers.stack.toList, w.toNat ≤ 65535
  memory : m.memory.toList.length = 4096 ∧ ∀ b ∈ m.memory.toList, b.toNat ≤ 255
  pixels : m.display.pixels.toList.length = 2048 ∧ ∀ p ∈ m.display.pixels.toList, p.toNat ≤ 1
  delay : m.timers.delay.toNat ≤ 255
  sound : m.timers.sound.toNat ≤ 255
  held : ∀ k, m.keypad.latched = some k → k.toNat ≤ 15

/-- What ties the parts together. -/
structure Sound (m : Machine) : Prop where
  stack : m.registers.StackSound
  tone : m.timers.Settled
  wait : m.isWaiting = m.keypad.armed
  held : ∀ k, m.keypad.latched = some k → m.keypad.armed = true
  exclusive : ¬ (m.isWaiting = true ∧ m.fault ≠ none)
  programSize : m.programSize ≤ 3584

theorem fits (m : Machine) : m.Fits where
  v := ⟨Vector.length_toList, fun b _ => Nat.le_of_lt_succ b.isLt⟩
  i := Nat.le_of_lt_succ m.registers.i.isLt
  pc := Nat.le_of_lt_succ m.registers.pc.isLt
  stack := ⟨Vector.length_toList, fun w _ => Nat.le_of_lt_succ w.isLt⟩
  memory := ⟨Vector.length_toList, fun b _ => Nat.le_of_lt_succ b.isLt⟩
  pixels := ⟨Vector.length_toList, fun p _ => Bool.toNat_le p⟩
  delay := Nat.le_of_lt_succ m.timers.delay.isLt
  sound := Nat.le_of_lt_succ m.timers.sound.isLt
  held := fun k _ => Nat.le_of_lt_succ k.isLt

theorem Sound.fresh (random : Generator) : (fresh random).Sound where
  stack := Registers.stackSound_fresh
  tone := Timers.settled_fresh
  wait := rfl
  held := nofun
  exclusive := nofun
  programSize := Nat.zero_le _

/-! ## One step -/

theorem Sound.step (h : m.Sound) : m.step.1.Sound := by
  have stack := h.stack.move (step_stackMove m)
  have turn := turn_step m
  generalize m.step = out at stack turn ⊢
  cases turn with
  | halted mode => exact h
  | waits mode empty => exact h
  | resumes mode held =>
    exact { h with stack, wait := rfl, held := nofun, exclusive := nofun }
  | faults mode fault =>
    -- the machine was running, so it does not wait
    have idle := mode_eq_running_iff.mp mode
    refine { h with stack, exclusive := fun both => ?_ }
    exact absurd both.1 (ne_true_of_eq_false idle.2)
  | suspends mode fetched =>
    have idle := mode_eq_running_iff.mp mode
    exact { h with stack, wait := rfl, held := nofun, exclusive := fun both => both.2 idle.1 }
  | executes mode sound fetched =>
    obtain ⟨mode', keypad⟩ := proceed_suspension fetched
    have idle := mode_eq_running_iff.mp mode
    have idle' := mode_eq_running_iff.mp (mode'.trans mode)
    refine ⟨stack, proceed_settled h.tone, ?_, ?_, fun both => both.2 idle'.1, ?_⟩
    · rw [idle'.2, keypad, ← h.wait, idle.2]
    · rw [keypad]
      exact h.held
    · rw [proceed_programSize]
      exact h.programSize

/-! ## Calls -/

theorem Sound.beside {n : Machine} (h : m.Sound) (beside : Beside m n) : n.Sound := by
  cases beside with
  | tick => exact { h with tone := Timers.settled_settle _ }
  | press k => exact { h with held := Keypad.Latched.press h.held k }
  | release k => exact { h with }
  | look => exact { h with }
  | idle => exact h

theorem Sound.reset (m : Machine) : m.reset.Sound := by
  rw [reset_eq_fresh]
  exact Sound.fresh m.random

theorem Sound.loaded (m : Machine) {data : List Byte} (fits : data.length ≤ 3584) :
    (m.loaded data).Sound := by
  have reset := Sound.reset m
  unfold Machine.loaded
  exact ⟨reset.stack, reset.tone, reset.wait, reset.held, reset.exclusive, fits⟩

theorem Sound.after (h : m.Sound) {c : Call} (single : c.single = true) : (m.after c).Sound := by
  by_cases drives : c.kind = .drive
  · rcases after_cases single drives with rfl | beside
    · rw [after_step]
      exact h.step
    · exact h.beside beside
  · cases c
    case reset =>
      rw [after_reset]
      exact Sound.reset m
    case load data =>
      by_cases fits : data.length ≤ 3584
      · rw [Machine.after, perform_load_of_fits fits]
        exact Sound.loaded m fits
      · rw [Machine.after, perform_load_of_too_large (Nat.lt_of_not_le fits)]
        exact h
    case poke a value => exact { h with }
    case setV x value => exact { h with stack := h.stack.congr rfl rfl }
    case setI value => exact { h with stack := h.stack.congr rfl rfl }
    case setPc value => exact { h with stack := h.stack.congr rfl rfl }
    case setDelay value => exact { h with }
    case setSound value =>
      rw [after_setSound]
      exact { h with tone := Timers.settled_settle _ }
    all_goals exact absurd rfl drives

theorem Reachable.sound (reach : m.Reachable) : m.Sound := by
  obtain ⟨random, cs, rfl⟩ := reach
  exact afterAll_keeps (K := fun _ => True) (fun _ _ single _ h => h.after single)
    (fun _ _ => trivial) (Sound.fresh random)

end Machine

/-! ## Steps that look up every slot

Registers and memory are indexed by words of their own width. The stack pointer is a plain number,
so a step could name a slot that the stack does not have; `Machine.step?` gives up when it does. -/

namespace Registers

/-- The slot with a number, if the stack has one. -/
def slot? (index : Int) : Option Nibble :=
  if 0 ≤ index ∧ index < 16 then some (slot index) else none

/-- `push` into a slot that is looked up. -/
def push? (r : Registers) (target : Address) : Option Registers :=
  (slot? (r.sp + 1)).map fun k =>
    { r with sp := r.sp + 1, stack := r.stack.set k r.pc, pc := target.setWidth 16 }

/-- `pop` from a slot that is looked up. -/
def pop? (r : Registers) : Option Registers :=
  (slot? r.sp).map fun k =>
    { r with sp := r.sp - 1, stack := r.stack.set k 0, pc := r.stack.get k }

theorem slot?_eq {s : Int} (h0 : 0 ≤ s) (h : s ≤ 15) : slot? s = some (slot s) := by
  rw [slot?, if_pos ⟨h0, by omega⟩]

theorem StackSound.push?_eq {r : Registers} (h : r.StackSound) (hsp : r.sp < 15) (t : Address) :
    r.push? t = some (r.push t) := by
  have h0 := h.nonneg
  rw [push?, slot?_eq (by omega) (by omega)]
  rfl

theorem StackSound.pop?_eq {r : Registers} (h : r.StackSound) : r.pop? = some r.pop := by
  rw [pop?, slot?_eq h.nonneg h.le_max]
  rfl

end Registers

/-- `Instruction.execute` with every slot looked up. -/
def Instruction.execute? (m : Machine) : Instruction → Option (Machine × Advance)
  | .ret => m.registers.pop?.map fun registers => ({ m with registers }, .next)
  | .call t => (m.registers.push? t).map fun registers => ({ m with registers }, .hold)
  | i => some (i.execute m)

theorem Instruction.execute?_eq {m : Machine} {i : Instruction} (h : m.registers.StackSound)
    (sound : i.fault? m.registers = none) : i.execute? m = some (i.execute m) := by
  obtain ⟨-, hcall⟩ := fault?_eq_none_iff.mp sound
  cases i with
  | ret => rw [execute?, h.pop?_eq]; rfl
  | call t => rw [execute?, h.push?_eq (hcall t rfl)]; rfl
  | _ => rfl

namespace Machine

variable {m : Machine}

/-- `Machine.step` with every slot looked up; none if a slot is not there. -/
def step? (m : Machine) : Option (Machine × StepResult) :=
  match m.mode with
  | .halted _ => some (m, .fault)
  | .awaiting _ => some m.resume
  | .running =>
    let i := Instruction.decode m.fetch
    match i.fault? m.registers with
    | some cause => some (m.halt cause, .fault)
    | none => (i.execute? m).map fun (after, advance) =>
        (after.complete advance, (after.complete advance).outcome)

theorem Sound.step?_eq (h : m.Sound) : m.step? = some m.step := by
  unfold step?
  cases mode : m.mode with
  | halted f => rw [step_of_halted mode]
  | awaiting x => rw [step_of_awaiting mode]
  | running =>
    cases fault : (Instruction.decode m.fetch).fault? m.registers with
    | some cause => simp only [fault, step_of_fault mode fault]
    | none =>
      rw [step_of_sound mode fault]
      simp only [fault, Instruction.execute?_eq h.stack fault]
      rfl

/-- **Every machine in use is well formed.** Whatever was called before, accepted or refused, the
parts have their sizes and ranges and agree with each other, and the next step finds every stack
slot that it uses. -/
theorem reachable_wellFormed (reach : m.Reachable) :
    m.Fits ∧ m.Sound ∧ m.step? = some m.step :=
  ⟨m.fits, reach.sound, reach.sound.step?_eq⟩

/-- Inside a subroutine a machine waits and holds the first of two keys, the second of which does
not exist, and its tone is on. -/
theorem wellFormed_inside_wait :
    let m := (fresh (Generator.ofSeed 0)).afterAll
      [.load [0x22, 0x02, 0xF0, 0x0A], .step, .step, .press 7, .press 16, .setSound (-1)]
    m.isWaiting = true ∧ m.keypad.latched = some 7 ∧ m.registers.sp = 1 ∧ m.timers.sound = 255 ∧
      m.Fits ∧ m.Sound ∧ m.step? = some m.step := by
  intro m
  have waits : m.isWaiting = true := by decide +kernel
  have held : m.keypad.latched = some 7 := by decide +kernel
  have depth : m.registers.sp = 1 := by decide +kernel
  have tone : m.timers.sound = 255 := by decide +kernel
  exact ⟨waits, held, depth, tone, reachable_wellFormed ⟨_, _, rfl⟩⟩

end Machine

end ChipEight
