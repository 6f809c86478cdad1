import ChipEight.Answer
import ChipEight.Table
import ChipEight.Refusal

/-!
The sixteen keys, and the latch that answers a wait for a key. While the latch is armed the first
key that goes down is held until it is taken; keys that went down before do not count.
-/

namespace ChipEight

/-- What a wait sees of the latch. -/
inductive Latch
  | off
  | armed
  | holding (key : Nibble)
deriving DecidableEq

structure Keypad where
  down : Table 4 Bool := Table.fill 4 false
  /-- Whether a key that goes down is kept. -/
  armed : Bool := false
  latched : Option Nibble := none
deriving DecidableEq

namespace Keypad

def fresh : Keypad := {}

def reset (p : Keypad) : Keypad :=
  { p with down := Table.fill 4 false, armed := false, latched := none }

theorem reset_eq_fresh (p : Keypad) : p.reset = fresh := rfl

/-- A key that is kept counts for more than whether the next one would be. -/
def latch (p : Keypad) : Latch :=
  match p.latched with
  | some k => .holding k
  | none => if p.armed then .armed else .off

/-- The key that a number from outside names. -/
def key (k : Int) : Except Refusal Nibble :=
  if 0 ≤ k ∧ k < 16 then .ok (BitVec.ofInt 4 k) else .error (.keyOutOfRange k)

theorem key_of_nibble (k : Nibble) : key k.toNat = .ok k := by
  have below := k.isLt
  rw [key, if_pos ⟨by omega, by omega⟩]
  simp

/-- A key goes down. The first one since the latch was armed is kept. -/
def press (p : Keypad) (k : Nibble) : Keypad :=
  { p with
    down := p.down.set k true
    latched := if p.armed ∧ p.latched = none then some k else p.latched }

def release (p : Keypad) (k : Nibble) : Keypad := { p with down := p.down.set k false }

def isDown (p : Keypad) (k : Nibble) : Bool := p.down.get k

/-- Starts to wait for a key; one that is held already is forgotten. -/
def arm (p : Keypad) : Keypad := { p with armed := true, latched := none }

/-- Takes the key that is held, which ends the wait; without one nothing changes. -/
def take (p : Keypad) : Keypad × Option Nibble :=
  match p.latched with
  | some k => ({ p with armed := false, latched := none }, some k)
  | none => (p, none)

section Latch

variable {p : Keypad} {k : Nibble}

theorem latch_eq_armed_iff : p.latch = .armed ↔ p.armed = true ∧ p.latched = none := by
  unfold latch
  cases p.latched <;> cases p.armed <;> simp

theorem latch_eq_holding_iff : p.latch = .holding k ↔ p.latched = some k := by
  unfold latch
  cases p.latched <;> cases p.armed <;> simp

@[simp] theorem latch_arm (p : Keypad) : p.arm.latch = .armed := rfl

@[simp] theorem latch_release (p : Keypad) (k : Nibble) : (p.release k).latch = p.latch := rfl

theorem press_of_armed (armed : p.latch = .armed) (k : Nibble) :
    p.press k = { p with down := p.down.set k true, latched := some k } := by
  rw [press, if_pos (latch_eq_armed_iff.mp armed)]

theorem press_of_not_armed (other : p.latch ≠ .armed) (k : Nibble) :
    p.press k = { p with down := p.down.set k true } := by
  rw [press, if_neg fun armed => other (latch_eq_armed_iff.mpr armed)]

theorem latch_press (p : Keypad) (k : Nibble) :
    (p.press k).latch = if p.latch = .armed then .holding k else p.latch := by
  by_cases armed : p.latch = .armed
  · rw [press_of_armed armed, if_pos armed]
    rfl
  · rw [press_of_not_armed armed, if_neg armed]
    rfl

theorem take_of_holding (held : p.latch = .holding k) :
    p.take = ({ p with armed := false, latched := none }, some k) := by
  rw [take, latch_eq_holding_iff.mp held]

theorem take_of_empty (empty : ∀ k, p.latch ≠ .holding k) : p.take = (p, none) := by
  cases latched : p.latched with
  | none => rw [take, latched]
  | some k => exact absurd (latch_eq_holding_iff.mpr latched) (empty k)

end Latch

/-- The keys that are down, ascending. -/
def downKeys (p : Keypad) : List Nat :=
  (List.range 16).filter fun k => p.down.get (BitVec.ofNat 4 k)

inductive Call
  | press (k : Int)
  | release (k : Int)
  | isDown (k : Int)
  | state
  | arm
  | take
  | reset
deriving DecidableEq

/-- The keypad after a call, and the answer. A refused call changes nothing. -/
def perform (p : Keypad) : Call → Keypad × Except Refusal Answer
  | .press k =>
    match key k with
    | .ok k => (p.press k, .ok .done)
    | .error e => (p, .error e)
  | .release k =>
    match key k with
    | .ok k => (p.release k, .ok .done)
    | .error e => (p, .error e)
  | .isDown k => (p, .ok (.flag (p.isDown (BitVec.ofInt 4 k))))
  | .state => (p, .ok (.flags p.down.toList))
  | .arm => (p.arm, .ok .done)
  | .take => (p.take.1, .ok (.key p.take.2))
  | .reset => (p.reset, .ok .done)

end Keypad

end ChipEight
