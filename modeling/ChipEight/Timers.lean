import ChipEight.Answer
import ChipEight.Word

/-!
The delay and sound timers. Both count down to zero, one unit a tick; the tone sounds while the
sound timer is above zero. `tone` is the state of the tone generator: it is settled after every
tick and every write of the sound timer, so a change of it can be reported.
-/

namespace ChipEight

structure Timers where
  delay : Byte := 0
  sound : Byte := 0
  tone : Bool := false
deriving DecidableEq

namespace Timers

def fresh : Timers := {}

def reset (t : Timers) : Timers := { t with delay := 0, sound := 0, tone := false }

theorem reset_eq_fresh (t : Timers) : t.reset = fresh := rfl

/-- One count less, but not below zero. -/
def countDown (b : Byte) : Byte := if b = 0 then 0 else b - 1

/-- The tone generator follows the sound timer. -/
def settle (t : Timers) : Timers := { t with tone := t.sound ≠ 0 }

def tick (t : Timers) : Timers :=
  settle { t with delay := countDown t.delay, sound := countDown t.sound }

def setDelay (t : Timers) (b : Byte) : Timers := { t with delay := b }

/-- Sets the sound timer; the tone starts or stops at once. -/
def setSound (t : Timers) (b : Byte) : Timers := settle { t with sound := b }

inductive Call
  | tick
  | setDelay (value : Int)
  | setSound (value : Int)
  | readDelay
  | readSound
  | reset
deriving DecidableEq

def perform (t : Timers) : Call → Timers × Answer
  | .tick => (t.tick, .flag t.tick.tone)
  | .setDelay value => (t.setDelay (BitVec.ofInt 8 value), .done)
  | .setSound value => (t.setSound (BitVec.ofInt 8 value), .done)
  | .readDelay => (t, .number t.delay.toNat)
  | .readSound => (t, .number t.sound.toNat)
  | .reset => (t.reset, .done)

end Timers

end ChipEight
