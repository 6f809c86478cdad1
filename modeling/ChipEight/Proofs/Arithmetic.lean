import ChipEight.Proofs.Footprint

/-! # Operations on registers

What the words of classes 7 and 8 do, as numbers. Both operands are read before anything is written,
and the flag is written last: so an operation on the flag register itself sees the old content as an
operand and leaves the flag behind, whatever the result was. `Effect.Leaves` is that law, the same for
all operations; the table of the operations is `Word.effect`. -/
namespace ChipEight

/-- What an operation computes: the content of `Vx`, and that of `VF` if it decides on a flag. -/
structure Effect where
  result : Int
  flag : Option Nat := none
deriving DecidableEq

namespace Effect

/-- The bank `s` is the bank `r` behind an operation on `Vx`. -/
structure Leaves (e : Effect) (r s : Registers) (x : Nibble) : Prop where
  /-- The flag register holds the flag, also if the result belongs there. -/
  flag : ∀ f, e.flag = some f → (s.get Registers.flag).toNat = f
  result : e.flag = none ∨ x ≠ Registers.flag → ((s.get x).toNat : Int) = e.result
  /-- The flag register is like any other if there is no flag. -/
  others : ∀ k, k ≠ x → e.flag = none ∨ k ≠ Registers.flag → s.get k = r.get k
  pc : s.pc.toNat = (r.pc.toNat + 2) % 65536

end Effect

/-- The operations with `a` in `Vx` and `b` in `Vy`. -/
def Word.effect (w : Word) (a b : Nat) : Option Effect :=
  if w.opClass = 0x7 then some { result := (a + w.kk.toNat) % 256 }
  else if w.opClass = 0x8 then
    match w.n.toNat with
    | 0x0 => some { result := b }
    | 0x1 => some { result := (a ||| b : Nat) }
    | 0x2 => some { result := (a &&& b : Nat) }
    | 0x3 => some { result := (a ^^^ b : Nat) }
    | 0x4 => some { result := (a + b) % 256, flag := some (if a + b > 255 then 1 else 0) }
    | 0x5 => some { result := (a - b) % 256, flag := some (if a > b then 1 else 0) }
    | 0x6 => some { result := a / 2, flag := some (a % 2) }
    | 0x7 => some { result := (b - a) % 256, flag := some (if b > a then 1 else 0) }
    | 0xE => some { result := 2 * a % 256, flag := some (a / 128) }
    | _ => none
  else none

namespace Registers

variable {r : Registers} {x : Nibble} {result : Byte}

theorem toNat_flag (b : Bool) : (if b then 1 else 0 : Byte).toNat = b.toNat := by
  cases b <;> rfl

/-- Writing a result and then its flag is what an operation does to the bank. -/
theorem leaves_put {e : Effect} {flag : Option Bool} (value : (result.toNat : Int) = e.result)
    (flags : flag.map Bool.toNat = e.flag) :
    e.Leaves r ((r.put x result flag).advance 2) x where
  flag f decided := by
    rw [← flags] at decided
    obtain ⟨b, rfl, rfl⟩ := Option.map_eq_some_iff.mp decided
    have written : ((r.put x result (some b)).advance 2).get Registers.flag = if b then 1 else 0 :=
      Table.get_set_self _ _ _
    rw [written, toNat_flag]
  result apart := by
    have written : ((r.put x result flag).advance 2).get x = result := by
      cases flag with
      | none => exact Table.get_set_self _ _ _
      | some b =>
        have other : Registers.flag ≠ x := by
          rcases apart with none | other
          · rw [← flags] at none
            cases none
          · exact other.symm
        exact (Table.get_set_of_ne _ other _).trans (Table.get_set_self _ _ _)
    rw [written, value]
  others k other apart := by
    refine Decidable.byContradiction fun changed => ?_
    rcases put_changes changed with same | ⟨flag, decided⟩
    · exact other same.symm
    · rcases apart with none | apart
      · rw [← flags, Option.map_eq_none_iff] at none
        rw [none] at decided
        cases decided
      · exact apart flag
  pc := by
    have pc : ((r.put x result flag).advance 2).pc = r.pc + 2 := by
      rw [advance, Instruction.put_pc]
    rw [pc]
    exact BitVec.toNat_add _ _

end Registers

/-! ## The operations as numbers -/

theorem toNat_decide (p : Prop) [Decidable p] : (decide p).toNat = if p then 1 else 0 := by
  by_cases h : p
  · rw [decide_eq_true h, if_pos h]
    rfl
  · rw [decide_eq_false h, if_neg h]
    rfl

namespace Byte

variable (a b : Byte)

theorem toNat_add_cast : ((a + b).toNat : Int) = (a.toNat + b.toNat : Int) % 256 := by
  rw [BitVec.toNat_add]
  rfl

theorem toNat_sub_cast : ((a - b).toNat : Int) = (a.toNat - b.toNat : Int) % 256 := by
  have below := b.isLt
  rw [BitVec.toNat_sub]
  omega

theorem toNat_half : (a >>> 1).toNat = a.toNat / 2 := by
  rw [BitVec.toNat_ushiftRight, Nat.shiftRight_eq_div_pow]

theorem toNat_double : (a <<< 1).toNat = 2 * a.toNat % 256 := by
  rw [BitVec.toNat_shiftLeft, Nat.shiftLeft_eq, Nat.mul_comm]

theorem toNat_low_bit : (a.getLsbD 0).toNat = a.toNat % 2 := by
  rw [BitVec.getLsbD, Nat.testBit_zero, toNat_decide]
  split <;> omega

theorem toNat_high_bit : a.msb.toNat = a.toNat / 128 := by
  have below := a.isLt
  rw [BitVec.msb_eq_decide, toNat_decide]
  split <;> omega

end Byte

/-! ## The step -/

namespace Machine

variable {m : Machine}

/-- An instruction that writes a result, and then its flag if it has one, has the effect with these
values. -/
theorem step_of_put {e : Effect} (i : Instruction) (flag : Option Bool) {result : Byte}
    (running : m.mode = .running) (fetched : Instruction.decode m.fetch = i)
    (simple : i.simple = true)
    (executed : i.execute m =
      ({ m with registers := m.registers.put m.fetch.x result flag }, .next))
    (value : (result.toNat : Int) = e.result) (flags : flag.map Bool.toNat = e.flag) :
    m.step.2 = .ok ∧ e.Leaves m.registers m.step.1.registers m.fetch.x := by
  have step : m.step = (m.proceed, .ok) := step_of_simple running (by rw [fetched, simple])
  have proceeds : m.proceed.registers = (m.registers.put m.fetch.x result flag).advance 2 := by
    rw [proceed, fetched, executed]
    rfl
  rw [step, proceeds]
  exact ⟨rfl, Registers.leaves_put value flags⟩

theorem step_arith (running : m.mode = .running) (opClass : m.fetch.opClass = 0x8) (op : Arith)
    (n : m.fetch.n = op.selector) {e : Effect}
    (value : (((op.apply (m.registers.get m.fetch.x) (m.registers.get m.fetch.y)).1.toNat : Int) =
      e.result))
    (flags : (op.apply (m.registers.get m.fetch.x) (m.registers.get m.fetch.y)).2.map Bool.toNat =
      e.flag) :
    m.step.2 = .ok ∧ e.Leaves m.registers m.step.1.registers m.fetch.x :=
  step_of_put (.arith op m.fetch.x m.fetch.y) _ running
    (Instruction.decode_of_encodes rfl ⟨opClass, n, rfl, rfl⟩) rfl rfl value flags

theorem step_effect {e : Effect} (running : m.mode = .running)
    (effect : m.fetch.effect (m.registers.get m.fetch.x).toNat (m.registers.get m.fetch.y).toNat =
      some e) :
    m.step.2 = .ok ∧ e.Leaves m.registers m.step.1.registers m.fetch.x := by
  unfold Word.effect at effect
  split at effect
  case isTrue opClass =>
    cases effect
    refine step_of_put (.addByte m.fetch.x m.fetch.kk) none running
      (Instruction.decode_of_encodes rfl ⟨opClass, rfl, rfl⟩) rfl rfl ?_ rfl
    exact Byte.toNat_add_cast _ _
  case isFalse =>
    split at effect
    case isFalse => cases effect
    case isTrue opClass =>
      generalize selected : m.fetch.n.toNat = n at effect
      have selector : m.fetch.n = BitVec.ofNat 4 n := eq_ofNat selected
      split at effect
      case h_10 => cases effect
      all_goals cases effect
      · exact step_arith running opClass .copy selector rfl rfl
      · exact step_arith running opClass .or selector (congrArg _ (BitVec.toNat_or _ _)) rfl
      · exact step_arith running opClass .and selector (congrArg _ (BitVec.toNat_and _ _)) rfl
      · exact step_arith running opClass .xor selector (congrArg _ (BitVec.toNat_xor _ _)) rfl
      · exact step_arith running opClass .add selector (Byte.toNat_add_cast _ _)
          (congrArg some (toNat_decide _))
      · exact step_arith running opClass .sub selector (Byte.toNat_sub_cast _ _)
          (congrArg some (toNat_decide _))
      · exact step_of_put (.shiftRight m.fetch.x) (some _) running
          (Instruction.decode_of_encodes rfl ⟨opClass, selector, rfl⟩) rfl rfl
          (congrArg _ (Byte.toNat_half _)) (congrArg some (Byte.toNat_low_bit _))
      · exact step_arith running opClass .subFrom selector (Byte.toNat_sub_cast _ _)
          (congrArg some (toNat_decide _))
      · exact step_of_put (.shiftLeft m.fetch.x) (some _) running
          (Instruction.decode_of_encodes rfl ⟨opClass, selector, rfl⟩) rfl rfl
          (congrArg _ (Byte.toNat_double _)) (congrArg some (Byte.toNat_high_bit _))

/-- **Operations on registers.** In every state in which it is executed, a word of the table goes well,
and leaves its result, its flag and the next program counter as the table says, however `x`, `y` and the
flag register coincide. Unless it goes to the flag register, the result of an addition or of a shift makes
up the exact value with the flag. -/
theorem step_operates (m : Machine) (running : m.mode = .running) :
    let w := m.fetch
    let a := (m.registers.get w.x).toNat
    let b := (m.registers.get w.y).toNat
    let s := (m.after .step).registers
    let vx := (s.get w.x).toNat
    let vf := (s.get Registers.flag).toNat
    (∀ e, w.effect a b = some e →
      m.answer .step = .ok (.result .ok) ∧ e.Leaves m.registers s w.x) ∧
    (w.opClass = 0x8 → w.x ≠ Registers.flag →
      (w.n = 0x4 → a + b = 256 * vf + vx) ∧
      (w.n = 0x6 → a = 2 * vx + vf) ∧
      (w.n = 0xE → 2 * a = 256 * vf + vx)) := by
  intro w a b s vx vf
  have leaves {e : Effect} (effect : w.effect a b = some e) :
      m.answer .step = .ok (.result .ok) ∧ e.Leaves m.registers s w.x := by
    obtain ⟨ok, leaves⟩ := step_effect running effect
    rw [answer_step, ok, show s = m.step.1.registers from congrArg registers (after_step m)]
    exact ⟨rfl, leaves⟩
  have below : a < 256 ∧ b < 256 := ⟨BitVec.isLt _, BitVec.isLt _⟩
  refine ⟨fun e => leaves, fun opClass other => ⟨fun n => ?_, fun n => ?_, fun n => ?_⟩⟩
  · have sum := (leaves (by simp only [Word.effect, opClass, n]; rfl)).2
    have flag : vf = if a + b > 255 then 1 else 0 := sum.flag _ rfl
    have result : (vx : Int) = (a + b) % 256 := sum.result (.inr other)
    split at flag <;> omega
  · have half := (leaves (by simp only [Word.effect, opClass, n]; rfl)).2
    have flag : vf = a % 2 := half.flag _ rfl
    have result : (vx : Int) = a / 2 := half.result (.inr other)
    omega
  · have double := (leaves (by simp only [Word.effect, opClass, n]; rfl)).2
    have flag : vf = a / 128 := double.flag _ rfl
    have result : (vx : Int) = 2 * a % 256 := double.result (.inr other)
    omega

/-- The sum `VF + VF` leaves its carry in `VF`; there it is the operand of a comparison with an equal
byte, which leaves 0. -/
theorem step_operates_on_flag :
    let m := (fresh (Generator.ofSeed 0)).afterAll [.load [0x8F, 0xF4, 0x81, 0xF5], .setV 0xF 0x90]
    let n := m.afterAll [.step, .setV 1 1]
    let s := (m.after .step).registers
    let t := (n.after .step).registers
    (m.registers.get Registers.flag).toNat = 0x90 ∧ (s.get Registers.flag).toNat = 1 ∧
      s.pc.toNat = 0x202 ∧ n.fetch.y = Registers.flag ∧ ((t.get n.fetch.x).toNat : Int) = 0 ∧
      (t.get Registers.flag).toNat = 0 := by
  intro m n s t
  obtain ⟨running, before, start, sum⟩ : m.mode = .running ∧
      (m.registers.get Registers.flag).toNat = 0x90 ∧ m.registers.pc.toNat = 0x200 ∧
      m.fetch.effect (m.registers.get m.fetch.x).toNat (m.registers.get m.fetch.y).toNat =
        some { result := 0x20, flag := some 1 } := by
    decide +kernel
  obtain ⟨running', x, y, difference⟩ : n.mode = .running ∧ n.fetch.x ≠ Registers.flag ∧
      n.fetch.y = Registers.flag ∧
      n.fetch.effect (n.registers.get n.fetch.x).toNat (n.registers.get n.fetch.y).toNat =
        some { result := 0, flag := some 0 } := by
    decide +kernel
  have first := ((step_operates m running).1 _ sum).2
  have second := ((step_operates n running').1 _ difference).2
  have pc : s.pc.toNat = (m.registers.pc.toNat + 2) % 65536 := first.pc
  rw [start] at pc
  exact ⟨before, first.flag 1 rfl, pc, y, second.result (.inr x), second.flag 0 rfl⟩

end Machine

end ChipEight
