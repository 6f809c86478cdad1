import Mathlib.Algebra.Order.Ring.Nat
import ChipEight.Clock.Interval

/-! # Intervals that can be counted

A quotient below a power of two is rounded to a number that is not much larger
(`bounded_ofQuotient`). So there is a count of microseconds for each interval of fewer than `2 ^ 200`
milliseconds. -/
namespace ChipEight

theorem roundHalfEven_le (num den : Nat) : roundHalfEven num den ≤ num / den + 1 := by
  unfold roundHalfEven
  simp only
  split
  · exact Nat.le_succ _
  · split
    · exact Nat.le_refl _
    · have := Nat.mod_lt (num / den) (show 0 < 2 by decide)
      omega

theorem mul_two_pow_lt {num den s t : Nat} (pos : 0 < den)
    (logs : num.log2 + 1 + s ≤ t + den.log2) : num * 2 ^ s < 2 ^ t * den := by
  calc num * 2 ^ s < 2 ^ (num.log2 + 1) * 2 ^ s :=
        Nat.mul_lt_mul_of_pos_right Nat.lt_log2_self (Nat.two_pow_pos s)
    _ = 2 ^ (num.log2 + 1 + s) := (Nat.pow_add 2 _ _).symm
    _ ≤ 2 ^ (t + den.log2) := Nat.pow_le_pow_right (by decide) logs
    _ = 2 ^ t * 2 ^ den.log2 := Nat.pow_add 2 _ _
    _ ≤ 2 ^ t * den := Nat.mul_le_mul_left _ (Nat.log2_self_le pos.ne')

namespace Binary64

theorem quotient_of_nonneg {mantissa : Nat} {exponent : Int} (h : 0 ≤ exponent) :
    quotient mantissa exponent = (mantissa * 2 ^ exponent.toNat, 1) := by
  rw [quotient, if_pos h, Nat.shiftLeft_eq]

theorem quotient_of_neg {mantissa : Nat} {exponent : Int} (h : ¬ 0 ≤ exponent) :
    quotient mantissa exponent = (mantissa, 2 ^ (-exponent).toNat) := by
  rw [quotient, if_neg h, Nat.shiftLeft_eq, Nat.one_mul]

theorem quotient_pos (mantissa : Nat) (exponent : Int) : 0 < (quotient mantissa exponent).2 := by
  by_cases h : 0 ≤ exponent
  · rw [quotient_of_nonneg h]
    exact Nat.one_pos
  · rw [quotient_of_neg h]
    exact Nat.two_pow_pos _

theorem quotient_lt {mantissa k : Nat} {exponent : Int} (mantissa_lt : mantissa < 2 ^ 53)
    (exponent_le : exponent + 53 ≤ k) :
    (quotient mantissa exponent).1 < 2 ^ k * (quotient mantissa exponent).2 := by
  by_cases h : 0 ≤ exponent
  · rw [quotient_of_nonneg h, Nat.mul_one]
    calc mantissa * 2 ^ exponent.toNat < 2 ^ 53 * 2 ^ exponent.toNat :=
          Nat.mul_lt_mul_of_pos_right mantissa_lt (Nat.two_pow_pos _)
      _ = 2 ^ (53 + exponent.toNat) := (Nat.pow_add 2 _ _).symm
      _ ≤ 2 ^ k := Nat.pow_le_pow_right (by decide) (by omega)
  · rw [quotient_of_neg h, ← Nat.pow_add]
    calc mantissa < 2 ^ 53 := mantissa_lt
      _ ≤ 2 ^ (k + (-exponent).toNat) := Nat.pow_le_pow_right (by decide) (by omega)

/-! ## Rounding -/

theorem gridExponent_ge (num den : Nat) :
    (num.log2 : Int) - den.log2 - 53 ≤ gridExponent num den := by
  unfold gridExponent
  simp only
  split
  · omega
  · omega

theorem gridExponent_le {num den k : Nat} (below : num < 2 ^ k * den) :
    gridExponent num den + 52 ≤ k := by
  have logs : num.log2 ≤ k + den.log2 := by
    by_cases zero : num = 0
    · rw [zero]
      exact Nat.zero_le _
    · refine Nat.le_of_lt_succ ((Nat.log2_lt zero).mpr ?_)
      calc num < 2 ^ k * den := below
        _ ≤ 2 ^ k * 2 ^ (den.log2 + 1) := Nat.mul_le_mul_left _ Nat.lt_log2_self.le
        _ = 2 ^ (k + den.log2 + 1) := (Nat.pow_add 2 _ _).symm
  unfold gridExponent
  simp only
  split
  · omega
  · omega

/-- On its grid a quotient has hardly more than fifty-three bits. -/
theorem grid_lt {num den : Nat} (pos : 0 < den) :
    num * (quotient den (gridExponent num den)).2 <
      2 ^ 54 * (quotient den (gridExponent num den)).1 := by
  have grid := gridExponent_ge num den
  by_cases h : 0 ≤ gridExponent num den
  · have below : num * 2 ^ 0 < 2 ^ (54 + (gridExponent num den).toNat) * den :=
      mul_two_pow_lt pos (by omega)
    rw [Nat.pow_zero, Nat.pow_add, Nat.mul_assoc] at below
    rw [quotient_of_nonneg h, Nat.mul_comm den]
    simpa only [Nat.mul_one] using below
  · have below : num * 2 ^ (-gridExponent num den).toNat < 2 ^ 54 * den :=
      mul_two_pow_lt pos (by omega)
    rw [quotient_of_neg h]
    exact below

/-- A finite number below `2 ^ k`, and not negative. -/
def Bounded (k : Nat) (x : Binary64) : Prop :=
  ∃ (mantissa : Nat) (exponent : Int), x.value = .finite false mantissa exponent ∧
    mantissa < 2 ^ 53 ∧ exponent + 53 ≤ k

theorem value_ofNat {count : Nat} (small : count < 0x7FF <<< 52) :
    (Binary64.mk (BitVec.ofNat 64 count)).value =
      if count / 2 ^ 52 = 0 then .finite false (count % 2 ^ 52) (-1074)
      else .finite false (count % 2 ^ 52 + 1 <<< 52) ((count / 2 ^ 52 : Nat) - 1075) := by
  have small : count < 0x7FF * 2 ^ 52 := by rwa [Nat.shiftLeft_eq] at small
  have sign : (BitVec.ofNat 64 count).msb = false := by
    rw [BitVec.msb_eq_false_iff_two_mul_lt, BitVec.toNat_ofNat]
    omega
  have exponent : ((BitVec.ofNat 64 count).extractLsb' 52 11).toNat = count / 2 ^ 52 := by
    rw [BitVec.extractLsb'_toNat, BitVec.toNat_ofNat, Nat.shiftRight_eq_div_pow]
    omega
  have fraction : ((BitVec.ofNat 64 count).extractLsb' 0 52).toNat = count % 2 ^ 52 := by
    rw [BitVec.extractLsb'_toNat, BitVec.toNat_ofNat, Nat.shiftRight_zero]
    omega
  unfold value
  simp only [sign, exponent, fraction]
  rw [if_neg (by omega)]

theorem bounded_ofNat {count k : Nat} (bound : count ≤ (k + 1022) * 2 ^ 52)
    (small : count < 0x7FF <<< 52) : Bounded k ⟨BitVec.ofNat 64 count⟩ := by
  have fraction := Nat.mod_lt count (show 0 < 2 ^ 52 by decide)
  have exponent : count / 2 ^ 52 ≤ k + 1022 := Nat.div_le_of_le_mul (by rwa [Nat.mul_comm])
  rw [Bounded, value_ofNat small]
  split
  · exact ⟨_, _, rfl, by omega, by omega⟩
  · exact ⟨_, _, rfl, by rw [Nat.shiftLeft_eq]; omega, by omega⟩

/-- A quotient below a power of two that is not too large is rounded to a number below sixteen times
that power. -/
theorem bounded_ofQuotient {num den k : Nat} (pos : 0 < den) (below : num < 2 ^ k * den)
    (range : k ≤ 1020) : ∃ x, ofQuotient num den = some x ∧ Bounded (k + 4) x := by
  unfold ofQuotient
  by_cases zero : num = 0
  · rw [if_pos zero]
    exact ⟨_, rfl, bounded_ofNat (Nat.zero_le _) (by decide)⟩
  · rw [if_neg zero]
    simp only
    have grid := gridExponent_le below
    have points : roundHalfEven (num * (quotient den (gridExponent num den)).2)
        (quotient den (gridExponent num den)).1 ≤ 2 ^ 54 := by
      refine (roundHalfEven_le _ _).trans (Nat.div_lt_of_lt_mul ?_)
      rw [Nat.mul_comm _ (2 ^ 54)]
      exact grid_lt pos
    generalize roundHalfEven _ _ = rounded at points ⊢
    rw [Nat.shiftLeft_eq]
    have small : ((gridExponent num den + 1074).toNat * 2 ^ 52 + rounded) < 0x7FF <<< 52 := by
      rw [Nat.shiftLeft_eq]
      omega
    rw [if_pos small]
    exact ⟨_, rfl, bounded_ofNat (by omega) small⟩

end Binary64

namespace Interval

open Binary64

theorem secondsOfMillis_of_lt {millis : Nat} (h : millis < 2 ^ 200) :
    ∃ seconds, secondsOfMillis millis = some seconds ∧ Bounded 208 seconds := by
  have whole : millis < 2 ^ 200 * 1 := by rwa [Nat.mul_one]
  obtain ⟨x, rounded, mantissa, exponent, value, mantissa_lt, exponent_le⟩ :=
    bounded_ofQuotient Nat.one_pos whole (by decide)
  have below := quotient_lt mantissa_lt exponent_le
  have thousandth : (quotient mantissa exponent).1 <
      2 ^ 204 * ((quotient mantissa exponent).2 * 1000) := by
    rw [← Nat.mul_assoc]
    exact below.trans_le (Nat.le_mul_of_pos_right _ (by decide))
  obtain ⟨seconds, divided, bounded⟩ := bounded_ofQuotient
    (Nat.mul_pos (quotient_pos mantissa exponent) (by decide)) thousandth (by decide)
  refine ⟨seconds, ?_, bounded⟩
  simp only [secondsOfMillis, rounded, Option.map_some, value]
  exact divided

theorem ofSeconds_of_bounded {seconds : Binary64} (h : Bounded 208 seconds) :
    ∃ micros, ofSeconds seconds = .ok micros := by
  obtain ⟨mantissa, exponent, value, mantissa_lt, exponent_le⟩ := h
  have below := quotient_lt mantissa_lt exponent_le
  have pos := quotient_pos mantissa exponent
  fun_cases ofSeconds seconds with
  | case1 => exact ⟨0, rfl⟩
  | case2 => exact ⟨0, rfl⟩
  | case3 => exact ⟨0, rfl⟩
  | case4 infinite => cases value.symm.trans infinite
  | case5 _ _ _ _ _ _ _ _ _ _ num den _ => exact ⟨roundHalfEven num den, rfl⟩
  | case6 _ _ finite num den same large =>
    obtain ⟨-, rfl, rfl⟩ := Value.finite.inj (value.symm.trans finite)
    rw [same] at below pos
    have million : num * microsPerSecond < 2 ^ (208 + 20) * den := by
      rw [Nat.pow_add, Nat.mul_right_comm]
      exact Nat.mul_lt_mul_of_lt_of_le below (by decide) (by decide)
    obtain ⟨x, rounded, _, _, counted, -⟩ := bounded_ofQuotient pos million (by decide)
    rw [rounded, Option.map_some, counted] at large
    exact absurd rfl (large _ _ _)

theorem ofMillis_of_lt {millis : Int} (h : millis.natAbs < 2 ^ 200) :
    ∃ micros, ofMillis millis = .ok micros := by
  obtain ⟨seconds, divided, bounded⟩ := secondsOfMillis_of_lt h
  simp only [ofMillis, divided]
  split
  · exact ⟨0, rfl⟩
  · exact ofSeconds_of_bounded bounded

end Interval

end ChipEight
