import ChipEight.Clock.Basic

/-! # Frames

A frame spends a budget: it makes one step after another while the budget pays for it, and no
further step once one has executed no instruction. `Clock.spend` is this loop and keeps the result
of every step. `Clock.tickFrame` works out first how many steps the budget is worth and makes them in
one burst; `tickFrame_eq_spend` says that it comes to the same, and `Paid` what results a budget can
buy. -/
namespace ChipEight

namespace Board

variable {σ : Type} [Board σ]

theorem stepsOnto_append (b : σ) (results : List StepResult) (n : Nat) :
    stepsOnto results b n = ((stepsOnto [] b n).1, (stepsOnto [] b n).2 ++ results) := by
  induction n generalizing b results with
  | zero => rfl
  | succ n ih =>
    simp only [stepsOnto]
    rw [ih (step b).1 ((step b).2 :: results), ih (step b).1 [(step b).2]]
    simp

theorem steps_succ (b : σ) (n : Nat) :
    steps b (n + 1) = ((steps (step b).1 n).1, (step b).2 :: (steps (step b).1 n).2) := by
  have hlast : stepsOnto [] b (n + 1) =
      ((stepsOnto [] (step b).1 n).1, (stepsOnto [] (step b).1 n).2 ++ [(step b).2]) :=
    stepsOnto_append _ _ n
  simp only [steps, hlast, List.reverse_append, List.reverse_singleton, List.singleton_append]

end Board

namespace Clock

variable {σ : Type} [Board σ]

/-- Where a budget has gone: the results of the steps made, in order, and what is left of it. -/
structure Spent (σ : Type) where
  board : σ
  results : List StepResult
  left : Nat

/-- Makes steps while the budget pays for them. A step that executes no instruction is the last, and
what is left of the budget is dropped. -/
def spend (c : Clock) (b : σ) (budget : Nat) : Spent σ :=
  if c.timerHz ≤ budget then
    match Board.step b with
    | (b, .ok) =>
      let rest := c.spend b (budget - c.timerHz)
      { rest with results := .ok :: rest.results }
    | (b, result) => ⟨b, [result], 0⟩
  else ⟨b, [], budget⟩
termination_by budget
decreasing_by have := c.timerHz_pos; omega

/-- What the steps that a budget pays for can come to, and what is left of the budget. -/
inductive Paid (timerHz budget : Nat) : List StepResult → Nat → Prop
  /-- Every step executed an instruction, and the budget does not pay for another. -/
  | full {left : Nat} (n : Nat) (short : left < timerHz) (sum : left + n * timerHz = budget) :
      Paid timerHz budget (List.replicate n .ok) left
  /-- The last step, and only that one, executed no instruction. -/
  | cut {result : StepResult} (n : Nat) (stop : result ≠ .ok)
      (pays : (n + 1) * timerHz ≤ budget) :
      Paid timerHz budget (List.replicate n .ok ++ [result]) 0

/-! ## The loop -/

/-- The results of the loop are those of as many steps, and it makes no others. -/
theorem steps_spend (c : Clock) (b : σ) (budget : Nat) :
    Board.steps b (c.spend b budget).results.length =
      ((c.spend b budget).board, (c.spend b budget).results) := by
  fun_induction spend c b budget with
  | case1 b budget pays next step rest ih =>
    rw [List.length_cons, Board.steps_succ, step, ih]
  | case2 b budget pays next result stop step =>
    rw [List.length_singleton, Board.steps_succ, step]
    rfl
  | case3 b budget short => rfl

theorem paid_spend (c : Clock) (b : σ) (budget : Nat) :
    Paid c.timerHz budget (c.spend b budget).results (c.spend b budget).left := by
  fun_induction spend c b budget with
  | case1 b budget pays next step rest ih =>
    change Paid c.timerHz budget (.ok :: rest.results) rest.left
    change Paid c.timerHz (budget - c.timerHz) rest.results rest.left at ih
    obtain ⟨board, results, left⟩ := rest
    cases ih with
    | full n short sum => exact .full (n + 1) short (by rw [Nat.succ_mul]; omega)
    | cut n stop afford => exact .cut (n + 1) stop (by rw [Nat.succ_mul]; omega)
  | case2 b budget pays next result stop step => exact .cut 0 stop (by omega)
  | case3 b budget short => exact .full 0 (Nat.lt_of_not_le short) (by simp)

/-- The burst of as many steps as a budget is worth does what the loop does. -/
theorem burst_eq_spend (c : Clock) (b : σ) (budget executed : Nat) :
    Board.burst b executed (budget / c.timerHz) =
      ((c.spend b budget).board, executed + (c.spend b budget).results.count .ok,
        (c.spend b budget).results.getLastD .ok) := by
  fun_induction spend c b budget generalizing executed with
  | case1 b budget pays next step rest ih =>
    rw [Nat.div_eq_sub_div c.timerHz_pos pays, Board.burst, step]
    simp only [ih, List.count_cons_self, List.getLastD_cons]
    rw [Nat.add_right_comm, Nat.add_assoc]
  | case2 b budget pays next result stop step =>
    rw [Nat.div_eq_sub_div c.timerHz_pos pays, Board.burst, step]
    cases result with
    | ok => exact absurd rfl stop
    | waiting => rfl
    | fault => rfl
  | case3 b budget short =>
    rw [Nat.div_eq_of_lt (Nat.lt_of_not_le short)]
    rfl

/-! ## The frame -/

variable {timerHz budget left : Nat} {results : List StepResult}

theorem getLastD_replicate {α : Type} (a : α) (n : Nat) : (List.replicate n a).getLastD a = a := by
  induction n with
  | zero => rfl
  | succ n ih => rw [List.replicate_succ, List.getLastD_cons, ih]

theorem Paid.left_eq (paid : Paid timerHz budget results left) :
    left = if results.getLastD .ok = .ok then budget % timerHz else 0 := by
  cases paid with
  | full n short sum =>
    rw [if_pos (getLastD_replicate _ n), ← sum, Nat.add_mul_mod_self_right,
      Nat.mod_eq_of_lt short]
  | cut n stop pays =>
    rw [List.getLastD_concat, if_neg stop]

theorem Paid.left_lt (paid : Paid timerHz budget results left) (pos : 0 < timerHz) :
    left < timerHz := by
  cases paid with
  | full n short sum => exact short
  | cut n stop pays => exact pos

theorem Paid.results_eq_nil_iff (paid : Paid timerHz budget results left) (pos : 0 < timerHz) :
    results = [] ↔ budget / timerHz = 0 := by
  rw [Nat.div_eq_zero_iff]
  cases paid with
  | full n short sum =>
    cases n with
    | zero => simp; omega
    | succ n =>
      rw [Nat.succ_mul] at sum
      simp [List.replicate_succ]; omega
  | cut n stop pays =>
    rw [Nat.succ_mul] at pays
    simp; omega

/-- A frame spends its budget and then ticks once. -/
theorem tickFrame_eq_spend (c : Clock) (b : σ) :
    c.tickFrame b =
      let spent := c.spend b (c.stepBudget + c.cpuHz)
      { clock :=
          { c with
            stepBudget := spent.left
            totalSteps := c.totalSteps + spent.results.count .ok
            totalTicks := c.totalTicks + 1
            lastResult := spent.results.getLastD c.lastResult }
        board := (Board.tick spent.board).1
        steps := spent.results.count .ok } := by
  have paid := paid_spend c b (c.stepBudget + c.cpuHz)
  have last : (if (c.stepBudget + c.cpuHz) / c.timerHz = 0 then c.lastResult
      else (c.spend b (c.stepBudget + c.cpuHz)).results.getLastD .ok) =
      (c.spend b (c.stepBudget + c.cpuHz)).results.getLastD c.lastResult := by
    simp only [← paid.results_eq_nil_iff c.timerHz_pos]
    cases (c.spend b (c.stepBudget + c.cpuHz)).results with
    | nil => rfl
    | cons result rest => rw [if_neg (List.cons_ne_nil _ _), List.getLastD_cons, List.getLastD_cons]
  simp only [tickFrame, burst_eq_spend, Nat.zero_add, ← paid.left_eq, last]

end Clock

end ChipEight
