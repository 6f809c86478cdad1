import ChipEight.Proofs.Elapsed

/-! # The cadence of the steps

A frame adds `cpuHz` units to the budget of steps and a step costs `timerHz` of them, so the budget is
the remainder of a division that goes on from frame to frame (`Chain`). As long as every step executes
an instruction nothing is dropped, and the sum over any frames in a row is the quotient
(`Chain.balance`). -/
namespace ChipEight.Clock

/-- Every step of the frames executed an instruction. -/
def Clean (frames : List (List StepResult)) : Prop := ∀ results ∈ frames, ∀ x ∈ results, x = .ok

/-- The number of steps that executed an instruction. -/
def executedIn (frames : List (List StepResult)) : Nat := (frames.map (·.count .ok)).sum

/-- Frames in a row, each of which starts with what the one before it left of its budget. -/
inductive Chain (cpuHz timerHz : Nat) : Nat → List (List StepResult) → Nat → Prop
  | nil {budget : Nat} : Chain cpuHz timerHz budget [] budget
  | cons {budget next left : Nat} {results : List StepResult} {frames : List (List StepResult)}
      (first : Paid timerHz (budget + cpuHz) results next) (rest : Chain cpuHz timerHz next frames left) :
      Chain cpuHz timerHz budget (results :: frames) left

/-! ## Budgets from frame to frame -/

section Budgets

variable {cpuHz timerHz budget left : Nat} {frames : List (List StepResult)}

theorem executedIn_append (frames others : List (List StepResult)) :
    executedIn (frames ++ others) = executedIn frames + executedIn others := by
  rw [executedIn, List.map_append, List.sum_append]
  rfl

theorem Chain.append {next : Nat} {others : List (List StepResult)}
    (first : Chain cpuHz timerHz budget frames next) (rest : Chain cpuHz timerHz next others left) :
    Chain cpuHz timerHz budget (frames ++ others) left := by
  induction first with
  | nil => exact rest
  | cons paid _ ih => exact .cons paid (ih rest)

theorem Chain.split {others : List (List StepResult)}
    (chain : Chain cpuHz timerHz budget (frames ++ others) left) :
    ∃ next, Chain cpuHz timerHz budget frames next ∧ Chain cpuHz timerHz next others left := by
  induction frames generalizing budget with
  | nil => exact ⟨budget, .nil, chain⟩
  | cons results frames ih =>
    cases chain with
    | cons paid rest =>
      obtain ⟨next, before, after⟩ := ih rest
      exact ⟨next, .cons paid before, after⟩

theorem Chain.left_lt (chain : Chain cpuHz timerHz budget frames left) (bounded : budget < timerHz) :
    left < timerHz := by
  induction chain with
  | nil => exact bounded
  | cons paid _ ih => exact ih (paid.left_lt (Nat.zero_lt_of_lt bounded))

/-- Steps that all execute an instruction spend what the budget loses. -/
theorem Paid.balance {results : List StepResult} (paid : Paid timerHz budget results left)
    (clean : ∀ x ∈ results, x = .ok) : left + results.count .ok * timerHz = budget := by
  cases paid with
  | full n short sum => rw [List.count_replicate_self, sum]
  | cut n stop pays => exact absurd (clean _ List.mem_concat_self) stop

/-- Over frames in a row nothing is lost: what came in is left over or has paid for a step. -/
theorem Chain.balance (chain : Chain cpuHz timerHz budget frames left) (clean : Clean frames) :
    left + executedIn frames * timerHz = budget + frames.length * cpuHz := by
  induction chain with
  | nil => simp [executedIn]
  | @cons budget next left results frames paid rest ih =>
    have first := paid.balance (clean results List.mem_cons_self)
    have others := ih fun results h => clean results (List.mem_cons_of_mem _ h)
    have sum : executedIn (results :: frames) = results.count .ok + executedIn frames := rfl
    rw [sum, List.length_cons, Nat.add_mul, Nat.succ_mul]
    omega

theorem Chain.executed (chain : Chain cpuHz timerHz budget frames left) (clean : Clean frames)
    (bounded : budget < timerHz) :
    executedIn frames = (budget + frames.length * cpuHz) / timerHz ∧
      left = (budget + frames.length * cpuHz) % timerHz := by
  have short := chain.left_lt bounded
  rw [← chain.balance clean, Nat.add_mul_div_right _ _ (Nat.zero_lt_of_lt bounded),
    Nat.div_eq_of_lt short, Nat.zero_add, Nat.add_mul_mod_self_right, Nat.mod_eq_of_lt short]
  exact ⟨rfl, rfl⟩

/-- As many frames as there are in a second execute as many instructions as there are in a second. -/
theorem Chain.window (chain : Chain cpuHz timerHz budget frames left) (clean : Clean frames)
    (bounded : budget < timerHz) (second : frames.length = timerHz) : executedIn frames = cpuHz := by
  rw [(chain.executed clean bounded).1, second, Nat.add_mul_div_left _ _ (Nat.zero_lt_of_lt bounded),
    Nat.div_eq_of_lt bounded, Nat.zero_add]

/-- A frame that drops nothing executes the quotient of the frequencies, rounded down or up. -/
theorem Paid.floor_or_ceil {results : List StepResult}
    (paid : Paid timerHz (budget + cpuHz) results left) (clean : ∀ x ∈ results, x = .ok)
    (bounded : budget < timerHz) :
    results.count .ok = cpuHz / timerHz ∨ results.count .ok = (cpuHz + timerHz - 1) / timerHz := by
  have pos : 0 < timerHz := Nat.zero_lt_of_lt bounded
  have alone : Clean [results] := by
    intro frame mem
    rwa [List.mem_singleton.mp mem]
  have count : results.count .ok = (budget + 1 * cpuHz) / timerHz :=
    ((Chain.cons paid .nil).executed alone bounded).1
  have low : cpuHz / timerHz ≤ (budget + 1 * cpuHz) / timerHz := Nat.div_le_div_right (by omega)
  have high : (budget + 1 * cpuHz) / timerHz ≤ (cpuHz + timerHz - 1) / timerHz :=
    Nat.div_le_div_right (by omega)
  have near : (cpuHz + timerHz - 1) / timerHz ≤ cpuHz / timerHz + 1 := by
    rw [← Nat.add_div_right _ pos]
    exact Nat.div_le_div_right (by omega)
  omega

theorem Chain.floor_or_ceil (chain : Chain cpuHz timerHz budget frames left)
    (bounded : budget < timerHz) :
    ∀ results ∈ frames, (∀ x ∈ results, x = .ok) →
      results.count .ok = cpuHz / timerHz ∨ results.count .ok = (cpuHz + timerHz - 1) / timerHz := by
  intro results mem clean
  obtain ⟨before, after, rfl⟩ := List.append_of_mem mem
  obtain ⟨next, first, rest⟩ := chain.split
  cases rest with
  | cons paid _ => exact paid.floor_or_ceil clean (first.left_lt bounded)

theorem Paid.cut_of_mem {results : List StepResult} {x : StepResult}
    (paid : Paid timerHz budget results left) (mem : x ∈ results) (stop : x ≠ .ok) :
    results = List.replicate (results.count .ok) .ok ++ [x] ∧ left = 0 := by
  cases paid with
  | full n short sum => exact absurd (List.eq_of_mem_replicate mem) stop
  | @cut result n stopped pays =>
    have last : x = result := by
      rcases List.mem_append.mp mem with early | last
      · exact absurd (List.eq_of_mem_replicate early) stop
      · exact List.mem_singleton.mp last
    subst last
    rw [List.count_append, List.count_replicate_self, List.count_singleton, if_neg (by simpa using stop)]
    exact ⟨rfl, rfl⟩

end Budgets

/-! ## The frames of a history -/

namespace Rig

variable {σ : Type} [Board σ] {r : Rig σ} {cpuHz timerHz : Nat}

/-- The results of the steps that the next frame makes. -/
def results (r : Rig σ) : List StepResult :=
  (r.clock.spend r.board (r.clock.stepBudget + r.clock.cpuHz)).results

/-- The results of the next `n` frames. -/
def ahead (r : Rig σ) : (n : Nat) → List (List StepResult)
  | 0 => []
  | n + 1 => r.results :: r.frame.1.ahead n

/-- The number of frames that pass in a call. -/
def due (r : Rig σ) : Call → Nat
  | .tickFrame => 1
  | .tickFrames n => n
  | .advance seconds =>
    match Interval.ofSeconds seconds with
    | .ok micros => (r.clock.timeBudget + micros * r.clock.timerHz) / 1000000
    | .error _ => 0
  | .advances seconds n =>
    match Interval.ofSeconds seconds with
    | .ok micros => (r.clock.timeBudget + n * micros * r.clock.timerHz) / 1000000
    | .error _ => 0
  | _ => 0

/-- The results of the frames that pass in a history. -/
def frames (r : Rig σ) : List Call → List (List StepResult)
  | [] => []
  | c :: cs => r.ahead (r.due c) ++ (r.after c).frames cs

/-- What a clock keeps and counts over frames. -/
structure Passed (c : Clock) (frames : List (List StepResult)) (d : Clock) : Prop where
  chain : Chain c.cpuHz c.timerHz c.stepBudget frames d.stepBudget
  cpu : d.cpuHz = c.cpuHz
  timer : d.timerHz = c.timerHz
  ticks : d.totalTicks = c.totalTicks + frames.length
  steps : d.totalSteps = c.totalSteps + executedIn frames

theorem Passed.nil (c : Clock) : Passed c [] c := ⟨.nil, rfl, rfl, rfl, rfl⟩

theorem Passed.append {c d e : Clock} {frames others : List (List StepResult)}
    (first : Passed c frames d) (rest : Passed d others e) : Passed c (frames ++ others) e where
  chain := by
    have next := rest.chain
    rw [first.cpu, first.timer] at next
    exact first.chain.append next
  cpu := rest.cpu.trans first.cpu
  timer := rest.timer.trans first.timer
  ticks := by rw [rest.ticks, first.ticks, List.length_append, Nat.add_assoc]
  steps := by rw [rest.steps, first.steps, executedIn_append, Nat.add_assoc]

theorem passed_frame (r : Rig σ) : Passed r.clock [r.results] r.frame.1.clock := by
  rw [frame, tickFrame_eq_spend]
  exact ⟨.cons (paid_spend _ _ _) .nil, rfl, rfl, rfl, rfl⟩

theorem passed_ahead (r : Rig σ) (n : Nat) :
    Passed r.clock (r.ahead n) (times frame r n).1.clock := by
  induction n generalizing r with
  | zero => exact .nil _
  | succ n ih => exact (passed_frame r).append (ih r.frame.1)

/-- The rest of time has no part in it. -/
theorem passed_cover (r : Rig σ) (n rest : Nat) :
    Passed r.clock (r.ahead n) (r.cover n rest).1.clock := by
  obtain ⟨chain, cpu, timer, ticks, steps⟩ := passed_ahead r n
  exact ⟨chain, cpu, timer, ticks, steps⟩

theorem times_elapse (r : Rig σ) (micros n : Nat) :
    times (elapse · micros) r n = r.elapses (List.replicate n micros) := by
  induction n generalizing r with
  | zero => rfl
  | succ n ih => simp only [times, List.replicate_succ, elapses, ih]

theorem cover_self (r : Rig σ) (n : Nat) :
    (r.cover n r.clock.timeBudget).1 = (times frame r n).1 :=
  (congrArg Prod.fst (times_frame_setTime r r.clock.timeBudget n)).symm

/-- Whether a call does nothing but let time pass, if it does anything. -/
def timed : Call → Bool
  | .machine _ | .resetTotals => false
  | _ => true

/-- A call that lets time pass covers the frames that are due. -/
theorem after_eq_cover (bounded : r.clock.timeBudget < 1000000) {c : Call} (time : timed c = true) :
    ∃ rest, r.after c = (r.cover (r.due c) rest).1 := by
  cases c with
  | machine call => cases time
  | resetTotals => cases time
  | cpuHz => exact ⟨r.clock.timeBudget, rfl⟩
  | stepsPerTick => exact ⟨r.clock.timeBudget, rfl⟩
  | tickFrame => exact ⟨r.clock.timeBudget, (cover_self r 1).symm⟩
  | tickFrames n => exact ⟨r.clock.timeBudget, (cover_self r n).symm⟩
  | advance seconds =>
    cases interval : Interval.ofSeconds seconds with
    | ok micros =>
      rw [after, perform_advance interval, elapse_eq_cover]
      simp only [due, interval]
      exact ⟨_, rfl⟩
    | error e =>
      rw [after, perform_advance_refused interval]
      simp only [due, interval]
      exact ⟨r.clock.timeBudget, rfl⟩
  | advances seconds n =>
    cases interval : Interval.ofSeconds seconds with
    | ok micros =>
      rw [after, perform_advances interval, times_elapse, (elapses_eq bounded _).1, elapse_eq_cover,
        List.sum_replicate_nat]
      simp only [due, interval]
      exact ⟨_, rfl⟩
    | error e =>
      rw [after, perform_advances_refused interval]
      simp only [due, interval]
      exact ⟨r.clock.timeBudget, rfl⟩

theorem passed_after (bounded : r.clock.timeBudget < 1000000) {c : Call} (kept : c ≠ .resetTotals) :
    Passed r.clock (r.ahead (r.due c)) (r.after c).clock := by
  by_cases time : timed c = true
  · obtain ⟨rest, state⟩ := after_eq_cover bounded time
    rw [state]
    exact passed_cover r _ rest
  · cases c with
    | machine call => exact .nil _
    | resetTotals => exact absurd rfl kept
    | _ => exact absurd rfl time

theorem passed_frames (h : r.clock.InBounds cpuHz timerHz) {cs : List Call}
    (kept : .resetTotals ∉ cs) : Passed r.clock (r.frames cs) (r.afterAll cs).clock := by
  induction cs generalizing r with
  | nil => exact .nil _
  | cons c cs ih =>
    have first : c ≠ .resetTotals := fun h => kept (h ▸ List.mem_cons_self)
    have others : .resetTotals ∉ cs := fun h => kept (List.mem_cons_of_mem c h)
    exact (passed_after h.time first).append (ih (after_inBounds h c) others)

/-! ## One frame -/

/-- What happens in a frame. -/
structure FrameLaw (r : Rig σ) : Prop where
  /-- The results are those of as many steps, and these are all the steps of the frame; one tick of
  the timers follows. -/
  made : (Board.steps r.board r.results.length).2 = r.results
  board : (r.after .tickFrame).board = (Board.tick (Board.steps r.board r.results.length).1).1
  count : r.answer .tickFrame = counted (r.results.count .ok)
  ticks : (r.after .tickFrame).clock.totalTicks = r.clock.totalTicks + 1
  steps : (r.after .tickFrame).clock.totalSteps = r.clock.totalSteps + r.results.count .ok
  /-- A step that executes no instruction is the last, and drops the budget. -/
  cut : ∀ x ∈ r.results, x ≠ .ok →
    r.results = List.replicate (r.results.count .ok) .ok ++ [x] ∧
      (r.after .tickFrame).clock.lastResult = x ∧ (r.after .tickFrame).clock.stepBudget = 0

theorem frameLaw (r : Rig σ) : r.FrameLaw := by
  have state : r.after .tickFrame = r.frame.1 := rfl
  have answer : r.answer .tickFrame = counted r.frame.2 := rfl
  have made := steps_spend r.clock r.board (r.clock.stepBudget + r.clock.cpuHz)
  have paid := paid_spend r.clock r.board (r.clock.stepBudget + r.clock.cpuHz)
  rw [frame, tickFrame_eq_spend] at state answer
  refine ⟨congrArg Prod.snd made, ?_, answer, ?_, ?_, ?_⟩
  · rw [state, results, made]
    rfl
  · rw [state]
    rfl
  · rw [state]
    rfl
  · intro x mem stop
    obtain ⟨split, dropped⟩ := Paid.cut_of_mem paid mem stop
    refine ⟨split, ?_, ?_⟩
    · rw [state]
      exact (congrArg (List.getLastD · r.clock.lastResult) split).trans List.getLastD_concat
    · rw [state]
      exact dropped

/-! ## The cadence -/

/-- **The cadence is exact.** Between the calls of any history the budgets are below the price of a step
and of a frame. Frames in a row whose steps all execute an instruction execute as many as their budgets
pay for, so any frames that make up a second execute `cpuHz`, however they are divided among calls and
whatever the machine is asked in between. A frame that is cut short is so by its last step. -/
theorem cadence_exact {cpuHz timerHz : Nat} (cpu : 0 < cpuHz) (timer : 0 < timerHz) :
    (∀ r : Rig σ, r.FrameLaw) ∧
    ∃ clock, create cpuHz timerHz = .ok clock ∧ ∀ (board : σ) (cs : List Call),
      let r := (Rig.mk clock board).afterAll cs
      r.clock.stepBudget < timerHz ∧ r.clock.timeBudget < 1000000 ∧
      ∀ ds, .resetTotals ∉ ds →
        let units := r.clock.stepBudget + (r.frames ds).length * cpuHz
        (Clean (r.frames ds) →
          executedIn (r.frames ds) = units / timerHz ∧
            (r.afterAll ds).clock.stepBudget = units % timerHz) ∧
        (∀ results ∈ r.frames ds, (∀ x ∈ results, x = .ok) →
          results.count .ok = cpuHz / timerHz ∨
            results.count .ok = (cpuHz + timerHz - 1) / timerHz) ∧
        (∀ before window after, r.frames ds = before ++ window ++ after →
          window.length = timerHz → Clean window → executedIn window = cpuHz) ∧
        (r.afterAll ds).clock.totalTicks = r.clock.totalTicks + (r.frames ds).length ∧
        (r.afterAll ds).clock.totalSteps = r.clock.totalSteps + executedIn (r.frames ds) := by
  have made : create cpuHz timerHz = .ok ⟨cpuHz, timerHz, timer, 0, 0, 0, 0, .ok⟩ := by
    have positive : 0 < (cpuHz : Int) ∧ 0 < (timerHz : Int) := by omega
    rw [create, dif_pos positive]
    simp only [Int.toNat_natCast]
  refine ⟨frameLaw, _, made, fun board cs => ?_⟩
  intro r
  have h : r.clock.InBounds cpuHz timerHz := by
    have start := create_inBounds made
    simp only [Int.toNat_natCast] at start
    exact afterAll_inBounds start cs
  refine ⟨h.steps, h.time, fun ds kept => ?_⟩
  intro units
  have passed := passed_frames h kept
  have chain := passed.chain
  rw [h.cpu, h.timer] at chain
  refine ⟨fun clean => chain.executed clean h.steps, chain.floor_or_ceil h.steps, ?_,
    passed.ticks, passed.steps⟩
  intro before window after split second clean
  rw [split] at chain
  obtain ⟨late, early, -⟩ := chain.split
  obtain ⟨start, first, rest⟩ := early.split
  exact rest.window clean (first.left_lt h.steps) second

/-- Five instructions in three frames: one, two, two. In the middle of a second they are two, two, one. A
program that waits for a key cuts the frame short. -/
theorem cadence_five_in_three :
    let clock : Clock := { cpuHz := 5, timerHz := 3, timerHz_pos := by decide }
    let r := (Rig.mk clock (Machine.fresh (Generator.ofSeed 0))).afterAll
      [.machine (.load [0x12, 0x00]), .tickFrame]
    let ds : List Call := [.tickFrame, .machine (.press 4), .tickFrames 2]
    let waiting := (Rig.mk clock (Machine.fresh (Generator.ofSeed 0))).afterAll
      [.machine (.load [0x60, 0x05, 0xF0, 0x0A]), .tickFrame]
    r.clock.stepBudget = 2 ∧
      r.frames ds = [[.ok, .ok], [.ok, .ok], [.ok]] ∧
      executedIn (r.frames ds) = 5 ∧
      (r.afterAll ds).clock.totalSteps = r.clock.totalSteps + 5 ∧
      waiting.results = [.waiting] ∧
      (waiting.after .tickFrame).clock.lastResult = .waiting ∧
      (waiting.after .tickFrame).clock.stepBudget = 0 := by
  intro clock r ds waiting
  have five : 0 < 5 := by decide
  have three : 0 < 3 := by decide
  obtain ⟨frame, clock', made, history⟩ := cadence_exact (σ := Machine) five three
  obtain rfl : clock = clock' := Except.ok.inj made
  obtain ⟨-, -, frames⟩ := history (Machine.fresh (Generator.ofSeed 0))
    [.machine (.load [0x12, 0x00]), .tickFrame]
  obtain ⟨-, -, window, -, steps⟩ := frames ds (by decide)
  have budget : r.clock.stepBudget = 2 := by decide +kernel
  have passed : r.frames ds = [[.ok, .ok], [.ok, .ok], [.ok]] := by decide +kernel
  have held : waiting.results = [.waiting] := by decide +kernel
  have clean : Clean (r.frames ds) := by
    rw [passed, Clean]
    decide
  have whole : r.frames ds = [] ++ r.frames ds ++ [] := by rw [List.nil_append, List.append_nil]
  have second : executedIn (r.frames ds) = 5 :=
    window [] (r.frames ds) [] whole (by rw [passed]; rfl) clean
  obtain ⟨-, last, dropped⟩ := (frame waiting).cut .waiting
    (by rw [held]; exact List.mem_singleton_self _) (by decide)
  exact ⟨budget, passed, second, steps.trans (congrArg (r.clock.totalSteps + ·) second), held, last,
    dropped⟩

end Rig

end ChipEight.Clock
