import ChipEight.Machine.Call

/-! # Histories of calls

What is true of a machine at any time is true after every history of calls, and a history is a list.
A call that makes several steps or ticks is the same as the single calls it consists of
(`afterAll_unroll`), so a property that the single calls keep holds along every history
(`afterAll_keeps`), and one can speak of the states in the middle of a run. -/
namespace ChipEight
namespace Machine

variable {m : Machine}

/-- The machine after a call. -/
def after (m : Machine) (c : Call) : Machine := (Board.perform m c).1

/-- What a call answers. -/
def answer (m : Machine) (c : Call) : Except Refusal Answer := (Board.perform m c).2

/-- The machine after a history of calls. -/
def afterAll (m : Machine) (cs : List Call) : Machine := cs.foldl after m

/-- What the calls of a history answer, in order. -/
def answers (m : Machine) : List Call → List (Except Refusal Answer)
  | [] => []
  | c :: cs => m.answer c :: (m.after c).answers cs

/-- The machines that some history leads to from a machine just switched on. -/
def Reachable (m : Machine) : Prop := ∃ random cs, (fresh random).afterAll cs = m

@[simp] theorem afterAll_nil (m : Machine) : m.afterAll [] = m := rfl

@[simp] theorem afterAll_cons (m : Machine) (c : Call) (cs : List Call) :
    m.afterAll (c :: cs) = (m.after c).afterAll cs := rfl

/-! What the calls that report something do to a machine that nobody listens to. -/

theorem perform_step (m : Machine) : Board.perform m .step = (m.step.1, .ok (.result m.step.2)) := by
  rw [Board.perform, Board.step_machine]

theorem perform_tick (m : Machine) :
    Board.perform m .tick = (m.tick, .ok (.flag m.tick.timers.tone)) := by
  rw [Board.perform, Board.tick_machine]

theorem perform_reset (m : Machine) : Board.perform m .reset = (m.reset, .ok .done) := by
  rw [Board.perform, Board.reset_machine]

theorem perform_load (m : Machine) (data : List Byte) : Board.perform m (.load data) =
    match m.load data with
    | .ok loaded => (loaded, .ok .done)
    | .error e => (m, .error e) := by
  rw [Board.perform, Board.load_machine]
  cases m.load data <;> rfl

theorem perform_press (m : Machine) (k : Int) :
    Board.perform m (.press k) = Board.withKey m k press := by
  rw [Board.perform, show Board.press = press from funext fun m => funext (Board.press_machine m)]

theorem perform_setSound (m : Machine) (value : Int) : Board.perform m (.setSound value) =
    ({ m with timers := m.timers.setSound (BitVec.ofInt 8 value) }, .ok .done) := by
  rw [Board.perform, Board.writeSound_machine]

theorem after_step (m : Machine) : m.after .step = m.step.1 := congrArg Prod.fst (perform_step m)

theorem answer_step (m : Machine) : m.answer .step = .ok (.result m.step.2) :=
  congrArg Prod.snd (perform_step m)

theorem after_step_eq {m n : Machine} {result : StepResult} (step : m.step = (n, result)) :
    m.after .step = n := by
  rw [after_step, step]

theorem after_tick (m : Machine) : m.after .tick = m.tick := congrArg Prod.fst (perform_tick m)

theorem answer_tick (m : Machine) : m.answer .tick = .ok (.flag m.tick.timers.tone) :=
  congrArg Prod.snd (perform_tick m)

theorem after_reset (m : Machine) : m.after .reset = m.reset := congrArg Prod.fst (perform_reset m)

theorem after_setSound (m : Machine) (value : Int) : m.after (.setSound value) =
    { m with timers := m.timers.setSound (BitVec.ofInt 8 value) } :=
  congrArg Prod.fst (perform_setSound m value)

theorem afterAll_append (m : Machine) (cs ds : List Call) :
    m.afterAll (cs ++ ds) = (m.afterAll cs).afterAll ds := List.foldl_append

theorem Reachable.afterAll (reach : m.Reachable) (cs : List Call) : (m.afterAll cs).Reachable := by
  obtain ⟨random, ds, rfl⟩ := reach
  exact ⟨random, ds ++ cs, afterAll_append _ ds cs⟩

theorem answers_getElem? (m : Machine) (cs : List Call) (i : Nat) :
    (m.answers cs)[i]? = cs[i]?.map (m.afterAll (cs.take i)).answer := by
  induction cs generalizing m i with
  | nil => rfl
  | cons c cs ih =>
    cases i with
    | zero => rfl
    | succ i => simpa [answers] using ih (m.after c) i

/-! ## Kinds of calls -/

/-- What a call is made for. -/
inductive Call.Kind
  /-- To run the program: steps, ticks, keys, and every look at the state. -/
  | drive
  /-- To start over, with a program or without. -/
  | restart
  /-- To write memory, a register or a timer from outside. -/
  | patch
deriving DecidableEq

/-- The kind of a call. -/
def Call.kind : Call → Kind
  | .reset | .load _ => .restart
  | .poke _ _ | .setV _ _ | .setI _ | .setPc _ | .setDelay _ | .setSound _ => .patch
  | _ => .drive

/-- Whether a call makes at most one step and at most one tick. -/
def Call.single : Call → Bool
  | .steps _ | .run _ | .ticks _ => false
  | _ => true

/-- The number of steps that a run makes: it ends behind the first that executes no instruction. -/
def stepsMade (m : Machine) : (limit : Nat) → Nat
  | 0 => 0
  | limit + 1 =>
    match m.step with
    | (m, .ok) => m.stepsMade limit + 1
    | _ => 1

/-- The single calls that a call consists of. -/
def Call.singles (m : Machine) : Call → List Call
  | .steps n => List.replicate n .step
  | .run n => List.replicate (m.stepsMade n.toNat) .step
  | .ticks n => List.replicate n .tick
  | c => [c]

/-- A history with every call replaced by the single calls that it consists of. -/
def unroll (m : Machine) : List Call → List Call
  | [] => []
  | c :: cs => c.singles m ++ (m.after c).unroll cs

theorem kind_of_mem_singles {c d : Call} (h : d ∈ c.singles m) :
    d.kind = c.kind ∧ d.single = true := by
  cases c
  case steps n => rw [List.eq_of_mem_replicate h]; exact ⟨rfl, rfl⟩
  case run n => rw [List.eq_of_mem_replicate h]; exact ⟨rfl, rfl⟩
  case ticks n => rw [List.eq_of_mem_replicate h]; exact ⟨rfl, rfl⟩
  all_goals rw [List.mem_singleton.mp h]; exact ⟨rfl, rfl⟩

theorem kind_of_mem_unroll {K : Call.Kind → Prop} {cs : List Call} (hk : ∀ c ∈ cs, K c.kind) :
    ∀ d ∈ m.unroll cs, K d.kind ∧ d.single = true := by
  induction cs generalizing m with
  | nil => intro d hd; cases hd
  | cons c cs ih =>
    intro d hd
    rcases List.mem_append.mp hd with hd | hd
    · obtain ⟨hkind, hsingle⟩ := kind_of_mem_singles hd
      exact ⟨hkind ▸ hk c List.mem_cons_self, hsingle⟩
    · exact ih (fun c hc => hk c (List.mem_cons_of_mem _ hc)) d hd

/-! ## A call is its single calls -/

theorem burst_eq_afterAll (m : Machine) (executed limit : Nat) :
    (Board.burst m executed limit).1 =
      m.afterAll (List.replicate (m.stepsMade limit) .step) := by
  induction limit generalizing m executed with
  | zero => rfl
  | succ limit ih =>
    rcases hm : m.step with ⟨next, result⟩
    rw [Board.burst, stepsMade, Board.step_machine, hm]
    cases result with
    | ok => simpa [List.replicate_succ, after_step, hm] using ih next (executed + 1)
    | waiting => simp [after_step, hm]
    | fault => simp [after_step, hm]

theorem stepsOnto_eq_afterAll (m : Machine) (results : List StepResult) (n : Nat) :
    (Board.stepsOnto results m n).1 = m.afterAll (List.replicate n .step) := by
  induction n generalizing m results with
  | zero => rfl
  | succ n ih => exact ih (m.after .step) _

theorem ticks_eq_afterAll (m : Machine) (n : Nat) :
    (Board.ticks m n).1 = m.afterAll (List.replicate n .tick) := by
  induction n generalizing m with
  | zero => rfl
  | succ n ih => exact ih (m.after .tick)

theorem after_eq_afterAll_singles (m : Machine) (c : Call) :
    m.after c = m.afterAll (c.singles m) := by
  cases c
  case steps n => exact stepsOnto_eq_afterAll m [] n
  case run n => exact burst_eq_afterAll m 0 n.toNat
  case ticks n => exact ticks_eq_afterAll m n
  all_goals rfl

/-- A history leads to where its single calls lead. -/
theorem afterAll_unroll (m : Machine) (cs : List Call) : m.afterAll (m.unroll cs) = m.afterAll cs := by
  induction cs generalizing m with
  | nil => rfl
  | cons c cs ih =>
    rw [unroll, afterAll_append, ← after_eq_afterAll_singles, ih, afterAll_cons]

/-- The machine after the first `j` single calls of a history. -/
def passed (m : Machine) (cs : List Call) (j : Nat) : Machine := m.afterAll ((m.unroll cs).take j)

/-- From one passed state to the next there is one single call, unless the history is over. -/
theorem passed_succ (m : Machine) (cs : List Call) (j : Nat) :
    m.passed cs (j + 1) = m.passed cs j ∨
      ∃ c, (m.unroll cs)[j]? = some c ∧ m.passed cs (j + 1) = (m.passed cs j).after c := by
  have split : m.passed cs (j + 1) = (m.passed cs j).afterAll (m.unroll cs)[j]?.toList := by
    rw [passed, List.take_add_one, afterAll_append, passed]
  cases hc : (m.unroll cs)[j]? with
  | none => rw [hc] at split; exact .inl split
  | some c => rw [hc] at split; exact .inr ⟨c, rfl, split⟩

theorem afterAll_keeps_of_mem {P : Machine → Prop} {cs : List Call}
    (keeps : ∀ c ∈ cs, ∀ m, P m → P (m.after c)) (h : P m) : P (m.afterAll cs) := by
  induction cs generalizing m with
  | nil => exact h
  | cons c cs ih =>
    have hm : P (m.after c) := keeps c List.mem_cons_self m h
    exact ih (fun d hd => keeps d (List.mem_cons_of_mem _ hd)) hm

/-- A property that the single calls of some kinds keep is kept by every history of such calls. -/
theorem afterAll_keeps {P : Machine → Prop} {K : Call.Kind → Prop}
    (keeps : ∀ m c, c.single = true → K c.kind → P m → P (m.after c)) {cs : List Call}
    (hk : ∀ c ∈ cs, K c.kind) (h : P m) : P (m.afterAll cs) := by
  rw [← afterAll_unroll]
  refine afterAll_keeps_of_mem (fun d hd n hn => ?_) h
  obtain ⟨hkind, hsingle⟩ := kind_of_mem_unroll hk d hd
  exact keeps n d hsingle hkind hn

/-! ## Loading a program -/

/-- The machine as it is after a reset but for the program. -/
def loaded (m : Machine) (data : List Byte) : Machine :=
  { m.reset with
    memory := Memory.fresh.write (BitVec.ofNat 12 Memory.programStart) data
    programSize := data.length }

theorem load_of_fits {data : List Byte} (fits : data.length ≤ 3584) :
    m.load data = .ok (m.loaded data) := by
  have hfits : ¬ data.length > Memory.programCapacity := Nat.not_lt.mpr fits
  rw [load, if_neg hfits]
  rfl

theorem load_of_too_large {data : List Byte} (large : 3584 < data.length) :
    m.load data = .error (.imageTooLarge data.length 3584) := by
  have hlarge : data.length > Memory.programCapacity := large
  rw [load, if_pos hlarge]
  rfl

theorem perform_load_of_fits {data : List Byte} (fits : data.length ≤ 3584) :
    Board.perform m (.load data) = (m.loaded data, .ok .done) := by
  rw [perform_load, load_of_fits fits]

theorem perform_load_of_too_large {data : List Byte} (large : 3584 < data.length) :
    Board.perform m (.load data) = (m, .error (.imageTooLarge data.length 3584)) := by
  rw [perform_load, load_of_too_large large]

theorem restart_cases {c : Call} (restarts : c.kind = .restart) :
    c = .reset ∨ ∃ data, c = .load data := by
  cases c <;> try cases restarts
  case reset => exact .inl rfl
  case load data => exact .inr ⟨data, rfl⟩

/-! ## The calls that drive a machine -/

/-- What a single call that drives a machine leads to if it is not a step. -/
inductive Beside (m : Machine) : Machine → Prop
  | tick : Beside m m.tick
  | press (k : Nibble) : Beside m (m.press k)
  | release (k : Nibble) : Beside m (m.release k)
  | look : Beside m m.look.1
  /-- A question, or a key that does not exist. -/
  | idle : Beside m m

theorem withKey_of_ok {k : Int} {n : Nibble} (h : Keypad.key k = .ok n)
    (act : Machine → Nibble → Machine) : (Board.withKey m k act).1 = act m n := by
  rw [Board.withKey, h]

theorem beside_withKey {act : Machine → Nibble → Machine} (hact : ∀ n, Beside m (act m n))
    (k : Int) : Beside m (Board.withKey m k act).1 := by
  cases hk : Keypad.key k with
  | ok n =>
    rw [withKey_of_ok hk]
    exact hact n
  | error e =>
    rw [Board.withKey, hk]
    exact .idle

theorem beside_after {c : Call} (single : c.single = true) (drives : c.kind = .drive)
    (other : c ≠ .step) : Beside m (m.after c) := by
  cases c <;> try cases drives
  case step => exact absurd rfl other
  case tick =>
    rw [after_tick]
    exact .tick
  case look => exact .look
  case press k =>
    rw [after, perform_press]
    exact beside_withKey Beside.press k
  case release k => exact beside_withKey Beside.release k
  case steps n => cases single
  case run n => cases single
  case ticks n => cases single
  all_goals exact .idle

/-- Only a step changes a register. -/
theorem Beside.registers {n : Machine} (h : Beside m n) : n.registers = m.registers := by
  cases h with
  | _ => rfl

/-- A single call that drives a machine is a step or leads beside it. -/
theorem after_cases {c : Call} (single : c.single = true) (drives : c.kind = .drive) :
    c = .step ∨ Beside m (m.after c) := by
  by_cases step : c = .step
  · exact .inl step
  · exact .inr (beside_after single drives step)

end Machine

end ChipEight
