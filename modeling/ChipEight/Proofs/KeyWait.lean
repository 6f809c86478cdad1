import Mathlib.Data.List.Induction
import ChipEight.Proofs.History
import ChipEight.Proofs.Step

/-! # Waiting for a key

From the step that begins a wait the machine does nothing until a key goes down, and the first key
that does is the one that the next step puts into the register, whatever happens in between
(`Suspended`). Conversely (`held_since`) a key that a step takes went down after the step that
began this very wait, as the first one. -/
namespace ChipEight
namespace Machine

/-- What happens to a machine between two looks at it. -/
inductive Move
  | step
  | tick
  | press (k : Nibble)
  | release (k : Nibble)
deriving DecidableEq

namespace Move

/-- The call that makes a move. -/
def call : Move → Call
  | step => .step
  | tick => .tick
  | press k => .press k.toNat
  | release k => .release k.toNat

def isStep : Move → Bool
  | step => true
  | _ => false

def isPress : Move → Bool
  | press _ => true
  | _ => false

end Move

/-- The machine after moves made one after another. -/
def afterMoves (m : Machine) (es : List Move) : Machine := m.afterAll (es.map Move.call)

/-- A running machine stands at the instruction `Fx0A`. -/
structure AtWait (m : Machine) (x : Nibble) : Prop where
  running : m.mode = .running
  opClass : m.fetch.opClass = 0xF
  kk : m.fetch.kk = 0x0A
  x : m.fetch.x = x

/-- The machine `w` waits for a key for `Vx`, and is otherwise as `m` was. -/
structure Suspended (m : Machine) (x : Nibble) (w : Machine) : Prop where
  mode : w.mode = .awaiting x
  registers : w.registers = m.registers
  memory : w.memory = m.memory
  display : w.display = m.display
  random : w.random = m.random

variable {m w : Machine} {x y k : Nibble} {e : Move}

theorem after_press_move (m : Machine) (k : Nibble) : m.after (Move.press k).call = m.press k := by
  rw [after, Move.call, perform_press]
  exact withKey_of_ok (Keypad.key_of_nibble k) Machine.press

theorem after_release_move (m : Machine) (k : Nibble) :
    m.after (Move.release k).call = m.release k := by
  exact withKey_of_ok (Keypad.key_of_nibble k) Board.release

theorem afterMoves_append (m : Machine) (es fs : List Move) :
    m.afterMoves (es ++ fs) = (m.afterMoves es).afterMoves fs := by
  rw [afterMoves, List.map_append, afterAll_append]
  rfl

/-- A property that the moves of some kind keep is kept by every history of such moves. -/
theorem afterMoves_keeps {P : Machine → Prop} {K : Move → Prop}
    (keeps : ∀ w e, K e → P w → P (w.after e.call)) {es : List Move} (hk : ∀ e ∈ es, K e)
    (h : P w) : P (w.afterMoves es) := by
  refine afterAll_keeps_of_mem (fun c hc n hn => ?_) h
  obtain ⟨e, he, rfl⟩ := List.mem_map.mp hc
  exact keeps n e (hk e he) hn

theorem AtWait.step (h : m.AtWait x) : m.step = (m.suspend x, .waiting) :=
  step_of_awaitKey h.running (Instruction.decode_eq_awaitKey_iff.mpr ⟨h.opClass, h.kk, h.x⟩)

theorem AtWait.begins (h : m.AtWait x) :
    Suspended m x (m.after .step) ∧ (m.after .step).keypad.latch = .armed := by
  rw [after_step, h.step]
  exact ⟨⟨suspend_mode h.running x, rfl, rfl, rfl, rfl⟩, rfl⟩

/-! ## While the machine waits -/

theorem Suspended.idle (h : Suspended m x w) (other : e.isStep = false) :
    Suspended m x (w.after e.call) := by
  obtain ⟨mode, registers, memory, display, random⟩ := h
  cases e with
  | step => cases other
  | tick => rw [Move.call, after_tick]; exact ⟨mode, registers, memory, display, random⟩
  | press k => rw [after_press_move]; exact ⟨mode, registers, memory, display, random⟩
  | release k => rw [after_release_move]; exact ⟨mode, registers, memory, display, random⟩

/-- Before the first key goes down, nothing ends the wait. -/
theorem Suspended.quiet (h : Suspended m x w) (armed : w.keypad.latch = .armed)
    (other : e.isPress = false) :
    Suspended m x (w.after e.call) ∧ (w.after e.call).keypad.latch = .armed := by
  cases e with
  | step =>
    have same : w.after .step = w := by
      rw [after_step, step_of_empty h.mode fun k hk => by rw [armed] at hk; cases hk]
    rw [Move.call, same]
    exact ⟨h, armed⟩
  | tick => exact ⟨h.idle rfl, armed⟩
  | press k => cases other
  | release k =>
    refine ⟨h.idle rfl, ?_⟩
    rw [after_release_move]
    exact armed

/-- Before the next step, the key that is held stays the one. -/
theorem Suspended.holds (h : Suspended m x w) (held : w.keypad.latch = .holding k)
    (other : e.isStep = false) :
    Suspended m x (w.after e.call) ∧ (w.after e.call).keypad.latch = .holding k := by
  refine ⟨h.idle other, ?_⟩
  cases e with
  | step => cases other
  | tick => exact held
  | press j =>
    rw [after_press_move, Machine.press, Keypad.latch_press, held]
    rfl
  | release j =>
    rw [after_release_move]
    exact held

theorem Suspended.quiet_moves (h : Suspended m x w) (armed : w.keypad.latch = .armed)
    {es : List Move} (others : ∀ e ∈ es, e.isPress = false) :
    Suspended m x (w.afterMoves es) ∧ (w.afterMoves es).keypad.latch = .armed :=
  afterMoves_keeps (P := fun w => Suspended m x w ∧ w.keypad.latch = .armed)
    (fun _ _ other ⟨h, armed⟩ => h.quiet armed other) others ⟨h, armed⟩

theorem Suspended.holds_moves (h : Suspended m x w) (held : w.keypad.latch = .holding k)
    {es : List Move} (others : ∀ e ∈ es, e.isStep = false) :
    Suspended m x (w.afterMoves es) ∧ (w.afterMoves es).keypad.latch = .holding k :=
  afterMoves_keeps (P := fun w => Suspended m x w ∧ w.keypad.latch = .holding k)
    (fun _ _ other ⟨h, held⟩ => h.holds held other) others ⟨h, held⟩

/-- The first key that goes down is held until the next step. -/
theorem Suspended.first_key (h : Suspended m x w) (armed : w.keypad.latch = .armed)
    {quiet between : List Move} (noPress : ∀ e ∈ quiet, e.isPress = false)
    (noStep : ∀ e ∈ between, e.isStep = false) :
    Suspended m x (w.afterMoves (quiet ++ .press k :: between)) ∧
      (w.afterMoves (quiet ++ .press k :: between)).keypad.latch = .holding k := by
  obtain ⟨h', armed'⟩ := h.quiet_moves armed noPress
  have pressed := h'.idle (e := .press k) rfl
  have held : ((w.afterMoves quiet).after (Move.press k).call).keypad.latch = .holding k := by
    rw [after_press_move, Machine.press, Keypad.latch_press, armed']
    rfl
  rw [afterMoves_append]
  exact pressed.holds_moves held noStep

/-! ## Where a held key comes from -/

/-- The last wait for `Vy` began with a step among the moves, and no key has gone down since. -/
def ArmedSince (m : Machine) (y : Nibble) (es : List Move) : Prop :=
  ∃ before quiet, es = before ++ .step :: quiet ∧ (m.afterMoves before).AtWait y ∧
    ∀ e ∈ quiet, e.isPress = false

/-- The last wait for `Vy` began with a step among the moves, `k` is the first key that went down
since, and there was no step after that. -/
def HeldSince (m : Machine) (y k : Nibble) (es : List Move) : Prop :=
  ∃ before quiet between, es = before ++ .step :: (quiet ++ .press k :: between) ∧
    (m.afterMoves before).AtWait y ∧ (∀ e ∈ quiet, e.isPress = false) ∧
    ∀ e ∈ between, e.isStep = false

theorem ArmedSince.start {es : List Move} (h : (m.afterMoves es).AtWait y) :
    m.ArmedSince y (es ++ [.step]) :=
  ⟨es, [], rfl, h, fun _ he => nomatch he⟩

theorem ArmedSince.snoc {es : List Move} (h : m.ArmedSince y es) (other : e.isPress = false) :
    m.ArmedSince y (es ++ [e]) := by
  obtain ⟨before, quiet, rfl, start, noPress⟩ := h
  have noPress' : ∀ d ∈ quiet ++ [e], d.isPress = false :=
    List.forall_mem_append.mpr ⟨noPress, List.forall_mem_singleton.mpr other⟩
  exact ⟨before, quiet ++ [e], by simp, start, noPress'⟩

theorem ArmedSince.press {es : List Move} (h : m.ArmedSince y es) (k : Nibble) :
    m.HeldSince y k (es ++ [.press k]) := by
  obtain ⟨before, quiet, rfl, start, noPress⟩ := h
  exact ⟨before, quiet, [], by simp, start, noPress, fun _ he => nomatch he⟩

theorem HeldSince.snoc {es : List Move} (h : m.HeldSince y k es) (other : e.isStep = false) :
    m.HeldSince y k (es ++ [e]) := by
  obtain ⟨before, quiet, between, rfl, start, noPress, noStep⟩ := h
  have noStep' : ∀ d ∈ between ++ [e], d.isStep = false :=
    List.forall_mem_append.mpr ⟨noStep, List.forall_mem_singleton.mpr other⟩
  exact ⟨before, quiet, between ++ [e], by simp, start, noPress, noStep'⟩

/-- After a step, a machine that waits holds no key: it either stood still without one or has just
begun to wait. -/
theorem step_awaiting (waits : w.step.1.mode = .awaiting y) :
    (w.step.1 = w ∧ ∀ k, w.keypad.latch ≠ .holding k) ∨
      (w.AtWait y ∧ w.step.1.keypad.latch = .armed) := by
  have turn := turn_step w
  generalize w.step = out at turn waits ⊢
  cases turn with
  | halted mode => rw [mode] at waits; cases waits
  | waits mode empty => exact .inl ⟨rfl, empty⟩
  | resumes mode held =>
    rw [resumed_mode mode] at waits
    cases waits
  | faults mode fault => cases waits
  | suspends mode fetched =>
    rw [suspend_mode mode] at waits
    cases waits
    obtain ⟨opClass, kk, x⟩ := Instruction.decode_eq_awaitKey_iff.mp fetched
    exact .inr ⟨⟨mode, opClass, kk, x⟩, rfl⟩
  | executes mode sound fetched =>
    rw [(proceed_suspension fetched).1, mode] at waits
    cases waits

/-- A machine that was running waits only since some step of its own, and holds only the first key
that has gone down since. -/
theorem since_of_awaiting (running : m.mode = .running) (es : List Move) :
    (m.afterMoves es).mode = .awaiting y →
      ((m.afterMoves es).keypad.latch = .armed → m.ArmedSince y es) ∧
      ∀ k, (m.afterMoves es).keypad.latch = .holding k → m.HeldSince y k es := by
  induction es using List.reverseRecOn with
  | nil =>
    intro waits
    have same : m.mode = .awaiting y := waits
    rw [running] at same
    cases same
  | append_singleton es e ih =>
    have last : m.afterMoves (es ++ [e]) = (m.afterMoves es).after e.call := afterMoves_append ..
    rw [last]
    intro waits
    cases e with
    | step =>
      rw [Move.call, after_step] at waits ⊢
      rcases step_awaiting waits with ⟨same, empty⟩ | ⟨start, armed⟩
      · rw [same] at waits ⊢
        exact ⟨fun armed => ((ih waits).1 armed).snoc rfl,
          fun k held => absurd held (empty k)⟩
      · refine ⟨fun _ => .start start, fun k held => ?_⟩
        have both : Latch.armed = .holding k := armed.symm.trans held
        cases both
    | tick =>
      obtain ⟨harmed, hheld⟩ := ih waits
      exact ⟨fun armed => (harmed armed).snoc rfl, fun k held => (hheld k held).snoc rfl⟩
    | press j =>
      rw [after_press_move] at waits ⊢
      obtain ⟨harmed, hheld⟩ := ih waits
      rw [Machine.press, Keypad.latch_press]
      cases latch : (m.afterMoves es).keypad.latch with
      | off =>
        constructor
        · intro h
          cases h
        · intro k h
          cases h
      | armed =>
        constructor
        · intro h
          cases h
        · intro k h
          cases h
          exact (harmed latch).press j
      | holding i =>
        constructor
        · intro h
          cases h
        · intro k h
          cases h
          exact (hheld i latch).snoc rfl
    | release j =>
      rw [after_release_move] at waits ⊢
      obtain ⟨harmed, hheld⟩ := ih waits
      exact ⟨fun armed => (harmed armed).snoc rfl, fun k held => (hheld k held).snoc rfl⟩

/-- A step that ends a wait takes the first key that has gone down since the wait began. -/
theorem held_since (running : m.mode = .running) {es : List Move}
    (waits : (m.afterMoves es).mode = .awaiting y) (ends : (m.afterMoves es).step.2 = .ok) :
    ∃ k, m.HeldSince y k es ∧ (m.afterMoves es).step.1.registers.get y = k.setWidth 8 := by
  have since := (since_of_awaiting running es waits).2
  generalize m.afterMoves es = w at *
  have turn := turn_step w
  generalize w.step = out at turn ends ⊢
  cases turn with
  | halted mode => cases ends
  | waits mode empty => cases ends
  | resumes mode held =>
    rw [waits] at mode
    cases mode
    exact ⟨_, since _ held, Table.get_set_self _ _ _⟩
  | faults mode fault => cases ends
  | suspends mode fetched => cases ends
  | executes mode sound fetched => rw [waits] at mode; cases mode

/-- **A wait for a key takes the first key that goes down after it began.** The step that begins the
wait moves nothing. Before a key goes down further steps change nothing at all. The first step after
one went down ends the wait with that key, whatever else happened meanwhile. And no other key ever
ends a wait, be it this one or a later one. -/
theorem wait_takes_first_key (h : m.AtWait x) :
    (m.answer .step = .ok (.result .waiting) ∧ (m.after .step).isWaiting = true ∧
      (m.after .step).registers = m.registers) ∧
    (∀ quiet : List Move, (∀ e ∈ quiet, e.isPress = false) →
      let w := m.afterMoves (.step :: quiet)
      w.answer .step = .ok (.result .waiting) ∧ w.after .step = w) ∧
    (∀ (quiet : List Move) (k : Nibble) (between : List Move),
      (∀ e ∈ quiet, e.isPress = false) → (∀ e ∈ between, e.isStep = false) →
      let w := m.afterMoves (.step :: (quiet ++ .press k :: between))
      w.answer .step = .ok (.result .ok) ∧
        w.after .step = { w with
          keypad := { w.keypad with armed := false, latched := none }
          registers := (m.registers.set x (k.setWidth 8)).advance 2
          isWaiting := false
          executed := w.executed + 1 } ∧
        w.registers = m.registers ∧ w.memory = m.memory ∧ w.display = m.display ∧
        w.random = m.random) ∧
    (∀ (es : List Move) (y : Nibble), (m.afterMoves es).mode = .awaiting y →
      (m.afterMoves es).answer .step = .ok (.result .ok) →
      ∃ k, m.HeldSince y k es ∧
        ((m.afterMoves es).after .step).registers.get y = k.setWidth 8) := by
  have begun : m.after .step = m.suspend x := after_step_eq h.step
  obtain ⟨suspended, armed⟩ := h.begins
  refine ⟨⟨?_, ?_, suspended.registers⟩, fun quiet noPress => ?_,
    fun quiet k between noPress noStep => ?_, fun es y waits ends => ?_⟩
  · rw [answer_step, h.step]
  · rw [begun]
    rfl
  · intro w
    obtain ⟨still, armed⟩ : Suspended m x w ∧ w.keypad.latch = .armed :=
      suspended.quiet_moves armed noPress
    have idle : w.step = (w, .waiting) :=
      step_of_empty still.mode fun k hk => by rw [armed] at hk; cases hk
    rw [answer_step, after_step, idle]
    exact ⟨rfl, rfl⟩
  · intro w
    obtain ⟨still, held⟩ : Suspended m x w ∧ w.keypad.latch = .holding k :=
      suspended.first_key armed noPress noStep
    have ended : w.step = (w.resumed x k, .ok) := step_of_held still.mode held
    refine ⟨?_, ?_, still.registers, still.memory, still.display, still.random⟩
    · rw [answer_step, ended]
    · rw [after_step, ended, ← still.registers]
      rfl
  · rw [answer_step] at ends
    rw [after_step]
    exact held_since h.running waits (by simpa using ends)

/-- Key 2 is down before the wait begins and comes up during it, key 7 is the first to go down, and
key 3 goes down before the next step. -/
theorem wait_takes_seven :
    let m := (fresh (Generator.ofSeed 0)).afterAll [.load [0xF5, 0x0A, 0xF6, 0x0A], .press 2]
    let quiet : List Move := [.tick, .step, .release 2]
    let between : List Move := [.press 3, .release 7, .tick]
    let w := m.afterMoves (.step :: (quiet ++ .press 7 :: between))
    m.AtWait 5 ∧ (m.afterMoves (.step :: quiet)).answer .step = .ok (.result .waiting) ∧
      w.answer .step = .ok (.result .ok) ∧
      (w.after .step).registers = (m.registers.set 5 7).advance 2 ∧
      ∃ k, m.HeldSince 5 k (.step :: (quiet ++ .press 7 :: between)) ∧
        (w.after .step).registers.get 5 = k.setWidth 8 := by
  intro m quiet between w
  have start : m.AtWait 5 := ⟨by decide +kernel, by decide +kernel, by decide +kernel,
    by decide +kernel⟩
  have noPress : ∀ e ∈ quiet, e.isPress = false := by decide
  have noStep : ∀ e ∈ between, e.isStep = false := by decide
  have waits : w.mode = .awaiting 5 := by decide +kernel
  obtain ⟨-, idle, ended, since⟩ := wait_takes_first_key start
  obtain ⟨answer, after, -⟩ := ended quiet 7 between noPress noStep
  refine ⟨start, (idle quiet noPress).1, answer, ?_, since _ 5 waits answer⟩
  rw [after]
  rfl

end Machine

end ChipEight
