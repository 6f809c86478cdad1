import ChipEight.Proofs.Footprint

/-! # Random bytes

The random bytes of a machine are one stream, fixed by the seed of its source. Only the instruction
`Cxkk` reads it, one byte each time, and neither a reset nor a new program goes back to its beginning:
the source of a machine always stands behind the bytes that were drawn since it was switched on
(`random_afterAll`). -/
namespace ChipEight

namespace Generator

/-- The generator after it has given `n` bytes. -/
def skip (g : Generator) : (n : Nat) → Generator
  | 0 => g
  | n + 1 => (g.skip n).byte.2

/-- The bytes that a generator gives, from number 0 on. -/
def stream (g : Generator) (n : Nat) : Byte := (g.skip n).byte.1

theorem skip_add (g : Generator) (m n : Nat) : g.skip (m + n) = (g.skip m).skip n := by
  induction n with
  | zero => rfl
  | succ n ih => rw [← Nat.add_assoc, skip, skip, ih]

theorem stream_skip (g : Generator) (m n : Nat) : (g.skip m).stream n = g.stream (m + n) := by
  rw [stream, stream, skip_add]

end Generator

/-- The words of class C draw a random byte. -/
theorem Instruction.decode_of_classC {w : Word} (opClass : w.opClass = 0xC) :
    decode w = random w.x w.kk :=
  decode_of_encodes rfl ⟨opClass, rfl, rfl⟩

namespace Machine

variable {m : Machine}

/-- Whether the next step draws a random byte. -/
def atRandom (m : Machine) : Bool := m.mode = .running && m.fetch.opClass = 0xC

theorem atRandom_iff : m.atRandom = true ↔ m.mode = .running ∧ m.fetch.opClass = 0xC := by
  simp only [atRandom, Bool.and_eq_true, decide_eq_true_eq]

/-- The machine that has put a random byte into a register. -/
def randomized (m : Machine) : Machine :=
  { m with
    random := m.random.skip 1
    registers := (m.registers.set m.fetch.x (m.random.stream 0 &&& m.fetch.kk)).advance 2
    executed := m.executed + 1 }

theorem step_of_atRandom (draws : m.atRandom = true) : m.step = (m.randomized, .ok) := by
  obtain ⟨running, opClass⟩ := atRandom_iff.mp draws
  have fetched := Instruction.decode_of_classC opClass
  rw [step_of_simple running (by rw [fetched]; rfl)]
  -- the generator must not be unfolded
  simp only [proceed, fetched, Instruction.execute, complete, Advance.amount, randomized,
    Generator.skip, Generator.stream]

/-- A step that executes no `Cxkk` leaves the source alone. -/
theorem step_random (other : m.atRandom = false) : m.step.1.random = m.random := by
  refine Classical.byContradiction fun changed => ?_
  have touched : m.mode = .running ∧ m.fetch.opClass = 0xC :=
    Worked.step (p := fun m => m.random)
      ⟨fun _ _ => rfl, fun _ _ _ => rfl, fun _ _ => rfl⟩ Instruction.execute_random changed
  rw [atRandom_iff.mpr touched] at other
  cases other

theorem Beside.random {n : Machine} (h : Beside m n) : n.random = m.random := by
  cases h with
  | _ => rfl

theorem restart_random {c : Call} (restarts : c.kind = .restart) :
    (m.after c).random = m.random := by
  obtain rfl | ⟨data, rfl⟩ := restart_cases restarts
  · rfl
  · by_cases fits : data.length ≤ 3584
    · rw [after, perform_load_of_fits fits]
      rfl
    · rw [after, perform_load_of_too_large (Nat.lt_of_not_le fits)]

theorem after_random {c : Call} (single : c.single = true)
    (other : ¬ (c = .step ∧ m.atRandom = true)) : (m.after c).random = m.random := by
  cases kind : c.kind with
  | drive =>
    rcases after_cases (m := m) single kind with rfl | beside
    · have quiet : m.atRandom = false := by simpa using other
      rw [after_step]
      exact step_random quiet
    · exact beside.random
  | restart => exact restart_random kind
  | patch =>
    cases c <;> try cases kind
    all_goals rfl

/-- The number of random bytes that single calls one after another draw. -/
def drawn (m : Machine) : List Call → Nat
  | [] => 0
  | c :: cs => (if c = .step ∧ m.atRandom = true then 1 else 0) + (m.after c).drawn cs

theorem random_after {c : Call} (single : c.single = true) :
    (m.after c).random = m.random.skip (if c = .step ∧ m.atRandom = true then 1 else 0) := by
  by_cases draws : c = .step ∧ m.atRandom = true
  · rw [if_pos draws, draws.1, after_step, step_of_atRandom draws.2]
    rfl
  · rw [if_neg draws]
    exact after_random single draws

theorem random_afterAll {cs : List Call} (single : ∀ c ∈ cs, c.single = true) :
    (m.afterAll cs).random = m.random.skip (m.drawn cs) := by
  induction cs generalizing m with
  | nil => rfl
  | cons c cs ih =>
    have others : ∀ d ∈ cs, d.single = true := fun d h => single d (List.mem_cons_of_mem c h)
    rw [afterAll_cons, ih others, random_after (single c List.mem_cons_self), drawn,
      Generator.skip_add]

/-- **Random bytes come from one stream.** Before each single call of a history the source of the
machine has given as many bytes as `Cxkk` instructions were executed, whatever else was called. The
next one to be executed puts the next byte of the stream, masked, into its register, and changes
nothing else but the program counter and the count; every other call leaves the source alone. So what
is drawn depends on the seed and on the number of bytes drawn before, and on nothing else. -/
theorem random_bytes_of_one_stream (seed : Int) :
    let g : Generator := Generator.ofSeed seed
    let m : Machine := fresh g
    (∀ (cs : List Call) (j : Nat),
      let s := m.passed cs j
      let before := m.drawn ((m.unroll cs).take j)
      s.random = g.skip before ∧
      ((m.unroll cs)[j]? = some .step → s.atRandom = true →
        s.answer .step = .ok (.result .ok) ∧
        (s.after .step).registers.get s.fetch.x = g.stream before &&& s.fetch.kk ∧
        s.after .step =
          { s with
            random := g.skip (before + 1)
            registers := (s.registers.set s.fetch.x (g.stream before &&& s.fetch.kk)).advance 2
            executed := s.executed + 1 }) ∧
      ∀ c, (m.unroll cs)[j]? = some c → ¬ (c = .step ∧ s.atRandom = true) →
        (s.after c).random = s.random) ∧
    ∀ (cs ds : List Call) (i j : Nat),
      m.drawn ((m.unroll cs).take i) = m.drawn ((m.unroll ds).take j) →
        (m.passed cs i).random = (m.passed ds j).random := by
  intro g m
  have single (cs : List Call) : ∀ c ∈ m.unroll cs, c.single = true := fun c mem =>
    (kind_of_mem_unroll (K := fun _ => True) (fun _ _ => trivial) c mem).2
  have position (cs : List Call) (j : Nat) :
      (m.passed cs j).random = g.skip (m.drawn ((m.unroll cs).take j)) :=
    random_afterAll fun c mem => single cs c (List.mem_of_mem_take mem)
  refine ⟨fun cs j => ?_, fun cs ds i j same => ?_⟩
  · intro s before
    have source : s.random = g.skip before := position cs j
    refine ⟨source, fun _ draws => ?_, fun c found other => ?_⟩
    · have next : s.random.skip 1 = g.skip (before + 1) := by rw [source, Generator.skip_add]
      have byte : s.random.stream 0 = g.stream before := by
        rw [source, Generator.stream_skip, Nat.add_zero]
      have step := step_of_atRandom draws
      rw [randomized, next, byte] at step
      rw [answer_step, after_step, step]
      exact ⟨rfl, Table.get_set_self _ _ _, rfl⟩
    · exact after_random (single cs c (List.mem_of_getElem? found)) other
  · rw [position, position, same]

/-- The second byte of the stream is drawn after a wait, a fault, a reset and two more programs. -/
theorem random_bytes_across_programs :
    let m := fresh (Generator.ofSeed 7)
    let cs : List Call := [.load [0xC0, 0xFF], .step, .tick, .load [0xF0, 0x0A], .run 2, .press 3,
      .reset, .load [0x00, 0xEE], .step, .load [0xCF, 0x0F], .steps 1]
    let s := m.passed cs 10
    m.drawn ((m.unroll cs).take 10) = 1 ∧ (m.unroll cs)[10]? = some .step ∧ s.atRandom = true ∧
      (s.after .step).registers.get 0xF = (Generator.ofSeed 7).stream 1 &&& 0x0F := by
  intro m cs s
  obtain ⟨before, next, draws, x, kk⟩ : m.drawn ((m.unroll cs).take 10) = 1 ∧
      (m.unroll cs)[10]? = some .step ∧ s.atRandom = true ∧ s.fetch.x = 0xF ∧ s.fetch.kk = 0x0F := by
    decide +kernel
  obtain ⟨-, drawn, -⟩ := (random_bytes_of_one_stream 7).1 cs 10
  obtain ⟨-, register, -⟩ := drawn next draws
  rw [before, show (m.passed cs 10).fetch.x = 0xF from x,
    show (m.passed cs 10).fetch.kk = 0x0F from kk] at register
  exact ⟨before, next, draws, register⟩

end Machine

end ChipEight
