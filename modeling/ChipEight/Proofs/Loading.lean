import ChipEight.Emulator.Call
import ChipEight.Proofs.ByteMap
import ChipEight.Proofs.Host

/-! # Loads that fail

A program is tested three times: as a file when it is read, as a program when the machine takes it, and
as an image when memory copies it, and in front of the last test the machine has been reset.
`Machine.loadInPlace` and `Emulator.loadRomInPlace` go through these stages one after the other, and a
stage that fails leaves what the stages before it have done. The tests agree on the limit, so only those in
front of every change can fail, and a history is the same with its failed loads and without them. -/
namespace ChipEight

variable {data : List Byte}

/-! ## The three tests -/

/-- Why the program file at a path is refused. -/
inductive Rom.Refused (path : String) : Entry → Refusal → Prop
  | missing : Refused path .missing (.fileMissing path)
  | nameTooLong : Refused path .nameTooLong (.nameTooLong (Path.ofString path).text)
  | forbidden : Refused path .forbidden (.pathForbidden (Path.ofString path).text)
  | directory : Refused path .directory (.fileUnreadable path)
  | unreadable : Refused path .unreadable (.fileUnreadable path)
  | empty : Refused path (.file []) (.fileEmpty path)
  | tooLarge {data : List Byte} (large : 3584 < data.length) :
      Refused path (.file data) (.imageTooLarge data.length 3584)

theorem Rom.ofEntry_file (path : String)
    (fits : 0 < data.length ∧ data.length ≤ Memory.programCapacity) :
    Rom.ofEntry path (.file data) = .ok ⟨Path.ofString path, data, fits⟩ := by
  rw [Rom.ofEntry, dif_pos fits]

theorem Rom.ofEntry_eq_ok {path : String} {found : Entry} {rom : Rom}
    (accepted : Rom.ofEntry path found = .ok rom) :
    found = .file rom.data ∧ rom.path = Path.ofString path := by
  cases found with
  | missing => cases accepted
  | nameTooLong => cases accepted
  | forbidden => cases accepted
  | directory => cases accepted
  | unreadable => cases accepted
  | file data =>
    by_cases fits : 0 < data.length ∧ data.length ≤ Memory.programCapacity
    · rw [Rom.ofEntry_file path fits] at accepted
      cases accepted
      exact ⟨rfl, rfl⟩
    · rw [Rom.ofEntry, dif_neg fits] at accepted
      cases empty : data.isEmpty <;> simp [empty] at accepted

theorem Rom.Refused.ofEntry {path : String} {found : Entry} {refusal : Refusal}
    (refused : Rom.Refused path found refusal) : Rom.ofEntry path found = .error refusal := by
  cases refused with
  | missing => rfl
  | nameTooLong => rfl
  | forbidden => rfl
  | directory => rfl
  | unreadable => rfl
  | empty => rfl
  | @tooLarge data large =>
    have unfit : ¬ (0 < data.length ∧ data.length ≤ Memory.programCapacity) :=
      fun fits => Nat.not_le.mpr large fits.2
    have full : data.isEmpty = false := by
      rw [List.isEmpty_eq_false_iff, ← List.length_pos_iff]
      exact Nat.lt_of_le_of_lt (Nat.zero_le 3584) large
    rw [Rom.ofEntry, dif_neg unfit, full]
    rfl

theorem Rom.refused_or_accepted (path : String) (found : Entry) :
    (∃ refusal, Rom.Refused path found refusal) ∨ ∃ rom, Rom.ofEntry path found = .ok rom := by
  cases found with
  | missing => exact .inl ⟨_, .missing⟩
  | nameTooLong => exact .inl ⟨_, .nameTooLong⟩
  | forbidden => exact .inl ⟨_, .forbidden⟩
  | directory => exact .inl ⟨_, .directory⟩
  | unreadable => exact .inl ⟨_, .unreadable⟩
  | file data =>
    rcases Nat.eq_zero_or_pos data.length with none | some
    · rw [List.length_eq_zero_iff.mp none]
      exact .inl ⟨_, .empty⟩
    · rcases Nat.lt_or_ge 3584 data.length with large | fits
      · exact .inl ⟨_, .tooLarge large⟩
      · exact .inr ⟨_, Rom.ofEntry_file path ⟨some, fits⟩⟩

/-- Memory has room for every program that the machine takes. -/
theorem Memory.load_of_fits (memory : Memory) (fits : data.length ≤ 3584) :
    memory.load data Memory.programStart =
      .ok (memory.write (BitVec.ofNat 12 Memory.programStart) data) := by
  have room : (data.length : Int) ≤ 4096 - (Memory.programStart : Int) := by
    have capacity : 4096 - (Memory.programStart : Int) = 3584 := rfl
    omega
  rw [memory.load_of_room room, BitVec.ofInt_natCast]

/-! ## The machine -/

namespace Machine

variable {m : Machine}

/-- The stages of a load. -/
def loadInPlace (m : Machine) (data : List Byte) : Machine × Except Refusal Answer :=
  if data.length > Memory.programCapacity then
    (m, .error (.imageTooLarge data.length Memory.programCapacity))
  else
    let m := m.reset
    match m.memory.load data Memory.programStart with
    -- here the program of before would be lost
    | .error refusal => (m, .error refusal)
    | .ok memory => ({ m with memory, programSize := data.length }, .ok .done)

theorem loadInPlace_of_too_large (large : 3584 < data.length) :
    m.loadInPlace data = (m, .error (.imageTooLarge data.length 3584)) := by
  rw [loadInPlace, if_pos (show data.length > Memory.programCapacity from large)]
  rfl

theorem loadInPlace_of_fits (fits : data.length ≤ 3584) :
    m.loadInPlace data = (m.loaded data, .ok .done) := by
  have taken : ¬ data.length > Memory.programCapacity := Nat.not_lt.mpr fits
  simp only [loadInPlace, if_neg taken, Memory.load_of_fits _ fits]
  rfl

theorem perform_load_inPlace (m : Machine) (data : List Byte) :
    Board.perform m (.load data) = m.loadInPlace data := by
  rcases Nat.lt_or_ge 3584 data.length with large | fits
  · rw [perform_load_of_too_large large, loadInPlace_of_too_large large]
  · rw [perform_load_of_fits fits, loadInPlace_of_fits fits]

theorem loadInPlace_refuses {refusal : Refusal} : (m.loadInPlace data).2 = .error refusal ↔
    3584 < data.length ∧ refusal = .imageTooLarge data.length 3584 := by
  rcases Nat.lt_or_ge 3584 data.length with large | fits
  · rw [loadInPlace_of_too_large large]
    refine ⟨fun refused => ⟨large, (Except.error.inj refused).symm⟩, fun ⟨_, why⟩ => ?_⟩
    rw [why]
  · rw [loadInPlace_of_fits fits]
    exact ⟨nofun, fun ⟨large, _⟩ => absurd large (Nat.not_lt.mpr fits)⟩

end Machine

theorem Board.load_of_too_large {σ : Type} [Board σ] (b : σ) (large : 3584 < data.length) :
    Board.load b data = .error (.imageTooLarge data.length 3584) := by
  rw [Board.load_eq, Machine.load_of_too_large large]
  rfl

/-! ## The emulator -/

namespace Emulator

variable {e : Emulator} {path : String} {found : Entry}

/-- The stages of loading the program file at a path. -/
def loadRomInPlace (e : Emulator) (path : String) (found : Entry) :
    Emulator × Except Refusal Answer :=
  match Rom.ofEntry path found with
  | .error refusal => (e, .error refusal)
  | .ok rom =>
    let e := e.note (.romRead rom.path.name rom.size)
    match e.machine.loadInPlace rom.data with
    -- here the file would be read, and the machine as its own load left it
    | (m, .error refusal) => ({ e with monitor := Board.update e.monitor m [] }, .error refusal)
    | (m, .ok answer) =>
      let monitor := Board.update e.monitor m (Machine.loadEvents rom.size)
      let e := rearm { e with monitor, rom := some rom }
      (e.note (.romLoaded rom.title rom.size rom.entry), .ok answer)

theorem loadRomInPlace_of_refused {refusal : Refusal} (refused : Rom.Refused path found refusal) :
    e.loadRomInPlace path found = (e, .error refusal) := by
  simp only [loadRomInPlace, refused.ofEntry]

theorem loadRomInPlace_of_accepted {rom : Rom} (accepted : Rom.ofEntry path found = .ok rom) :
    ∃ e', e.insert rom = .ok e' ∧ e.loadRomInPlace path found = (e', .ok .done) := by
  have fits := rom.fits.2
  rw [insert, Board.load_loaded _ fits]
  simp only [loadRomInPlace, accepted, Machine.loadInPlace_of_fits fits]
  exact ⟨_, rfl, rfl⟩

theorem perform_loadRom (e : Emulator) (path : String) (found : Entry) :
    e.perform (.loadRom path found) = e.loadRomInPlace path found := by
  rcases Rom.refused_or_accepted path found with ⟨refusal, refused⟩ | ⟨rom, accepted⟩
  · rw [loadRomInPlace_of_refused refused]
    simp only [perform, loadRom, refused.ofEntry]
  · obtain ⟨e', inserted, loaded⟩ := loadRomInPlace_of_accepted (e := e) accepted
    rw [loaded]
    simp only [perform, loadRom, accepted, inserted]

theorem loadRomInPlace_refuses {refusal : Refusal} :
    (e.loadRomInPlace path found).2 = .error refusal ↔ Rom.Refused path found refusal := by
  refine ⟨fun failed => ?_, fun refused => by rw [loadRomInPlace_of_refused refused]⟩
  rcases Rom.refused_or_accepted path found with ⟨why, refused⟩ | ⟨rom, accepted⟩
  · rw [loadRomInPlace_of_refused refused] at failed
    obtain rfl : why = refusal := Except.error.inj failed
    exact refused
  · obtain ⟨e', -, loaded⟩ := loadRomInPlace_of_accepted (e := e) accepted
    rw [loaded] at failed
    cases failed

/-! ## Histories -/

/-- The emulator after a call. -/
def after (e : Emulator) (c : Call) : Emulator := (e.perform c).1

/-- The emulator after a history of calls. -/
def afterAll (e : Emulator) (cs : List Call) : Emulator := cs.foldl after e

/-- The calls of a history, each with its answer. -/
def exchanges (e : Emulator) : List Call → List (Call × Except Refusal Answer)
  | [] => []
  | c :: cs => (c, (e.perform c).2) :: (e.after c).exchanges cs

/-- Whether an exchange is a load that was refused. -/
def failedLoad : Call × Except Refusal Answer → Bool
  | (.loadRom _ _, .error _) | (.machine (.load _), .error _) => true
  | _ => false

/-- The calls of a history without the loads that are refused. -/
def withoutFailed (e : Emulator) (cs : List Call) : List Call :=
  ((e.exchanges cs).filter fun x => !failedLoad x).map Prod.fst

/-- A load that is refused leaves the emulator as it is. -/
theorem after_failedLoad {c : Call} (failed : failedLoad (c, (e.perform c).2) = true) :
    e.after c = e := by
  cases c with
  | loadRom path found =>
    rw [perform_loadRom] at failed
    rw [after, perform_loadRom]
    rcases Rom.refused_or_accepted path found with ⟨refusal, refused⟩ | ⟨rom, accepted⟩
    · rw [loadRomInPlace_of_refused refused]
    · obtain ⟨e', -, loaded⟩ := loadRomInPlace_of_accepted (e := e) accepted
      rw [loaded] at failed
      cases failed
  | machine c =>
    cases c with
    | load data =>
      rcases Nat.lt_or_ge 3584 data.length with large | fits
      · simp only [after, perform, Board.perform, Board.load_of_too_large _ large]
      · simp only [perform, Board.perform, Board.load_loaded _ fits] at failed
        cases failed
    | _ => cases failed
  | _ => cases failed

theorem withoutFailed_leads (e : Emulator) (cs : List Call) :
    e.afterAll (e.withoutFailed cs) = e.afterAll cs ∧
      e.exchanges (e.withoutFailed cs) = (e.exchanges cs).filter fun x => !failedLoad x := by
  induction cs generalizing e with
  | nil => exact ⟨rfl, rfl⟩
  | cons c cs ih =>
    obtain ⟨leads, answers⟩ := ih (e.after c)
    cases failed : failedLoad (c, (e.perform c).2) with
    | true =>
      have same := after_failedLoad failed
      have dropped : e.withoutFailed (c :: cs) = (e.after c).withoutFailed cs := by
        simp [withoutFailed, exchanges, failed]
      rw [same] at leads answers dropped
      rw [dropped, exchanges, List.filter_cons_of_neg (by simp [failed]), same]
      exact ⟨leads.trans (by rw [afterAll, afterAll, List.foldl_cons, same]), answers⟩
    | false =>
      have kept : e.withoutFailed (c :: cs) = c :: (e.after c).withoutFailed cs := by
        simp [withoutFailed, exchanges, failed]
      rw [kept, exchanges, exchanges, List.filter_cons_of_pos (by simp [failed]), answers]
      exact ⟨leads, rfl⟩

/-- **A failed load changes nothing.** A machine refuses a program exactly if it is longer than 3584
bytes, and an emulator refuses a program file exactly if it is missing, cannot be read, is empty or is too
long. Neither has been touched by then, although no stage of a load undoes what another has done. A file
that passes its tests is always loaded. A history with failed loads leads to where it leads without them,
and every other call of it is answered alike. -/
theorem failed_load_changes_nothing :
    (∀ (m : Machine) (data : List Byte),
      Board.perform m (.load data) = m.loadInPlace data ∧
      (∀ refusal, (m.loadInPlace data).2 = .error refusal ↔
        3584 < data.length ∧ refusal = .imageTooLarge data.length 3584) ∧
      (3584 < data.length → (m.loadInPlace data).1 = m)) ∧
    (∀ (e : Emulator) (path : String) (found : Entry),
      e.perform (.loadRom path found) = e.loadRomInPlace path found ∧
      (∀ refusal, (e.loadRomInPlace path found).2 = .error refusal ↔
        Rom.Refused path found refusal) ∧
      ∀ refusal, Rom.Refused path found refusal → (e.loadRomInPlace path found).1 = e) ∧
    (∀ path found rom, Rom.ofEntry path found = .ok rom →
      (∀ m : Machine, (m.loadInPlace rom.data).2 = .ok .done) ∧
        ∀ e : Emulator, (e.loadRomInPlace path found).2 = .ok .done) ∧
    ∀ (e : Emulator) (cs : List Call),
      e.afterAll (e.withoutFailed cs) = e.afterAll cs ∧
        e.exchanges (e.withoutFailed cs) = (e.exchanges cs).filter fun x => !failedLoad x := by
  refine ⟨fun m data => ⟨m.perform_load_inPlace data, fun refusal => ?_, fun large => ?_⟩,
    fun e path found => ⟨e.perform_loadRom path found, fun refusal => ?_, fun refusal refused => ?_⟩,
    fun path found rom accepted => ⟨fun m => ?_, fun e => ?_⟩, withoutFailed_leads⟩
  · exact Machine.loadInPlace_refuses
  · rw [Machine.loadInPlace_of_too_large large]
  · exact loadRomInPlace_refuses
  · rw [loadRomInPlace_of_refused refused]
  · rw [Machine.loadInPlace_of_fits rom.fits.2]
  · obtain ⟨e', -, loaded⟩ := loadRomInPlace_of_accepted (e := e) accepted
    rw [loaded]

/-- While its machine holds a key for a wait, an emulator is given files that are missing, empty or too
long, and its machine a program that is too long. Then it runs on. -/
theorem failed_loads_during_wait :
    let wait : List Byte := [0xF3, 0x0A, 0x12, 0x02]
    let large : List Byte := List.replicate 3585 0
    let later : List Call := [.machine .step, .restart, .run 2]
    let failing : List Call := [.loadRom "b.ch8" .missing, .loadRom "c.ch8" (.file []),
      .machine .step, .loadRom "d.ch8" (.file large), .machine (.load large), .restart, .run 2]
    ∃ e rom, create {} (some ("a.ch8", .file wait)) = .ok e ∧
      Rom.ofEntry "a.ch8" (.file wait) = .ok rom ∧
      let e := e.afterAll [.machine .step, .machine (.press 7), .machine (.setSound 9)]
      e.machine.isWaiting = true ∧ e.machine.keypad.latch = .holding 7 ∧
        3584 < large.length ∧ (e.machine.loadInPlace large).1 = e.machine ∧
        Rom.Refused "c.ch8" (.file []) (.fileEmpty "c.ch8") ∧
        (e.loadRomInPlace "c.ch8" (.file [])).1 = e ∧
        (e.machine.loadInPlace rom.data).2 = .ok .done ∧
        e.withoutFailed failing = later ∧ e.afterAll later = e.afterAll failing := by
  intro wait large later failing
  obtain ⟨machines, files, accepted, histories⟩ := failed_load_changes_nothing
  refine ⟨_, _, rfl, rfl, ?_⟩
  intro e
  obtain ⟨waits, holds, kept⟩ : e.machine.isWaiting = true ∧ e.machine.keypad.latch = .holding 7 ∧
      e.withoutFailed failing = later := by
    decide +kernel
  have long : 3584 < large.length := by decide +kernel
  have loaded := (accepted "a.ch8" (.file wait) _ rfl).1 e.machine
  obtain ⟨leads, -⟩ := histories e failing
  rw [kept] at leads
  exact ⟨waits, holds, long, (machines e.machine large).2.2 long, .empty,
    (files e "c.ch8" (.file [])).2.2 _ .empty, loaded, kept, leads⟩

end Emulator

end ChipEight
