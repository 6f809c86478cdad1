import ChipEight.Proofs.Reports

/-! # The messages of an iteration

Once time has passed, an iteration reports a tone that started or stopped, then a fault that has not
been reported, then perhaps a sign of life. With a window it also looks at the picture.
`reported_settle` says so at once, whatever the window shows: only its content depends on what is
painted. -/
namespace ChipEight

namespace Journal

theorem keeps_congr {j k : Journal} (same : j.threshold = k.threshold) : j.keeps = k.keeps := by
  funext event
  rw [keeps, keeps, same]

theorem record_append (j : Journal) (es fs : List Event) :
    j.record (es ++ fs) = (j.record es).record fs := by
  have same : (j.record es).keeps = j.keeps := rfl
  rw [record, record, same, List.filter_append]
  simp [record, List.reverseAux_eq]

end Journal

namespace Emulator

/-- The message about the tone: there is one if it started or stopped. -/
def toneNews (e : Emulator) : List Event :=
  if e.machine.timers.tone = e.toneOn then [] else [.tone e.machine.timers.tone]

/-- The message about a fault: there is one if a fault is pending and has not been reported. -/
def faultNews (e : Emulator) : List Event :=
  match e.machine.fault with
  | none => []
  | some fault => if e.faultReported then [] else [.machineHalted fault]

/-- The sign of life, if it is asked for and due. -/
def lifeSign (e : Emulator) : List Event :=
  if e.verbose ∧ e.frameCount % targetFps = 0 then [e.heartbeat] else []

/-- All that an iteration reports when time has passed. -/
def messages (e : Emulator) : List Event := e.toneNews ++ e.faultNews ++ e.lifeSign

/-- The machine after an iteration has looked at its picture, if there is a window for it. -/
def seen (e : Emulator) : Machine := if e.window.isSome then e.machine.look.1 else e.machine

section

variable {e : Emulator}

theorem mem_news {event : Event} (mem : event ∈ e.toneNews ++ e.faultNews) :
    (∃ on, event = .tone on) ∨ ∃ fault, event = .machineHalted fault := by
  rcases List.mem_append.mp mem with tone | halted
  · unfold toneNews at tone
    split at tone
    · cases tone
    · exact .inl ⟨_, List.mem_singleton.mp tone⟩
  · unfold faultNews at halted
    split at halted
    · cases halted
    · split at halted
      · cases halted
      · exact .inr ⟨_, List.mem_singleton.mp halted⟩

/-- The messages less the sign of life. -/
theorem filter_messages {p : Event → Bool} (tone : ∀ on, p (.tone on) = true)
    (fault : ∀ fault, p (.machineHalted fault) = true) (sign : p e.heartbeat = false) :
    e.messages.filter p = e.toneNews ++ e.faultNews := by
  have news : (e.toneNews ++ e.faultNews).filter p = e.toneNews ++ e.faultNews := by
    refine List.filter_eq_self.mpr fun event mem => ?_
    rcases mem_news mem with ⟨on, rfl⟩ | ⟨pending, rfl⟩
    · exact tone on
    · exact fault pending
  have none : e.lifeSign.filter p = [] := by
    unfold lifeSign
    split
    · exact List.filter_cons_of_neg (by rw [sign]; exact Bool.false_ne_true)
    · rfl
  rw [messages, List.filter_append, news, none, List.append_nil]

end

/-- What a host reports, and what it knows and has reported of its machine afterwards. -/
structure Reported (e : Emulator) (es : List Event) (m : Machine) (tone fault : Bool)
    (e' : Emulator) : Prop where
  reporting : Reporting e e'
  rom : e'.rom = e.rom
  window : e'.window.isSome = e.window.isSome
  journal : e'.monitor.journal = e.monitor.journal.record es
  machine : e'.machine = m
  toneOn : e'.toneOn = tone
  faultReported : e'.faultReported = fault

theorem Reported.trans {e e' e'' : Emulator} {es es' : List Event} {m m' : Machine}
    {tone tone' fault fault' : Bool} (first : Reported e es m tone fault e')
    (second : Reported e' es' m' tone' fault' e'') :
    Reported e (es ++ es') m' tone' fault' e'' := by
  refine ⟨first.reporting.trans second.reporting, second.rom.trans first.rom,
    second.window.trans first.window, ?_, second.machine, second.toneOn, second.faultReported⟩
  rw [second.journal, first.journal, Journal.record_append]

variable (e : Emulator)

theorem reported_updateTone : Reported e e.toneNews e.machine e.machine.timers.tone e.faultReported
    e.updateTone := by
  unfold updateTone toneNews
  by_cases same : e.machine.timers.tone = e.toneOn
  · rw [if_pos same, if_pos same]
    exact ⟨.refl e, rfl, rfl, rfl, rfl, same.symm, rfl⟩
  · simp only [if_neg same]
    exact ⟨⟨⟨rfl, rfl, rfl, rfl⟩, rfl⟩, rfl, Option.isSome_map, rfl, rfl, rfl, rfl⟩

theorem reported_reportFault : Reported e e.faultNews e.machine e.toneOn
    (e.faultReported || e.machine.fault.isSome) e.reportFault := by
  unfold reportFault faultNews
  cases e.machine.fault with
  | none => exact ⟨.refl e, rfl, rfl, rfl, rfl, rfl, (Bool.or_false _).symm⟩
  | some fault =>
    by_cases reported : e.faultReported = true
    · simp only [if_pos reported]
      exact ⟨.refl e, rfl, rfl, rfl, rfl, rfl, by rw [reported, Bool.true_or]⟩
    · simp only [if_neg reported]
      exact ⟨⟨⟨rfl, rfl, rfl, rfl⟩, rfl⟩, rfl, Option.isSome_map, rfl, rfl, rfl, (Bool.or_true _).symm⟩

theorem reported_present : Reported e [] e.seen e.toneOn e.faultReported e.present := by
  unfold present seen
  cases shown : e.window with
  | none => exact ⟨.refl e, rfl, by rw [shown], rfl, rfl, rfl, rfl⟩
  | some w =>
    simp only [Option.isSome_some, if_true]
    split
    · split
      · exact ⟨⟨⟨rfl, rfl, rfl, rfl⟩, rfl⟩, rfl, by rw [shown]; rfl, rfl, rfl, rfl, rfl⟩
      · exact ⟨⟨⟨rfl, rfl, rfl, rfl⟩, rfl⟩, rfl, by rw [shown], rfl, rfl, rfl, rfl⟩
    · exact ⟨⟨⟨rfl, rfl, rfl, rfl⟩, rfl⟩, rfl, by rw [shown], rfl, rfl, rfl, rfl⟩

theorem reported_beat : Reported e e.lifeSign e.machine e.toneOn e.faultReported e.beat := by
  unfold beat lifeSign
  by_cases due : e.verbose ∧ e.frameCount % targetFps = 0
  · rw [if_pos due, if_pos due]
    exact ⟨⟨⟨rfl, rfl, rfl, rfl⟩, rfl⟩, rfl, rfl, rfl, rfl, rfl, rfl⟩
  · rw [if_neg due, if_neg due]
    exact ⟨.refl e, rfl, rfl, rfl, rfl, rfl, rfl⟩

/-- An iteration ends with its messages, and is counted. -/
theorem reported_settle : ∃ told,
    Reported e e.messages e.seen e.machine.timers.tone (e.faultReported || e.machine.fault.isSome)
      told ∧ e.settle = { told with frameCount := told.frameCount + 1 } := by
  have tone := reported_updateTone e
  have fault := reported_reportFault e.updateTone
  have both := tone.trans fault
  have shown := both.trans (reported_present _)
  have told := shown.trans (reported_beat _)
  have faultNews : e.updateTone.faultNews = e.faultNews := by
    unfold Emulator.faultNews
    rw [tone.machine, tone.faultReported]
  have seen : e.updateTone.reportFault.seen = e.seen := by
    unfold Emulator.seen
    rw [both.window, both.machine, tone.machine]
  -- a look changes nothing that a sign of life tells
  have heartbeat : e.updateTone.reportFault.present.heartbeat = e.heartbeat := by
    unfold Emulator.heartbeat
    rw [shown.machine, seen, shown.reporting.clock]
    unfold Emulator.seen
    split
    · rfl
    · rfl
  have lifeSign : e.updateTone.reportFault.present.lifeSign = e.lifeSign := by
    unfold Emulator.lifeSign
    rw [shown.reporting.same.verbose, shown.reporting.same.frameCount, heartbeat]
  rw [List.append_nil, faultNews, lifeSign, shown.machine, seen, shown.toneOn, both.toneOn, tone.toneOn,
    shown.faultReported, both.faultReported, tone.faultReported, tone.machine] at told
  exact ⟨_, told, rfl⟩

theorem rom_settle : e.settle.rom = e.rom := by
  obtain ⟨told, reported, settle⟩ := reported_settle e
  rw [settle]
  exact reported.rom

theorem window_settle : e.settle.window.isSome = e.window.isSome := by
  obtain ⟨told, reported, settle⟩ := reported_settle e
  rw [settle]
  exact reported.window

theorem running_settle : e.settle.running = e.running := by
  obtain ⟨told, reported, settle⟩ := reported_settle e
  rw [settle]
  exact reported.reporting.same.running

theorem machine_settle : e.settle.machine = e.seen := by
  obtain ⟨told, reported, settle⟩ := reported_settle e
  rw [settle]
  exact reported.machine

theorem journal_settle : e.settle.monitor.journal = e.monitor.journal.record e.messages := by
  obtain ⟨told, reported, settle⟩ := reported_settle e
  rw [settle]
  exact reported.journal

theorem toneOn_settle : e.settle.toneOn = e.machine.timers.tone := by
  obtain ⟨told, reported, settle⟩ := reported_settle e
  rw [settle]
  exact reported.toneOn

theorem faultReported_settle :
    e.settle.faultReported = (e.faultReported || e.machine.fault.isSome) := by
  obtain ⟨told, reported, settle⟩ := reported_settle e
  rw [settle]
  exact reported.faultReported

end Emulator

end ChipEight
