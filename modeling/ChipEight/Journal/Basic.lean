import ChipEight.Journal.Event

/-!
A journal keeps what happens from a level on, and drops what matters less when it happens. Nothing
that runs reads a journal.
-/

namespace ChipEight

/-- The events so far, the newest first. -/
structure Journal where
  newestFirst : List Event := []
  /-- The level from which on events are kept. -/
  threshold : Level := .debug
deriving DecidableEq

namespace Journal

def empty : Journal := {}

def keeps (j : Journal) (e : Event) : Bool := e.level.reaches j.threshold

def record (j : Journal) (events : List Event) : Journal :=
  { j with newestFirst := (events.filter j.keeps).reverseAux j.newestFirst }

def events (j : Journal) : List Event := j.newestFirst.reverse

/-- The events at or above a threshold, in the order in which they happened. -/
def shown (j : Journal) (threshold : Level) : List Event :=
  j.events.filter fun e => e.level.reaches threshold

/-- The events added since an earlier state of the journal. -/
def since (j earlier : Journal) : Journal :=
  { j with newestFirst := j.newestFirst.take (j.newestFirst.length - earlier.newestFirst.length) }

/-- The journal from which a threshold on is kept, of what it has and of what is to come. -/
def listening (j : Journal) (threshold : Level) : Journal :=
  ⟨j.newestFirst.filter fun e => e.level.reaches threshold, threshold⟩

@[simp] theorem events_empty : empty.events = [] := rfl

@[simp] theorem threshold_record (j : Journal) (es : List Event) :
    (j.record es).threshold = j.threshold := rfl

@[simp] theorem events_record (j : Journal) (es : List Event) :
    (j.record es).events = j.events ++ es.filter j.keeps := by
  simp [record, events, List.reverseAux_eq]

end Journal

end ChipEight
