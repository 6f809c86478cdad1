import ChipEight.Emulator.Run

/-!
A run as long as it lasts. What the loop meets is told iteration by iteration, and an iteration can be
broken off wherever the loop turns to its host: by an interrupt, which ends the run, or by an error,
which is passed on. Nothing but these and the inputs of a window ends a run that is given no limit, so a
run may be going on when nothing more is told. It closes its window however it ends.
-/

namespace ChipEight.Emulator

/-- Where an iteration can be broken off. -/
inductive Place
  /-- Before the pending inputs are known. -/
  | inputs
  | wait
  /-- While a tone that started or stopped is reported. -/
  | tone
  /-- While a fault is reported, or the picture shown. -/
  | picture
deriving DecidableEq

structure Encounter where
  inputs : List Keyboard.Input := []
  millis : Int := 17
  /-- Where the iteration is broken off, and by which error; by an interrupt if by none. -/
  cut : Option (Place × Option Raised) := none
deriving DecidableEq

/-- A run that is over, and the error that broke it off. -/
structure Over where
  emulator : Emulator
  error : Option Raised := none

def Over.finish (o : Over) : Over := { o with emulator := o.emulator.finish }

def Encounter.reach (met : Encounter) (place : Place) (e : Emulator) : Except Over Emulator :=
  match met.cut with
  | none => .ok e
  | some (cut, error) => if cut = place then .error ⟨e, error⟩ else .ok e

/-- Takes notice of the pending inputs. Without a window there are none. -/
def attend (e : Emulator) (inputs : List Keyboard.Input) : Except Over Emulator :=
  if e.window.isSome then
    match e.handleAll inputs with
    | (e, true) => .ok e
    | (e, false) => .error ⟨e, none⟩
  else .ok e

/-- Lets time pass: as long as the wait took, or one frame of the clock without a window. -/
def pass (e : Emulator) (millis : Int) : Except Over Emulator :=
  if e.window.isSome then
    match e.passMillis millis with
    | .ok e => .ok e
    | .error refusal => .error ⟨e, some refusal.raised⟩
  else .ok e.passFrame

def count (e : Emulator) (limit : Option Int) : Except Over Emulator :=
  let e := { e with frameCount := e.frameCount + 1 }
  if e.isComplete limit then .error ⟨e, none⟩ else .ok e

def turn (limit : Option Int) (e : Emulator) (met : Encounter) : Except Over Emulator := do
  let e ← met.reach .inputs e
  let e ← e.attend met.inputs
  let e ← met.reach .wait e
  let e ← e.pass met.millis
  let e ← met.reach .tone e.updateTone
  let e ← met.reach .picture e.reportFault
  e.present.beat.count limit

def live (limit : Option Int) (e : Emulator) (met : List Encounter) : Except Over Emulator :=
  met.foldlM (turn limit) e

/-- A run, as far as what it meets is told. It is still going, or it is over. -/
def course (e : Emulator) (limit : Option Int) (met : List Encounter) : Except Over Emulator :=
  match e.rom with
  | none => .error ⟨e, some Refusal.noProgram.raised⟩
  | some _ => (live limit e.start met).mapError Over.finish

end ChipEight.Emulator
