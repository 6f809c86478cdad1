import ChipEight.Emulator.Basic

/-!
The main loop of the emulator. Each iteration takes notice of the pending inputs, lets time pass,
reports a tone that started or stopped and a fault, shows the picture if it may have changed, and
counts the frame. Without a window every iteration is one frame of the clock and there are no inputs;
with one, a script tells the inputs of each iteration and the time that it took.
-/

namespace ChipEight.Emulator

def targetFps : Nat := 60

def title (e : Emulator) : String :=
  match e.rom with
  | none => Window.defaultCaption
  | some rom => Window.defaultCaption ++ " - " ++ rom.title

def setCaption (e : Emulator) (text : String) : Emulator :=
  { e with window := e.window.map fun w => w.setCaption text }

def updateTone (e : Emulator) : Emulator :=
  let on := e.machine.timers.tone
  if on = e.toneOn then e
  else
    ({ e with toneOn := on }.note (.tone on)).setCaption (e.title ++ if on then " - ♪" else "")

/-- Reports a pending fault, once. -/
def reportFault (e : Emulator) : Emulator :=
  match e.machine.fault with
  | none => e
  | some fault =>
    if e.faultReported then e
    else
      ({ e with faultReported := true }.note (.machineHalted fault)).setCaption
        (e.title ++ " - FALLO (F5 reinicia)")

/-- Shows the picture in the window, if there is one and the picture may have changed. -/
def present (e : Emulator) : Emulator :=
  match e.window with
  | none => e
  | some w =>
    let (monitor, dirty) := Board.look e.monitor
    let e := { e with monitor }
    if dirty then
      match w.render e.machine.display.frame with
      | .ok w => { e with window := some w }
      | .error _ => e
    else e

/-- The window of an emulator keeps the two colours it is opened with, so no picture is refused. -/
theorem present_shows (e : Emulator) {w : Window} (window : e.window = some w)
    (mono : w.palette = Palette.mono) (dirty : e.machine.display.dirty = true) :
    ∃ w', w'.palette = w.palette ∧ w'.isOpen = w.isOpen ∧ w'.captions = w.captions ∧
      w'.lastFrame = some e.machine.display.frame ∧
      e.present = { e with monitor := (Board.look e.monitor).1, window := some w' } := by
  obtain ⟨w', shown, palette, stays, captions, frame⟩ :=
    w.render_mono mono e.machine.display.isRectangular_frame
  have look : Board.look e.monitor =
      (Board.update e.monitor e.machine.look.1 [], e.machine.display.dirty) := rfl
  -- a look leaves the pixels as they are
  have same : e.machine.look.1.display.frame = e.machine.display.frame := rfl
  refine ⟨w', palette, stays, captions, frame, ?_⟩
  simp only [present, window, look, if_pos dirty]
  rw [show Emulator.machine _ = e.machine.look.1 from rfl, same, shown]

/-- The sign of life: in every sixtieth iteration of a run, the first included. -/
def beat (e : Emulator) : Emulator :=
  if e.verbose ∧ e.frameCount % targetFps = 0 then
    let r := e.machine.registers
    e.note (.heartbeat r.pc r.i r.sp e.clock.totalSteps e.machine.isWaiting)
  else e

/-- What an iteration does after time has passed. -/
def settle (e : Emulator) : Emulator :=
  let e := e.updateTone.reportFault.present.beat
  { e with frameCount := e.frameCount + 1 }

def afterProgress (e : Emulator) (p : Clock.Progress Monitor) : Emulator :=
  { e with clock := p.clock, monitor := p.board }

def passFrame (e : Emulator) : Emulator := e.afterProgress (e.clock.tickFrame e.monitor)

def passMillis (e : Emulator) (millis : Int) : Except Refusal Emulator :=
  match Interval.ofMillis millis with
  | .ok micros => .ok (e.afterProgress (e.clock.advance e.monitor micros))
  | .error refusal => .error refusal

/-- One iteration without a window. -/
def iterate (e : Emulator) : Emulator := e.passFrame.settle

def start (e : Emulator) : Emulator := { e with running := true, frameCount := 0 }

/-- The end of a run, which closes the window. -/
def finish (e : Emulator) : Emulator :=
  let e := { e with running := false }
  match e.window with
  | none => e
  | some w => { e with window := some w.close }.note .windowClosed

def iterations (e : Emulator) : (n : Nat) → Emulator
  | 0 => e
  | n + 1 => e.iterate.iterations n

/-- A run without a window. The frames are counted after the iteration, so there is always one. -/
def run (e : Emulator) (maxFrames : Int) : Except Refusal Emulator :=
  match e.rom with
  | none => .error .noProgram
  | some _ => .ok (e.start.iterations (max 1 maxFrames.toNat)).finish

inductive Wait
  /-- The iteration took so many milliseconds. -/
  | elapsed (millis : Int)
  | interrupt
deriving DecidableEq

/-- What one iteration of the loop of a window meets. -/
structure Moment where
  inputs : List Keyboard.Input
  wait : Wait
deriving DecidableEq

/-- Takes notice of inputs in order, up to one that ends the run. The answer tells whether there was
none. -/
def handleAll (e : Emulator) : List Keyboard.Input → Emulator × Bool
  | [] => (e, true)
  | input :: inputs =>
    match e.handle input with
    | (e, true) => e.handleAll inputs
    | (e, false) => (e, false)

def isComplete (e : Emulator) : Option Int → Bool
  | none => false
  | some limit => limit ≤ e.frameCount

/-- The loop of a window. It ends with an input that ends it, an interrupt, the last frame allowed or
the end of the script, and it breaks off at an interval that the clock refuses. The answer is the
emulator as it waits in each iteration, and as it is at the end. -/
def play (limit : Option Int) (e : Emulator) :
    List Moment → Except Refusal (List Emulator × Emulator)
  | [] => .ok ([], e)
  | moment :: script =>
    match e.handleAll moment.inputs with
    | (e, false) => .ok ([], e)
    | (e, true) =>
      match moment.wait with
      | .interrupt => .ok ([e], e)
      | .elapsed millis =>
        match e.passMillis millis with
        | .error refusal => .error refusal
        | .ok passed =>
          let after := passed.settle
          if after.isComplete limit then .ok ([e], after)
          else
            match play limit after script with
            | .ok (waits, last) => .ok (e :: waits, last)
            | .error refusal => .error refusal

def runScript (e : Emulator) (limit : Option Int) (script : List Moment) :
    Except Refusal (List Emulator × Emulator) :=
  match e.rom with
  | none => .error .noProgram
  | some _ =>
    match play limit e.start script with
    | .ok (waits, last) => .ok (waits, last.finish)
    | .error refusal => .error refusal

end ChipEight.Emulator
