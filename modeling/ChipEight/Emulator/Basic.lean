import ChipEight.Clock.Basic
import ChipEight.Emulator.Keyboard
import ChipEight.Rom
import ChipEight.Window

/-!
The emulator is the host of a machine: it reads program files, owns the clock, delivers key events
and reports what happens to the machine. Every operation is a function from one emulator to the next;
what it reports goes to the journal of its monitor.
-/

namespace ChipEight

inductive WindowSystem
  | missing
  /-- It opens a window of a scale, or fails with an error. -/
  | installed (opening : Nat → Option Raised)

namespace WindowSystem

/-- The error with which the opening of a window fails, if it does. -/
def opening : WindowSystem → (scale : Nat) → Option Raised
  | missing, _ =>
    some ⟨[.importing], "Pygame no está instalado. Instala con: pip install pygame-ce"⟩
  | installed opening, scale => opening scale

def isInstalled : WindowSystem → Bool
  | missing => false
  | installed _ => true

end WindowSystem

structure Setup where
  cpuHz : Int := Clock.defaultCpuHz
  seed : Int := 0
  /-- The scale of the window, if one is wanted. -/
  windowScale : Option Nat := none
  windowSystem : WindowSystem := .installed fun _ => none

/-- A machine, the parts of its host, and what the host has reported of the machine. -/
structure Emulator where
  monitor : Monitor
  clock : Clock
  rom : Option Rom := none
  window : Option Window := none
  /-- Whether key events are taken notice of. -/
  listens : Bool := true
  /-- Whether the tone sounded when it was last reported on. -/
  toneOn : Bool := false
  /-- Whether the pending fault has been reported. -/
  faultReported : Bool := false
  running : Bool := false
  /-- The frames completed in the present run, or in the last one. -/
  frameCount : Nat := 0
  /-- Whether a sign of life is reported once a second. -/
  verbose : Bool := false

namespace Emulator

def machine (e : Emulator) : Machine := e.monitor.machine

def note (e : Emulator) (event : Event) : Emulator := { e with monitor := e.monitor.note event }

def listening (e : Emulator) (threshold : Level) : Emulator :=
  { e with monitor := e.monitor.listening threshold }

/-- Forgets what has been counted and reported, for a program that starts afresh. -/
def rearm (e : Emulator) : Emulator :=
  { e with clock := e.clock.resetTotals, toneOn := false, faultReported := false }

def insert (e : Emulator) (rom : Rom) : Except Refusal Emulator :=
  match Board.load (e.monitor.note (.romRead rom.path.name rom.size)) rom.data with
  | .ok monitor =>
    .ok ((rearm { e with monitor, rom := some rom }).note
      (.romLoaded rom.title rom.size rom.entry))
  | .error refusal => .error refusal

/-- Reads the program file at a path and puts it into the machine. If that fails the emulator stays
as it was. -/
def loadRom (e : Emulator) (path : String) (found : Entry) : Except Refusal Emulator :=
  match Rom.ofEntry path found with
  | .ok rom => e.insert rom
  | .error refusal => .error refusal

/-- Starts the present program again, or just resets the machine if there is none. -/
def restart (e : Emulator) : Emulator :=
  let monitor :=
    match e.rom with
    | none => Board.reset e.monitor
    | some rom =>
      match Board.load e.monitor rom.data with
      | .ok monitor => monitor
      | .error _ => e.monitor
  (rearm { e with monitor }).note .restarted

/-- A program that is present has been found to fit, so nothing refuses it when it starts again. -/
theorem restart_loads (e : Emulator) {rom : Rom} (present : e.rom = some rom) :
    ∃ monitor, Board.load e.monitor rom.data = .ok monitor ∧
      e.restart = (rearm { e with monitor }).note .restarted := by
  obtain ⟨m, -, loads⟩ := Board.load_of_fits e.monitor rom.fits.2
  refine ⟨_, loads, ?_⟩
  simp only [restart, present, loads]

/-- Opens the window, if one is wanted. A window system that is not there, or not all of it, only calls
for a warning; whatever else it fails with is passed on. -/
def openWindow (e : Emulator) (setup : Setup) : Except Refusal Emulator :=
  match setup.windowScale with
  | none => .ok e
  | some scale =>
    match setup.windowSystem.opening scale with
    | none => .ok ({ e with window := some { scale } }.note (.windowOpened scale))
    | some error =>
      if error.belongs .importing then .ok (e.note .windowUnavailable)
      else .error (.outside error)

/-- An emulator, with the program file at a path if one is given. The file is read before the window
is opened. A refusal comes with what was reported until then. -/
def create (setup : Setup) (program : Option (String × Entry)) :
    Except (Refusal × Journal) Emulator :=
  let monitor := Monitor.fresh (Generator.ofSeed setup.seed)
  let made : Except Refusal Emulator :=
    match Clock.create setup.cpuHz Clock.standardTimerHz with
    | .error refusal => .error refusal
    | .ok clock =>
      let e : Emulator := { monitor, clock, listens := setup.windowSystem.isInstalled }
      match program with
      | none => .ok e
      | some (path, found) => e.loadRom path found
  match made with
  | .error refusal => .error (refusal, monitor.journal)
  | .ok e =>
    match e.openWindow setup with
    | .error refusal => .error (refusal, e.monitor.journal)
    | .ok e => .ok (e.note (.emulatorReady e.window.isSome))

/-- Takes notice of an input. The answer tells whether the emulator goes on. -/
def handle (e : Emulator) (input : Keyboard.Input) : Emulator × Bool :=
  if e.listens then
    match input with
    | .quit => (e, false)
    | .other => (e, true)
    | .keyDown code =>
      if code = Keyboard.escape then (e, false)
      else if code = Keyboard.restart then (e.restart, true)
      else
        match Keyboard.key? code with
        | none => (e, true)
        | some key =>
          let e := e.note (.hostKey true code key)
          ({ e with monitor := Board.press e.monitor key }, true)
    | .keyUp code =>
      match Keyboard.key? code with
      | none => (e, true)
      | some key =>
        let e := e.note (.hostKey false code key)
        ({ e with monitor := Board.release e.monitor key }, true)
  else (e, true)

/-- The key codes that the emulator takes notice of. -/
def keyMap (e : Emulator) : List (Int × Nibble) := if e.listens then Keyboard.keyMap else []

end Emulator

end ChipEight
