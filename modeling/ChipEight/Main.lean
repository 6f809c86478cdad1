import ChipEight.CommandLine.Run

/-!
The command line program. It looks the program file up, lets the library decide what to do, and
prints. No window system is bound to it, so a program runs without a window, frame after frame, until
it is interrupted.
-/

namespace ChipEight.Program

/-- The error code with which the system refuses to read a directory. -/
def isDirectory : UInt32 := 21

def look (path : String) : IO Entry := do
  if path.toList.contains '\x00' then return .missing
  try
    return .file ((← IO.FS.readBinFile path).toList.map UInt8.toBitVec)
  catch
    | .noFileOrDirectory .. => return .missing
    | .inappropriateType _ code _ => return if code == isDirectory then .directory else .missing
    | .invalidArgument .. => return .nameTooLong
    | _ => return .unreadable

/-- The path that a command line names, the empty one if it names none. -/
def path (arguments : List String) : String :=
  match CommandLine.parse arguments with
  | .ok (.options o) => o.rom.getD ""
  | _ => ""

def report (journal : Journal) (threshold : Level) : IO Unit := do
  for event in journal.shown threshold do
    IO.eprintln event.text

/-- Iterates the main loop and prints what each iteration reports and the journal keeps. -/
partial def live (e : Emulator) : IO Unit := do
  let journal := e.monitor.journal
  report journal journal.threshold
  let seen := { journal with newestFirst := [] }
  live ({ e with monitor := { e.monitor with journal := seen } }).iterate

end ChipEight.Program

open ChipEight in
/-- The program: the status of the outcome is the exit code. -/
def main (arguments : List String) : IO UInt32 := do
  let found ← Program.look (Program.path arguments)
  let headless := (← IO.getEnv "CHIP8_HEADLESS") == some "1"
  let around : CommandLine.Surroundings :=
    { found := fun _ => found, headless, windowSystem := .missing }
  match CommandLine.stage around arguments with
  | .ended outcome =>
    IO.print outcome.output
    Program.report outcome.journal outcome.threshold
    if let some complaint := outcome.complaint then IO.eprintln complaint
    if let some failure := outcome.escaped then IO.eprintln failure.message
    return UInt32.ofNat outcome.status
  | .ready o e printed =>
    for text in printed do IO.println text
    (← IO.getStdout).flush
    Program.live (e.listening o.threshold).start
    return 0
