import ChipEight.CommandLine.Options
import ChipEight.Emulator.Live

/-!
What a command line does: it shows the help, lists a program, or makes an emulator and lets it run.
The causes for which it fails are tested in a fixed order, and every one of them ends with status 1;
only a command line that cannot be read ends with status 2. A setting that is no number fails where
the number is first needed: the frequency and the seed when the emulator is made, the scale before
that, where nothing announces the failure. A run has no limit, so a command line that lets one run has
no outcome before the run is over.
-/

namespace ChipEight.CommandLine

structure Surroundings where
  found : String → Entry
  headless : Bool
  windowSystem : WindowSystem

/-- Why a setting that is no number is of no use. -/
inductive SettingError
  /-- A number is compared with it. -/
  | unordered
  /-- It cannot seed the random bytes. -/
  | notASeed
deriving DecidableEq, Repr

def SettingError.message : SettingError → String
  | unordered => "'<=' not supported between instances of 'list' and 'int'"
  | notASeed => "The only supported seed types are: None,\nint, float, str, bytes, and bytearray."

/-- The error that a setting without a number leads to. It belongs to no family that is told apart. -/
def SettingError.raised (e : SettingError) : Raised := ⟨[], e.message⟩

inductive FailureKind
  | loading
  | execution
  | unexpected
deriving DecidableEq, Repr

structure Failure where
  kind : FailureKind
  text : String
deriving DecidableEq

/-- The families whose errors are announced alike, in the order in which they are tried. -/
def handlers : List (List Family × FailureKind) :=
  [([.missing, .system, .value], .loading), ([.unimplemented, .runtime], .execution)]

def Failure.ofRaised (r : Raised) : Failure where
  kind := ((handlers.find? fun (families, _) => families.any r.belongs).map (·.2)).getD .unexpected
  text := r.text

/-- What a command line has done when it ends. -/
structure Outcome where
  status : Nat
  /-- The texts printed; each is followed by a line feed. -/
  printed : List String
  journal : Journal := .empty
  threshold : Level := .error
  usageError : Option UsageError := none
  /-- The failure with which everything breaks off, if there is one that nothing announces. -/
  escaped : Option SettingError := none

namespace Outcome

def output (o : Outcome) : String := String.join (o.printed.map (· ++ "\n"))

def complaint (o : Outcome) : Option String :=
  o.usageError.map fun e => "main.py: error: " ++ e.message

end Outcome

def helpText : List String :=
  ["usage: main.py [-h] [--scale SCALE] [--cpu-hz CPU_HZ] [--seed SEED]",
   "               [--disassemble] [--debug] [--verbose]",
   "               [rom]",
   "",
   "CHIP-8 - Intérprete educativo de la máquina virtual CHIP-8",
   "",
   "positional arguments:",
   "  rom              Ruta al archivo ROM (.ch8)",
   "",
   "options:",
   "  -h, --help       show this help message and exit",
   "  --scale SCALE    Factor de escala de la ventana (por defecto 10 = 640x320)",
   "  --cpu-hz CPU_HZ  Instrucciones por segundo (por defecto 500)",
   "  --seed SEED      Semilla para RND (ejecución determinista)",
   "  --disassemble    Mostrar el desensamblado de la ROM y salir (no abre",
   "                   ventana)",
   "  --debug          Activar modo debug con trazas detalladas de instrucciones",
   "  --verbose        Activar modo verbose (muestra mensajes INFO, incluyendo",
   "                   heartbeat)"]

def banner : List String :=
  ["CHIP-8 - Sistema Iniciado", String.ofList (List.replicate 50 '=')]

def Failure.announcement (f : Failure) : List String :=
  match f.kind with
  | .loading => ["\n❌ Error al cargar ROM: " ++ f.text]
  | .execution => ["\n❌ Error de ejecución: " ++ f.text]
  | .unexpected =>
    ["\n❌ Error inesperado: " ++ f.text,
     "\nTraceback completo:",
     "\n💡 Sugerencias:",
     "   - Ejecuta con --verbose para más información",
     "   - Ejecuta con --debug para trazas detalladas",
     "   - Verifica que todas las dependencias estén instaladas: pip install -e ."]

namespace Options

def threshold (o : Options) : Level :=
  if o.debug then .debug else if o.verbose then .info else .error

/-- The end with a failure before anything runs. -/
def failed (o : Options) (failure : Failure) (journal : Journal) : Outcome where
  status := 1
  printed := banner ++ failure.announcement
  journal := journal
  threshold := o.threshold

/-- The end with a text of its own before anything is looked at. -/
def turnedAway (o : Options) (text : List String) : Outcome where
  status := 1
  printed := banner ++ text
  threshold := o.threshold

/-- What an emulator is made for by the settings, of which the scale is known to be a number; or the
failure of one that is not, with what was reported until it was needed. -/
def setup (o : Options) (around : Surroundings) (scale : Int) :
    Except (SettingError × Journal) Setup :=
  match o.seed.getD (.number 0), o.cpuHz with
  | .empty, _ => .error (.notASeed, Journal.empty.record Machine.partsEvents)
  | .number _, .empty => .error (.unordered, Journal.empty.record Machine.creationEvents)
  | .number seed, .number cpuHz =>
    .ok
      { cpuHz, seed
        windowScale := if around.headless then none else some scale.toNat
        windowSystem := around.windowSystem }

def list (o : Options) (path : String) (found : Entry) : Outcome :=
  match Rom.ofEntry path found with
  | .error e => o.failed (.ofRaised e.raised) .empty
  | .ok rom =>
    { status := 0
      printed :=
        banner ++ ["\n📦 " ++ rom.title ++ " (" ++ toString rom.size ++ " bytes)\n"] ++
          ChipEight.disassemble rom.data Memory.programStart
      journal := Journal.empty.record [.romRead rom.path.name rom.size]
      threshold := o.threshold }

def romSummary (rom : Rom) : List String :=
  ["\n📦 ROM cargada:",
   "   Título: " ++ rom.title,
   "   Tamaño: " ++ toString rom.size ++ " bytes",
   "   Libre: " ++ toString rom.free ++ " bytes",
   "   Primer opcode: 0x" ++ Hex.word rom.entry]

def summary (o : Options) (e : Emulator) : List String :=
  (match e.rom with
    | some rom => romSummary rom
    | none => []) ++
  ["\n🖥️  CPU inicializada:",
   "   PC = 0x" ++ Hex.pointer e.machine.registers.pc,
   "   SP = " ++ toString e.machine.registers.sp,
   "   Velocidad = " ++ toString e.clock.cpuHz ++ " instrucciones/s",
   "\n✅ Sistema listo para ejecutar"] ++
  (if o.debug then ["   Modo DEBUG activado - Mostrando trazas de instrucciones"]
    else if o.verbose then ["   Modo VERBOSE activado - Mostrando heartbeat y mensajes INFO"]
    else []) ++
  ["   ESC cierra, F5 reinicia. Presiona Ctrl+C para detener\n"]

/-- The emulator that is about to run a program file, with what has been printed; or the end, if it
cannot be made. -/
def prepare (o : Options) (around : Surroundings) (scale : Int) (path : String) :
    Except Outcome (Emulator × List String) :=
  match o.setup around scale with
  | .error (e, journal) => .error (o.failed (.ofRaised e.raised) journal)
  | .ok setup =>
    match Emulator.create setup (some (path, around.found path)) with
    | .error (e, journal) => .error (o.failed (.ofRaised e.raised) journal)
    | .ok e =>
      let e := { e with verbose := o.verbose || o.debug }
      .ok (e, banner ++ o.summary e)

/-- What a run comes to, which `printed` was printed before. One that is still going comes to nothing. -/
def conclude (o : Options) (printed : List String) : Except Emulator.Over Emulator → Option Outcome
  | .ok _ => none
  | .error ⟨e, none⟩ =>
    some { status := 0, printed, journal := e.monitor.journal, threshold := o.threshold }
  | .error ⟨e, some error⟩ =>
    some
      { status := 1
        printed := printed ++ (Failure.ofRaised error).announcement
        journal := e.monitor.journal
        threshold := o.threshold }

/-- What is tested before a program file is looked at: a path was given, and the scale is a positive
number. The answer is the path and the scale. -/
def validate (o : Options) : Except Outcome (String × Int) :=
  let path := o.rom.getD ""
  if path = "" then
    .error (o.turnedAway
      ["Error: Se requiere especificar una ROM",
       "Uso: python main.py <ruta_a_rom.ch8> [--debug]"])
  else
    match o.scale with
    | .empty => .error { o.turnedAway [] with escaped := some .unordered }
    | .number scale =>
      if scale ≤ 0 then
        .error (o.turnedAway
          ["Error: --scale debe ser positivo (recibido " ++ toString scale ++ ")"])
      else .ok (path, scale)

end Options

/-- Whether a window is wanted and there is no window system. -/
def lacksWindowSystem (around : Surroundings) : Bool :=
  !around.headless && !around.windowSystem.isInstalled

inductive Stage
  | ended (outcome : Outcome)
  /-- An emulator is about to run, and `printed` has been printed. -/
  | ready (o : Options) (e : Emulator) (printed : List String)

def Options.stage (o : Options) (around : Surroundings) : Stage :=
  match o.validate with
  | .error outcome => .ended outcome
  | .ok (path, scale) =>
    if o.disassemble then .ended (o.list path (around.found path))
    else if lacksWindowSystem around then
      .ended (o.turnedAway
        ["\n❌ ERROR: Pygame no está instalado.\n\nInstala con: pip install pygame-ce"])
    else
      match o.prepare around scale path with
      | .error outcome => .ended outcome
      | .ok (e, printed) => .ready o e printed

/-- Does what a command line asks for, up to the run of the emulator. -/
def stage (around : Surroundings) (arguments : List String) : Stage :=
  match parse arguments with
  | .error e => .ended { status := 2, printed := [], usageError := some e }
  | .ok .help => .ended { status := 0, printed := helpText }
  | .ok (.options o) => o.stage around

/-- Does what a command line asks for, as far as what the loop of the emulator meets is told. There is no
outcome while the emulator runs. -/
def run (around : Surroundings) (arguments : List String) (met : List Emulator.Encounter) :
    Option Outcome :=
  match stage around arguments with
  | .ended outcome => some outcome
  | .ready o e printed => o.conclude printed (e.course none met)

end ChipEight.CommandLine
