import ChipEight.Display
import ChipEight.Fault
import ChipEight.Instruction.Mnemonic
import ChipEight.Memory

/-!
What the machine and its host report. An event is data: it has a level, a part of the system it
comes from, and a wording, and nothing that runs depends on any of the three.
-/

namespace ChipEight

inductive Level
  | debug | info | warning | error
deriving DecidableEq, Repr

namespace Level

def rank : Level → Nat
  | debug => 0
  | info => 1
  | warning => 2
  | error => 3

def reaches (level threshold : Level) : Bool := threshold.rank ≤ level.rank

def name : Level → String
  | debug => "DEBUG"
  | info => "INFO"
  | warning => "WARNING"
  | error => "ERROR"

end Level

inductive Source
  | processor | machine | memory | keypad | timers | rom | emulator | window
deriving DecidableEq, Repr

inductive Event
  | keypadReady
  | timersReady
  | machineReady
  | memoryReset
  | machineReset
  | imageCopied (size : Nat)
  | programLoaded (size : Nat)
  /-- The instruction at `pc` is about to be executed. -/
  | executing (pc opcode : Word)
  /-- The instruction at `pc` does nothing. -/
  | ignored (pc opcode : Word)
  | waitStarted (x : Nibble)
  | waitEnded (x key : Nibble)
  | faulted (fault : Fault)
  /-- The key that went down answers a wait. -/
  | keyHeld (key : Nibble)
  | keyDown (key : Nibble)
  | keyUp (key : Nibble)
  | toneSwitched (on : Bool) (sound : Byte)
  | romRead (name : String) (size : Nat)
  | romLoaded (title : String) (size : Nat) (entry : Word)
  | restarted
  | windowUnavailable
  | windowOpened (scale : Nat)
  | windowClosed
  | emulatorReady (windowed : Bool)
  /-- The host heard the tone start or stop. -/
  | tone (on : Bool)
  /-- The host found the machine halted. -/
  | machineHalted (fault : Fault)
  | hostKey (down : Bool) (code : Int) (key : Nibble)
  | heartbeat (pc i : Word) (sp : Int) (steps : Nat) (waiting : Bool)
deriving DecidableEq

namespace Event

def level : Event → Level
  | faulted _ | machineHalted _ => .error
  | windowUnavailable => .warning
  | machineReady | programLoaded _ | romRead .. | romLoaded .. | restarted | windowOpened _
  | windowClosed | emulatorReady _ | tone _ | heartbeat .. => .info
  | keypadReady | timersReady | memoryReset | machineReset | imageCopied _ | executing ..
  | ignored .. | waitStarted _ | waitEnded .. | keyHeld _ | keyDown _ | keyUp _
  | toneSwitched .. | hostKey .. => .debug

def source : Event → Source
  | executing .. | ignored .. | waitStarted _ | waitEnded .. | faulted _ => .processor
  | machineReady | machineReset | programLoaded _ => .machine
  | memoryReset | imageCopied _ => .memory
  | keypadReady | keyHeld _ | keyDown _ | keyUp _ => .keypad
  | timersReady | toneSwitched .. => .timers
  | romRead .. => .rom
  | windowOpened _ | windowClosed => .window
  | romLoaded .. | restarted | windowUnavailable | emulatorReady _ | tone _ | machineHalted _
  | hostKey .. | heartbeat .. => .emulator

def text : Event → String
  | keypadReady => "Keypad inicializado: todas las teclas soltadas"
  | timersReady => "Timers inicializados (DT=0, ST=0)"
  | machineReady => "Máquina CHIP-8 inicializada"
  | memoryReset => "MMU reseteada (fuente en 0x000-0x04F)"
  | machineReset => "Máquina reseteada"
  | imageCopied size => s!"Programa cargado en 0x200 ({size} bytes)"
  | programLoaded size => s!"Programa cargado: {size} bytes en 0x200"
  | executing pc opcode =>
    "PC=0x" ++ Hex.pointer pc ++ " Opcode=0x" ++ Hex.word opcode ++ " " ++ opcode.mnemonic
  | ignored pc opcode =>
    "Opcode desconocido 0x" ++ Hex.word opcode ++ " en PC=0x" ++ Hex.pointer pc ++ ", ignorado"
  | waitStarted x => "LD V" ++ Hex.nibble x ++ ", K -> esperando tecla"
  | waitEnded x key => "LD V" ++ Hex.nibble x ++ ", K -> tecla 0x" ++ Hex.nibble key
  | faulted fault => "Fallo de ejecución: " ++ fault.message
  | keyHeld key => "Keypad: tecla 0x" ++ Hex.nibble key ++ " retenida para LD Vx, K"
  | keyDown key => "Keypad: tecla 0x" ++ Hex.nibble key ++ " pulsada"
  | keyUp key => "Keypad: tecla 0x" ++ Hex.nibble key ++ " soltada"
  | toneSwitched on sound =>
    "Timers: tono " ++ (if on then "activado" else "desactivado") ++
      " (ST=" ++ toString sound.toNat ++ ")"
  | romRead name size => s!"ROM cargada: {name} ({size} bytes)"
  | romLoaded title size entry =>
    s!"ROM en memoria: {title} | Tamaño: {size} bytes | " ++
      "Libre: " ++ toString (Memory.programCapacity - size) ++ " bytes | " ++
      "Entrada: 0x" ++ Hex.word entry
  | restarted => "Máquina reiniciada"
  | windowUnavailable => "Pygame no disponible. El renderer no se inicializará."
  | windowOpened scale =>
    "Renderer inicializado: " ++ toString (Display.width * scale) ++ "x" ++
      toString (Display.height * scale) ++ " (scale=" ++ toString scale ++ ")"
  | windowClosed => "Renderer cerrado"
  | emulatorReady windowed =>
    "Emulador inicializado (" ++ (if windowed then "ventana" else "headless") ++ ")"
  | tone on => "🔊 Tono " ++ (if on then "ON" else "OFF")
  | machineHalted fault => "Máquina detenida: " ++ fault.message ++ ". Pulsa F5 para reiniciar."
  | hostKey down code key =>
    (if down then "KEY PRESS: " else "KEY RELEASE: ") ++ toString code ++
      " -> tecla CHIP-8 0x" ++ Hex.nibble key
  | heartbeat pc i sp steps waiting =>
    "💓 Heartbeat ... PC=0x" ++ Hex.pointer pc ++ " | I=0x" ++ Hex.pointer i ++
      " | SP=" ++ toString sp ++ " | Instrucciones=" ++ toString steps ++
      " | Esperando tecla=" ++ (if waiting then "True" else "False")

end Event

end ChipEight
