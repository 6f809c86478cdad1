import ChipEight.Raised
import ChipEight.Text.Quoted

/-!
Why a request was refused. A refused request changes nothing; the wording of every refusal is here.
-/

namespace ChipEight

inductive Refusal
  | keyOutOfRange (key : Int)
  | imageTooLarge (size : Nat) (capacity : Int)
  | badFrequencies (cpuHz timerHz : Int)
  | intervalInfinite
  | intervalTooLarge
  | ratioTooLarge
  | fileMissing (path : String)
  | fileUnreadable (path : String)
  | nameTooLong (path : String)
  /-- A directory on the way to a path must not be searched. -/
  | pathForbidden (path : String)
  | fileEmpty (path : String)
  | noProgram
  /-- A picture uses colour number `index` of a palette of `size` colours. -/
  | colourMissing (index size : Nat)
  | componentOutOfRange (component : Int)
  /-- A component of a colour does not even fit a signed word of 64 bits. -/
  | componentTooLarge
  | pictureRagged (rows : Nat)
  /-- The surroundings failed. -/
  | outside (error : Raised)
deriving DecidableEq

instance instDecidableEqExcept {ε α : Type} [DecidableEq ε] [DecidableEq α] :
    DecidableEq (Except ε α)
  | .ok a, .ok b => decidable_of_iff (a = b) ⟨congrArg Except.ok, Except.ok.inj⟩
  | .error e, .error f => decidable_of_iff (e = f) ⟨congrArg Except.error, Except.error.inj⟩
  | .ok _, .error _ => .isFalse nofun
  | .error _, .ok _ => .isFalse nofun

namespace Refusal

def message : Refusal → String
  | keyOutOfRange k => s!"Tecla CHIP-8 fuera de rango: {k} (esperado 0x0-0xF)"
  | imageTooLarge size capacity =>
    s!"ROM demasiado grande: {size} bytes (máximo permitido: {capacity} bytes)"
  | badFrequencies cpuHz timerHz => s!"Frecuencias inválidas: cpu_hz={cpuHz}, timer_hz={timerHz}"
  | intervalInfinite => "cannot convert float infinity to integer"
  | intervalTooLarge => "int too large to convert to float"
  | ratioTooLarge => "integer division result too large for a float"
  | fileMissing path => s!"ROM no encontrada: {path}"
  | fileUnreadable path => s!"Error al leer ROM: {path}"
  | nameTooLong path => "[Errno 36] File name too long: " ++ Text.quoted path
  | pathForbidden path => "[Errno 13] Permission denied: " ++ Text.quoted path
  | fileEmpty path => s!"ROM vacía: {path}"
  | noProgram => "No hay ROM cargada. Llama a load_rom() primero."
  | colourMissing index size =>
    s!"index {index} is out of bounds for axis 0 with size {size}"
  | componentOutOfRange component => s!"Python integer {component} out of bounds for uint8"
  | componentTooLarge => "Python int too large to convert to C long"
  | pictureRagged rows =>
    "setting an array element with a sequence. The requested array has an inhomogeneous shape after "
      ++ s!"1 dimensions. The detected shape was ({rows},) + inhomogeneous part."
  | outside error => error.text

/-- The families that a refusal belongs to; none for a number that is too large and for a colour that
there is not. -/
def families : Refusal → List Family
  | keyOutOfRange _ | imageTooLarge .. | badFrequencies .. | fileEmpty _ | pictureRagged _ => [.value]
  | fileMissing _ => [.missing]
  | fileUnreadable _ | nameTooLong _ | pathForbidden _ => [.system]
  | noProgram => [.runtime]
  | intervalInfinite | intervalTooLarge | ratioTooLarge | colourMissing .. | componentOutOfRange _
  | componentTooLarge => []
  | outside error => error.families

def raised (r : Refusal) : Raised := ⟨r.families, r.message⟩

end Refusal

end ChipEight
