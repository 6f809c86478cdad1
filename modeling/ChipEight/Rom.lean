import ChipEight.Memory
import ChipEight.Path
import ChipEight.Text.Hex

/-!
Program files. A file is its bytes and nothing else, so all that can be tested is its size: a
program has at least one byte and fits into memory. Whatever passes can be loaded.
-/

namespace ChipEight

/-- A program file that has passed the tests. -/
structure Rom where
  path : Path
  data : List Byte
  fits : 0 < data.length ∧ data.length ≤ Memory.programCapacity

namespace Rom

/-- The program file at a path. The tests come in this order: something lies there, it can be read,
it is not empty, it fits. -/
def ofEntry (path : String) : Entry → Except Refusal Rom
  | .missing => .error (.fileMissing path)
  | .nameTooLong => .error (.nameTooLong (Path.ofString path).text)
  | .forbidden => .error (.pathForbidden (Path.ofString path).text)
  | .directory | .unreadable => .error (.fileUnreadable path)
  | .file data =>
    if h : 0 < data.length ∧ data.length ≤ Memory.programCapacity then
      .ok ⟨Path.ofString path, data, h⟩
    else if data.isEmpty then .error (.fileEmpty path)
    else .error (.imageTooLarge data.length Memory.programCapacity)

def title (r : Rom) : String := r.path.stem

def size (r : Rom) : Nat := r.data.length

def free (r : Rom) : Nat := Memory.programCapacity - r.size

/-- The first word; the low byte of a program of one byte is zero. -/
def entry (r : Rom) : Word := Word.ofBytes (r.data.getD 0 0) (r.data.getD 1 0)

def entryText (r : Rom) : String := "0x" ++ Hex.word r.entry

end Rom

end ChipEight
