import ChipEight.Answer
import ChipEight.Table

/-!
The screen: 64 by 32 pixels on a torus. A sprite is a list of bytes, one a row, and drawing it
toggles the pixel under each of its set bits. Drawing is therefore a fold of `toggle` over the list
of the points that the sprite covers, and a collision is a toggle that turned a pixel off.
-/

namespace ChipEight

structure Point where
  column : BitVec 6
  row : BitVec 5
deriving DecidableEq

namespace Point

/-- The pixel at any integer coordinates: both axes wrap. -/
def ofInts (x y : Int) : Point := ⟨BitVec.ofInt 6 x, BitVec.ofInt 5 y⟩

/-- The cell of a pixel: rows follow one another, each from left to right. -/
def cell (p : Point) : BitVec 11 := p.row ++ p.column

end Point

structure Display where
  pixels : Table 11 Bool := Table.fill 11 false
  /-- Whether the picture may have changed since somebody last looked. -/
  dirty : Bool := true
deriving DecidableEq

namespace Display

def width : Nat := 64

def height : Nat := 32

def fresh : Display := {}

def pixel (d : Display) (x y : Int) : Bool := d.pixels.get (Point.ofInts x y).cell

def clear (d : Display) : Display := { d with pixels := Table.fill 11 false, dirty := true }

theorem clear_eq_fresh (d : Display) : d.clear = fresh := rfl

/-- The points under the set bits of one sprite row, from the left. -/
def rowPoints (x y : Int) (b : Byte) : List Point :=
  ((List.range 8).filter b.getMsbD).map fun (column : Nat) => Point.ofInts (x + column) y

/-- The points under the set bits of a sprite whose top left corner is at `(x, y)`. -/
def spritePoints (x : Int) : (y : Int) → List Byte → List Point
  | _, [] => []
  | y, b :: rows => rowPoints x y b ++ spritePoints x (y + 1) rows

/-- Inverts one pixel; the flag is raised if it was lit. -/
def toggle (s : Table 11 Bool × Bool) (p : Point) : Table 11 Bool × Bool :=
  let lit := s.1.get p.cell
  (s.1.set p.cell (!lit), s.2 || lit)

/-- Draws a sprite at `(x, y)` and tells whether it turned a lit pixel off. -/
def draw (d : Display) (x y : Int) (sprite : List Byte) : Display × Bool :=
  let (pixels, collision) := (spritePoints x y sprite).foldl toggle (d.pixels, false)
  ({ pixels, dirty := true }, collision)

/-- The picture: the rows from the top, each from the left. -/
def frame (d : Display) : List (List Bool) :=
  (List.range height).map fun y => (List.range width).map fun x =>
    d.pixels.get (BitVec.ofNat 11 (width * y + x))

theorem length_of_mem_frame (d : Display) {row : List Bool} (mem : row ∈ d.frame) :
    row.length = 64 := by
  obtain ⟨y, -, rfl⟩ := List.mem_map.mp mem
  rw [List.length_map, List.length_range]
  rfl

def litCount (d : Display) : Nat := d.pixels.toList.count true

inductive Call
  | draw (x y : Int) (sprite : List Byte)
  | clear
  | pixel (x y : Int)
  | frame
  | look
deriving DecidableEq

def perform (d : Display) : Call → Display × Answer
  | .draw x y sprite => ((d.draw x y sprite).1, .flag (d.draw x y sprite).2)
  | .clear => (d.clear, .done)
  | .pixel x y => (d, .flag (d.pixel x y))
  | .frame => (d, .frame d.frame)
  | .look => ({ d with dirty := false }, .done)

end Display

end ChipEight
