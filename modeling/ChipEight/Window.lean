import ChipEight.Display
import ChipEight.Refusal

/-!
The window shows a picture of the screen: each pixel becomes a square of `scale` by `scale` points in
one of the two first colours of a palette. What the window shows follows from the last picture it was
given, and it is black before the first. A palette may ask for colours that there are not; that is
noticed when it is used.
-/

namespace ChipEight

structure Colour where
  red : Byte
  green : Byte
  blue : Byte
deriving DecidableEq

namespace Colour

/-- The colour of a window before its first picture. -/
def black : Colour := ⟨0, 0, 0⟩

def white : Colour := ⟨255, 255, 255⟩

/-- A component of a colour, if a number is one. A number that is none is named as long as a signed
word of 64 bits holds it. -/
def component (n : Int) : Except Refusal Byte :=
  if 0 ≤ n ∧ n < 256 then .ok (BitVec.ofInt 8 n)
  else if -0x8000000000000000 ≤ n ∧ n < 0x8000000000000000 then .error (.componentOutOfRange n)
  else .error .componentTooLarge

end Colour

/-- A colour as it is asked for. -/
structure Shade where
  red : Int
  green : Int
  blue : Int
deriving DecidableEq

namespace Shade

def ofColour (c : Colour) : Shade := ⟨c.red.toNat, c.green.toNat, c.blue.toNat⟩

/-- The colour that is asked for, if there is one. The first component that is no byte is named. -/
def colour (s : Shade) : Except Refusal Colour := do
  return ⟨← Colour.component s.red, ← Colour.component s.green, ← Colour.component s.blue⟩

end Shade

/-- The colours asked for, the one of dark pixels first and that of lit pixels second. -/
abbrev Palette := List Shade

namespace Palette

def ofColours (colours : List Colour) : Palette := colours.map .ofColour

def mono : Palette := ofColours [.black, .white]

/-- The colours of the palette. All of them have to exist, whether they are used or not. -/
def colours (p : Palette) : Except Refusal (List Colour) := p.mapM Shade.colour

def pick (colours : List Colour) (lit : Bool) : Except Refusal Colour :=
  let index := if lit then 1 else 0
  match colours[index]? with
  | some c => .ok c
  | none => .error (.colourMissing index colours.length)

def isRectangular (rows : List (List Bool)) : Bool :=
  rows.all fun row => row.length = (rows.headD []).length

def paintRow (p : Palette) (row : List Bool) : Except Refusal (List Colour) := do
  row.mapM (pick (← p.colours))

def paint (p : Palette) (rows : List (List Bool)) : Except Refusal (List (List Colour)) := do
  let colours ← p.colours
  if isRectangular rows then rows.mapM fun row => row.mapM (pick colours)
  else .error (.pictureRagged rows.length)

theorem component_toNat (b : Byte) : Colour.component b.toNat = .ok b := by
  have byte : (0 : Int) ≤ b.toNat ∧ (b.toNat : Int) < 256 := by
    have := b.isLt
    omega
  rw [Colour.component, if_pos byte, BitVec.ofInt_natCast, BitVec.ofNat_toNat, BitVec.setWidth_eq]

theorem colours_ofColours (cs : List Colour) : (ofColours cs).colours = .ok cs := by
  have exists_colour (c : Colour) : (Shade.ofColour c).colour = .ok c := by
    simp only [Shade.colour, Shade.ofColour, component_toNat]
    rfl
  unfold colours ofColours
  induction cs with
  | nil => rfl
  | cons c cs ih =>
    rw [List.map_cons, List.mapM_cons, exists_colour, ih]
    rfl

theorem paint_ofColours {cs : List Colour} {rows : List (List Bool)}
    (even : isRectangular rows = true) :
    (ofColours cs).paint rows = rows.mapM fun row => row.mapM (pick cs) := by
  unfold paint
  rw [colours_ofColours]
  exact if_pos even

theorem pick_of_two (dark lit : Colour) (others : List Colour) :
    pick (dark :: lit :: others) = fun on => pure (if on then lit else dark) := by
  funext on
  cases on with
  | false => rfl
  | true => rfl

theorem paint_of_two {rows : List (List Bool)} (even : isRectangular rows = true)
    (dark lit : Colour) (others : List Colour) :
    (ofColours (dark :: lit :: others)).paint rows =
      .ok (rows.map (List.map fun on => if on then lit else dark)) := by
  rw [paint_ofColours even, pick_of_two]
  simp only [List.mapM_pure]
  rfl

end Palette

theorem Display.isRectangular_frame (d : Display) : Palette.isRectangular d.frame = true := by
  refine List.all_eq_true.mpr fun row mem => decide_eq_true ?_
  rw [d.length_of_mem_frame mem]
  exact (d.length_of_mem_frame List.mem_cons_self).symm


structure Window where
  /-- The points that a pixel is wide and high. -/
  scale : Nat
  palette : Palette := Palette.mono
  /-- The colours of the pixels last shown. -/
  surface : List (List Colour) :=
    List.replicate Display.height (List.replicate Display.width Colour.black)
  /-- The picture last shown, none before the first. -/
  lastFrame : Option (List (List Bool)) := none
  framesRendered : Nat := 0
  /-- The captions set since the window was opened, the newest first. -/
  captions : List String := []
  isOpen : Bool := true

namespace Window

def defaultCaption : String := "CHIP-8"

def defaultScale : Int := 10

def width (w : Window) : Nat := Display.width * w.scale

def height (w : Window) : Nat := Display.height * w.scale

def caption (w : Window) : String := w.captions.headD defaultCaption

def setCaption (w : Window) (text : String) : Window := { w with captions := text :: w.captions }

/-- Shows a picture. If the palette does not give its colours the window stays as it was. -/
def render (w : Window) (frame : List (List Bool)) : Except Refusal Window :=
  match w.palette.paint frame with
  | .ok surface =>
    .ok { w with surface, lastFrame := some frame, framesRendered := w.framesRendered + 1 }
  | .error e => .error e

/-- A window with the colours it is opened with shows every picture whose rows are of one length. -/
theorem render_mono {w : Window} (mono : w.palette = Palette.mono)
    {rows : List (List Bool)} (even : Palette.isRectangular rows = true) :
    ∃ w', w.render rows = .ok w' ∧
      w'.palette = w.palette ∧ w'.isOpen = w.isOpen ∧ w'.captions = w.captions ∧
      w'.lastFrame = some rows := by
  unfold render
  rw [mono, Palette.mono, Palette.paint_of_two even]
  exact ⟨_, rfl, rfl, rfl, rfl, rfl⟩

/-- Each element `scale` times. -/
def enlarge {α : Type} (scale : Nat) (xs : List α) : List α := xs.flatMap (List.replicate scale)

/-- The points of the window: the rows from the top, each from the left. -/
def picture (w : Window) : List (List Colour) :=
  enlarge w.scale (w.surface.map (enlarge w.scale))

def close (w : Window) : Window := { w with isOpen := false }

end Window

end ChipEight
