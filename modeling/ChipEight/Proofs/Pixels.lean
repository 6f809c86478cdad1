import ChipEight.Proofs.Drawing
import ChipEight.Window

/-! # From the screen to the window

A pixel is counted in five ways on its way to the eye: as a cell of the screen, by row and column in a
picture, by row and column in an array of bytes, by column and row on a surface, and by the point of
the window. Rows are slices of the cells (`frame_eq_slices`), colours are put in place of pixels
(`Palette.paint_of_two`), and each becomes a square of points (`item?_picture`). -/
namespace ChipEight

section Rows

variable {α β : Type}

/-- The entry in column `x` of row `y`. -/
def item? (rows : List (List α)) (x y : Nat) : Option α := rows[y]?.bind (·[x]?)

theorem item?_map (f : α → β) (rows : List (List α)) (x y : Nat) :
    item? (rows.map (List.map f)) x y = (item? rows x y).map f := by
  unfold item?
  rw [List.getElem?_map]
  cases rows[y]? with
  | none => rfl
  | some row => exact List.getElem?_map

/-- The first `n` pieces of `k` elements each. -/
def slices (k : Nat) (xs : List α) (n : Nat) : List (List α) :=
  (List.range n).map fun y => (xs.drop (k * y)).take k

theorem slices_succ (k : Nat) (xs : List α) (n : Nat) :
    slices k xs (n + 1) = xs.take k :: slices k (xs.drop k) n := by
  unfold slices
  rw [List.range_succ_eq_map, List.map_cons, List.map_map]
  congr 1
  refine List.map_congr_left fun y _ => ?_
  simp only [Function.comp, List.drop_drop, Nat.mul_succ, Nat.add_comm k]

theorem map_slices (f : α → β) (k : Nat) (xs : List α) (n : Nat) :
    slices k (xs.map f) n = (slices k xs n).map (List.map f) := by
  unfold slices
  rw [List.map_map]
  refine List.map_congr_left fun y _ => ?_
  simp only [Function.comp, List.map_take, List.map_drop]

theorem flatten_slices {k n : Nat} {xs : List α} (length : xs.length = k * n) :
    (slices k xs n).flatten = xs := by
  induction n generalizing xs with
  | zero => exact (List.eq_nil_of_length_eq_zero length).symm
  | succ n ih =>
    have rest : (xs.drop k).length = k * n := by
      rw [List.length_drop, length, Nat.mul_succ, Nat.add_sub_cancel]
    rw [slices_succ, List.flatten_cons, ih rest, List.take_append_drop]

end Rows

/-! ## The screen -/

namespace Display

variable {d : Display} {x y : Nat}

/-- The pixels as bytes, 1 for a lit one, row after row. -/
def bytes (d : Display) : List Byte := d.pixels.toList.map fun lit => if lit then 1 else 0

/-- The bytes cut up into rows. -/
def array (d : Display) : List (List Byte) := slices width d.bytes height

theorem cell_eq (hx : x < 64) (hy : y < 32) :
    BitVec.ofNat 11 (width * y + x) = (Point.ofInts x y).cell := by
  refine BitVec.eq_of_toNat_eq ?_
  rw [Point.toNat_cell, Point.ofInts, BitVec.toNat_ofInt, BitVec.toNat_ofInt, BitVec.toNat_ofNat,
    width]
  omega

theorem item?_frame (hx : x < 64) (hy : y < 32) : item? d.frame x y = some (d.pixel x y) := by
  have left : (List.range width)[x]? = some x := List.getElem?_range hx
  have low : (List.range height)[y]? = some y := List.getElem?_range hy
  rw [item?, frame, List.getElem?_map, low, Option.map_some, Option.bind_some, List.getElem?_map,
    left, Option.map_some, cell_eq hx hy, pixel]

theorem frame_eq_slices (d : Display) : d.frame = slices width d.pixels.toList height := by
  refine List.map_congr_left fun y below => ?_
  have low : y < 32 := List.mem_range.mp below
  have cells : d.pixels.toList.length = 2048 := Vector.length_toList
  refine List.ext_getElem ?_ fun x inside inside' => ?_
  · rw [List.length_map, List.length_range, List.length_take, List.length_drop, cells, width]
    omega
  · have left : x < 64 := by
      rw [List.length_map, List.length_range] at inside
      exact inside
    have number : (BitVec.ofNat 11 (width * y + x)).toNat = width * y + x := by
      rw [BitVec.toNat_ofNat, width]
      omega
    rw [List.getElem_map, List.getElem_range, List.getElem_take, List.getElem_drop,
      Table.get_eq_getElem]
    simp only [number]
    exact (Vector.getElem_toList _).symm

theorem array_eq (d : Display) :
    d.array = d.frame.map (List.map fun lit => if lit then 1 else 0) := by
  rw [array, bytes, map_slices, frame_eq_slices]

theorem flatten_frame (d : Display) : d.frame.flatten = d.pixels.toList := by
  rw [frame_eq_slices]
  exact flatten_slices Vector.length_toList

theorem litCount_eq_count (d : Display) : d.litCount = d.array.flatten.count 1 := by
  have bytes : d.array.flatten = d.pixels.toList.map fun on => if on then 1 else 0 := by
    rw [array_eq, ← List.map_flatten, flatten_frame]
  rw [bytes, litCount]
  generalize d.pixels.toList = lits
  induction lits with
  | nil => rfl
  | cons lit lits ih =>
    rw [List.count_cons, ih, List.map_cons, List.count_cons]
    cases lit with
    | false => rfl
    | true => rfl

theorem length_frame (d : Display) : d.frame.length = 32 := by
  rw [frame, List.length_map, List.length_range]
  rfl

/-- A pixel is lit if it is so in some row of the picture. -/
theorem exists_pixel_iff (d : Display) :
    (∃ x y : Nat, x < 64 ∧ y < 32 ∧ d.pixel x y = true) ↔ ∃ row ∈ d.frame, true ∈ row := by
  constructor
  · rintro ⟨x, y, hx, hy, lit⟩
    obtain ⟨row, found, inside⟩ := Option.bind_eq_some_iff.mp (item?_frame (d := d) hx hy)
    rw [lit] at inside
    exact ⟨row, List.mem_of_getElem? found, List.mem_of_getElem? inside⟩
  · rintro ⟨row, mem, lit⟩
    obtain ⟨y, below, rfl⟩ := List.mem_map.mp mem
    obtain ⟨x, left, cell⟩ := List.mem_map.mp lit
    have hx : x < 64 := List.mem_range.mp left
    have hy : y < 32 := List.mem_range.mp below
    rw [cell_eq hx hy] at cell
    exact ⟨x, y, hx, hy, cell⟩

end Display

/-! ## Colours -/

namespace Palette

/-- A row has no colours in a palette of one if a pixel of it is lit. -/
theorem mapM_pick_of_one (c : Colour) (row : List Bool) :
    row.mapM (pick [c]) =
      if true ∈ row then .error (.colourMissing 1 1) else .ok (row.map fun _ => c) := by
  induction row with
  | nil => rfl
  | cons on row ih =>
    rw [List.mapM_cons, ih]
    cases on with
    | true => simp [pick, bind, Except.bind]
    | false =>
      by_cases lit : true ∈ row
      · simp [pick, lit, bind, Except.bind]
      · simp [pick, lit, bind, Except.bind, pure, Except.pure]

theorem paint_of_one {rows : List (List Bool)} (even : isRectangular rows = true) (c : Colour) :
    (ofColours [c]).paint rows =
      if ∃ row ∈ rows, true ∈ row then .error (.colourMissing 1 1)
      else .ok (rows.map (List.map fun _ => c)) := by
  rw [paint_ofColours even]
  clear even
  induction rows with
  | nil => simp [pure, Except.pure]
  | cons row rows ih =>
    rw [List.mapM_cons, ih, mapM_pick_of_one]
    by_cases here : true ∈ row
    · simp [here, bind, Except.bind]
    · by_cases there : ∃ row ∈ rows, true ∈ row
      · simp [here, there, bind, Except.bind]
      · simp [here, there, bind, Except.bind, pure, Except.pure]

end Palette

/-! ## The window -/

namespace Window

variable {w : Window}

/-- Tries to show an array, of which every entry that is not 0 is a lit pixel. A refusal leaves the
window as it was. -/
def tryShow (w : Window) (array : List (List Byte)) : Window × Except Refusal Answer :=
  match w.render (array.map (List.map fun b => decide (b ≠ 0))) with
  | .ok w => (w, .ok .done)
  | .error refusal => (w, .error refusal)

theorem lit_array (d : Display) : d.array.map (List.map fun b => decide (b ≠ 0)) = d.frame := by
  rw [Display.array_eq, List.map_map]
  refine (List.map_congr_left fun row _ => ?_).trans (List.map_id _)
  rw [Function.comp, List.map_map]
  refine (List.map_congr_left fun lit _ => ?_).trans (List.map_id _)
  cases lit with
  | false => rfl
  | true => rfl

theorem getElem?_enlarge {α : Type} {scale : Nat} (pos : 0 < scale) (xs : List α) (i : Nat) :
    (enlarge scale xs)[i]? = xs[i / scale]? := by
  unfold enlarge
  induction xs generalizing i with
  | nil => simp
  | cons x xs ih =>
    rw [List.flatMap_cons]
    rcases Nat.lt_or_ge i scale with first | later
    · have inside : i < (List.replicate scale x).length := by rwa [List.length_replicate]
      rw [List.getElem?_append_left inside, List.getElem?_replicate, if_pos first,
        Nat.div_eq_of_lt first]
      rfl
    · have behind : (List.replicate scale x).length ≤ i := by rwa [List.length_replicate]
      rw [List.getElem?_append_right behind, List.length_replicate, ih,
        Nat.div_eq_sub_div pos later, List.getElem?_cons_succ]

/-- Each colour of the surface is a square of the window. -/
theorem item?_picture (pos : 0 < w.scale) (x y : Nat) :
    item? w.picture x y = item? w.surface (x / w.scale) (y / w.scale) := by
  unfold item? picture
  rw [getElem?_enlarge pos, List.getElem?_map]
  cases w.surface[y / w.scale]? with
  | none => rfl
  | some row => exact getElem?_enlarge pos row x

end Window

/-- A rectangle of points, each with a colour for its column and row. -/
structure Surface where
  width : Nat
  height : Nat
  colour : Nat → Nat → Colour

/-- What copies colours to surfaces, given column by column, and stretches a surface to another size.
A point of the stretched one has the colour of the point that lies in the same place of the whole. -/
structure Painter where
  blit : Surface → List (List Colour) → Surface
  stretch : Surface → Nat → Nat → Surface
  width_blit (s : Surface) (columns : List (List Colour)) : (blit s columns).width = s.width
  height_blit (s : Surface) (columns : List (List Colour)) : (blit s columns).height = s.height
  colour_blit {s : Surface} {columns : List (List Colour)} {x y : Nat} {c : Colour} :
    columns.length = s.width → (∀ column ∈ columns, column.length = s.height) →
      item? columns y x = some c → (blit s columns).colour x y = c
  colour_stretch {s : Surface} {width height x y : Nat} : x < width → y < height →
    (stretch s width height).colour x y = s.colour (x * s.width / width) (y * s.height / height)

/-- Rows made columns. -/
def swapAxes (rows : List (List Colour)) : List (List Colour) :=
  (List.range Display.width).map fun x => rows.map fun row => row.getD x Colour.black

theorem item?_swapAxes {rows : List (List Colour)} {x y : Nat} {c : Colour} (hx : x < 64)
    (entry : item? rows x y = some c) : item? (swapAxes rows) y x = some c := by
  obtain ⟨row, found, inside⟩ := Option.bind_eq_some_iff.mp entry
  have left : (List.range Display.width)[x]? = some x := List.getElem?_range hx
  rw [item?, swapAxes, List.getElem?_map, left, Option.map_some, Option.bind_some,
    List.getElem?_map, found, Option.map_some, List.getD_eq_getElem?_getD, inside, Option.getD_some]

namespace Painter

/-- What a window of a scale shows of rows of colours that are painted on a surface of the size of the
screen. -/
def paint (p : Painter) (buffer : Surface) (scale : Nat) (rows : List (List Colour)) : Surface :=
  p.stretch (p.blit buffer (swapAxes rows)) (Display.width * scale) (Display.height * scale)

theorem colour_paint (p : Painter) {buffer : Surface} (width : buffer.width = 64)
    (height : buffer.height = 32) {scale : Nat} {rows : List (List Colour)} (full : rows.length = 32)
    {x y : Nat} {c : Colour} (hx : x < 64 * scale) (hy : y < 32 * scale)
    (entry : item? rows (x / scale) (y / scale) = some c) :
    (p.paint buffer scale rows).colour x y = c := by
  have column : x * 64 / (64 * scale) = x / scale := by
    rw [Nat.mul_comm x, Nat.mul_div_mul_left _ _ (by decide)]
  have row : y * 32 / (32 * scale) = y / scale := by
    rw [Nat.mul_comm y, Nat.mul_div_mul_left _ _ (by decide)]
  have left : x / scale < 64 := Nat.div_lt_of_lt_mul (by rwa [Nat.mul_comm])
  have stretched : (p.paint buffer scale rows).colour x y =
      (p.blit buffer (swapAxes rows)).colour (x * 64 / (64 * scale)) (y * 32 / (32 * scale)) := by
    have same := p.colour_stretch (s := p.blit buffer (swapAxes rows)) hx hy
    rwa [p.width_blit, p.height_blit, width, height] at same
  rw [stretched, column, row]
  refine p.colour_blit ?_ ?_ (item?_swapAxes left entry)
  · rw [width, swapAxes, List.length_map, List.length_range]
    rfl
  · intro column mem
    obtain ⟨x, -, rfl⟩ := List.mem_map.mp mem
    rw [List.length_map, full, height]

/-- A painter that has no surfaces but these. -/
def plain : Painter where
  blit s columns := { s with colour := fun x y => (item? columns y x).getD (s.colour x y) }
  stretch s width height :=
    { width, height, colour := fun x y => s.colour (x * s.width / width) (y * s.height / height) }
  width_blit _ _ := rfl
  height_blit _ _ := rfl
  colour_blit _ _ entry := by simp only [entry, Option.getD_some]
  colour_stretch _ _ := rfl

end Painter

namespace Window

variable {w : Window}

theorem tryShow_of_two {dark lit : Colour} {others : List Colour}
    (palette : w.palette = Palette.ofColours (dark :: lit :: others)) (d : Display) :
    ∃ shown, w.tryShow d.array = (shown, .ok .done) ∧
      shown.surface = d.frame.map (List.map fun on => if on then lit else dark) ∧
      shown.scale = w.scale ∧ shown.framesRendered = w.framesRendered + 1 := by
  unfold tryShow render
  rw [lit_array, palette, Palette.paint_of_two d.isRectangular_frame]
  exact ⟨_, rfl, rfl, rfl, rfl⟩

theorem tryShow_of_one {c : Colour} (palette : w.palette = Palette.ofColours [c]) (d : Display) :
    ((∃ row ∈ d.frame, true ∈ row) → w.tryShow d.array = (w, .error (.colourMissing 1 1))) ∧
      ((¬ ∃ row ∈ d.frame, true ∈ row) → ∃ shown, w.tryShow d.array = (shown, .ok .done)) := by
  unfold tryShow render
  rw [lit_array, palette, Palette.paint_of_one d.isRectangular_frame]
  constructor
  · intro lit
    rw [if_pos lit]
  · intro dark
    rw [if_neg dark]
    exact ⟨_, rfl⟩

/-- **The window shows the pixels.** The picture, the array and the single pixels of a screen agree,
and the count of the lit ones is that of the picture. A window whose palette has two colours or more
shows the array of any screen: each of its points has the colour of the pixel that the scale leads back
to, and so it has with any painter that copies columns to a surface and stretches it. With a palette
of one colour an array is refused exactly if a pixel is lit, and the window stays as it was. -/
theorem window_shows_pixels :
    (∀ d : Display,
      (d.frame.length = 32 ∧ ∀ row ∈ d.frame, row.length = 64) ∧
      (∀ x y : Nat, x < 64 → y < 32 →
        item? d.frame x y = some (d.pixel x y) ∧
          item? d.array x y = some (if d.pixel x y then 1 else 0)) ∧
      d.litCount = d.frame.flatten.count true ∧ d.litCount = d.array.flatten.count 1) ∧
    (∀ (d : Display) (w : Window) (dark lit : Colour) (others : List Colour),
      w.palette = Palette.ofColours (dark :: lit :: others) → 0 < w.scale →
      ∃ shown, w.tryShow d.array = (shown, .ok .done) ∧
        shown.framesRendered = w.framesRendered + 1 ∧
        ∀ x y : Nat, x < 64 * w.scale → y < 32 * w.scale →
          let colour := if d.pixel (x / w.scale : Nat) (y / w.scale : Nat) then lit else dark
          item? shown.picture x y = some colour ∧
            ∀ (p : Painter) (buffer : Surface), buffer.width = 64 → buffer.height = 32 →
              (p.paint buffer w.scale shown.surface).colour x y = colour) ∧
    ∀ (d : Display) (w : Window) (c : Colour), w.palette = Palette.ofColours [c] →
      let lit := ∃ x y : Nat, x < 64 ∧ y < 32 ∧ d.pixel x y = true
      (lit → w.tryShow d.array = (w, .error (.colourMissing 1 1))) ∧
        (¬ lit → ∃ shown, w.tryShow d.array = (shown, .ok .done)) := by
  refine ⟨fun d => ⟨⟨?_, ?_⟩, fun x y hx hy => ⟨Display.item?_frame hx hy, ?_⟩, ?_, ?_⟩, ?_, ?_⟩
  · exact d.length_frame
  · intro row mem
    exact d.length_of_mem_frame mem
  · rw [Display.array_eq, item?_map, Display.item?_frame hx hy, Option.map_some]
  · rw [Display.flatten_frame, Display.litCount]
  · exact d.litCount_eq_count
  · intro d w dark lit others palette pos
    obtain ⟨shown, shows, surface, scale, rendered⟩ := tryShow_of_two palette d
    refine ⟨shown, shows, rendered, fun x y hx hy => ?_⟩
    intro colour
    have left : x / w.scale < 64 := Nat.div_lt_of_lt_mul (by rwa [Nat.mul_comm])
    have low : y / w.scale < 32 := Nat.div_lt_of_lt_mul (by rwa [Nat.mul_comm])
    have entry : item? shown.surface (x / w.scale) (y / w.scale) = some colour := by
      rw [surface, item?_map, Display.item?_frame left low, Option.map_some]
    constructor
    · rw [item?_picture (by rwa [scale]), scale, entry]
    · intro p buffer width height
      refine p.colour_paint width height ?_ hx hy entry
      rw [surface, List.length_map, d.length_frame]
  · intro d w c palette lit
    obtain ⟨refused, shows⟩ := tryShow_of_one palette d
    exact ⟨fun some => refused (d.exists_pixel_iff.mp some),
      fun none => shows fun some => none (d.exists_pixel_iff.mpr some)⟩

/-- A sprite over the corner of the screen, in a window of scale three with a colour to spare. Its
top right point lies on the left edge, and below it is the top row. -/
theorem window_shows_corner :
    let d := (Display.fresh.draw 62 31 [0xD0, 0x80]).1
    let green : Colour := ⟨0, 255, 0⟩
    let w : Window := { scale := 3, palette := Palette.ofColours [.black, green, .white] }
    let narrow : Window := { scale := 3, palette := Palette.ofColours [green] }
    let buffer : Surface := ⟨64, 32, fun _ _ => .white⟩
    d.pixel 1 31 = true ∧ d.pixel 31 1 = false ∧ d.pixel 62 0 = true ∧
      item? d.array 1 31 = some 1 ∧ d.litCount = 4 ∧ d.frame.flatten.count true = 4 ∧
      (∃ shown, w.tryShow d.array = (shown, .ok .done) ∧ shown.framesRendered = 1 ∧
        item? shown.picture 5 93 = some green ∧ item? shown.picture 93 5 = some .black ∧
        (Painter.plain.paint buffer 3 shown.surface).colour 5 93 = green) ∧
      narrow.tryShow d.array = (narrow, .error (.colourMissing 1 1)) ∧
      ∃ shown, narrow.tryShow Display.fresh.array = (shown, .ok .done) := by
  intro d green w narrow buffer
  obtain ⟨right, swapped, below, four⟩ : d.pixel 1 31 = true ∧ d.pixel 31 1 = false ∧
      d.pixel 62 0 = true ∧ d.litCount = 4 := by
    decide +kernel
  clear_value d
  obtain ⟨screens, windows, refusals⟩ := window_shows_pixels
  obtain ⟨-, pixels, count, -⟩ := screens d
  have bit : (if d.pixel 1 31 then (1 : Byte) else 0) = 1 := if_pos right
  have entry := (pixels 1 31 (by decide) (by decide)).2.trans (congrArg some bit)
  obtain ⟨shown, shows, rendered, points⟩ := windows d w .black green [.white] rfl (by decide)
  obtain ⟨lit, painted⟩ := points 5 93 (by decide) (by decide)
  obtain ⟨dark, -⟩ := points 93 5 (by decide) (by decide)
  have places : 5 / w.scale = 1 ∧ 93 / w.scale = 31 := by decide
  rw [places.1, places.2] at lit dark
  simp only [places] at painted
  have colours : (if d.pixel 1 31 then green else .black) = green := if_pos right
  have others : (if d.pixel 31 1 then green else .black) = .black := by rw [swapped]; rfl
  refine ⟨right, swapped, below, entry, four, count.symm.trans four,
    ⟨shown, shows, rendered, lit.trans (congrArg some colours), dark.trans (congrArg some others),
      (painted Painter.plain buffer rfl rfl).trans colours⟩, ?_, ?_⟩
  · exact (refusals d narrow green rfl).1 ⟨1, 31, by decide, by decide, right⟩
  · refine (refusals Display.fresh narrow green rfl).2 ?_
    rintro ⟨x, y, -, -, lit⟩
    cases (Table.get_fill false _).symm.trans lit

end Window

end ChipEight
