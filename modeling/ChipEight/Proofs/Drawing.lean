import ChipEight.Proofs.Sprite

/-! # Drawing one sprite after another

A list of drawings toggles the points of all its sprites, so what it leaves of a pixel is told by how
often the pixel occurs among them (`pixel_drawAll`): the order does not matter, and drawing everything
again takes it off. Positions enter by their remainders only, so the whole screen can be moved on its
torus, with the drawings. -/
namespace ChipEight

namespace Point

/-- Every cell is the cell of a point. -/
theorem cell_ofInts (i : BitVec 11) :
    (ofInts (i.toNat % 64 : Nat) (i.toNat / 64 : Nat)).cell = i := by
  have inside := i.isLt
  refine BitVec.eq_of_toNat_eq ?_
  rw [toNat_cell, ofInts, BitVec.toNat_ofInt, BitVec.toNat_ofInt]
  omega

end Point

/-- A sprite and the place where it is drawn. -/
structure Drawing where
  x : Int
  y : Int
  sprite : List Byte
deriving DecidableEq

namespace Drawing

/-- The points that the set bits fall on. -/
def points (a : Drawing) : List Point := Display.spritePoints a.x a.y a.sprite

/-- The same sprite in another place. -/
def move (dx dy : Int) (a : Drawing) : Drawing := { a with x := a.x + dx, y := a.y + dy }

theorem count_points_move (a : Drawing) (dx dy px py : Int) :
    (a.move dx dy).points.count (Point.ofInts px py) =
      a.points.count (Point.ofInts (px - dx) (py - dy)) := by
  rw [points, points, Sprite.spritePoints_eq, Sprite.spritePoints_eq, List.count_eq_countP,
    List.count_eq_countP, List.countP_map, List.countP_map]
  refine List.countP_congr fun bit _ => ?_
  simp only [move, Sprite.point, Function.comp, beq_iff_eq, Point.ofInts_eq_iff]
  omega

/-- Only the remainders of the place count. -/
theorem points_congr {a b : Drawing} (x : b.x % 64 = a.x % 64) (y : b.y % 32 = a.y % 32)
    (sprite : b.sprite = a.sprite) : b.points = a.points := by
  rw [points, points, sprite, Sprite.spritePoints_eq, Sprite.spritePoints_eq]
  refine List.map_congr_left fun bit _ => ?_
  rw [Sprite.point, Sprite.point, Point.ofInts_eq_iff]
  omega

end Drawing

namespace Display

variable {d e : Display}

theorem ext_pixel (pixels : ∀ px py : Int, d.pixel px py = e.pixel px py)
    (dirty : d.dirty = e.dirty) : d = e := by
  have cells : d.pixels = e.pixels := by
    refine Table.ext_get fun i => ?_
    rw [← Point.cell_ofInts i]
    exact pixels _ _
  obtain ⟨_, _⟩ := d
  obtain ⟨_, _⟩ := e
  cases cells
  cases dirty
  rfl

theorem rowPoints_eq_nil_iff {x y : Int} {b : Byte} : rowPoints x y b = [] ↔ b = 0 := by
  rw [rowPoints, List.map_eq_nil_iff, List.filter_eq_nil_iff]
  constructor
  · intro none
    refine BitVec.eq_of_getMsbD_eq fun i inside => ?_
    exact (Bool.eq_false_iff.mpr (none i (List.mem_range.mpr inside))).trans BitVec.getMsbD_zero.symm
  · intro zero i _
    rw [zero, Bool.not_eq_true]
    exact BitVec.getMsbD_zero

theorem spritePoints_eq_nil_iff {x y : Int} {sprite : List Byte} :
    spritePoints x y sprite = [] ↔ ∀ b ∈ sprite, b = 0 := by
  induction sprite generalizing y with
  | nil => simp [spritePoints]
  | cons b rows ih => rw [spritePoints, List.append_eq_nil_iff, rowPoints_eq_nil_iff, ih,
      List.forall_mem_cons]

/-! ## One drawing -/

theorem pixel_draw_points (d : Display) (a : Drawing) (px py : Int) :
    (d.draw a.x a.y a.sprite).1.pixel px py =
      (d.pixel px py ^^ decide (a.points.count (Point.ofInts px py) % 2 = 1)) :=
  get_foldl_toggle _ _ _ _

theorem collision_draw_points (d : Display) (a : Drawing) :
    (d.draw a.x a.y a.sprite).2 = true ↔
      ∃ px py : Int, 2 ≤ (d.pixel px py).toNat + a.points.count (Point.ofInts px py) := by
  refine (d.collision_draw_iff a.x a.y a.sprite).trans ⟨?_, ?_⟩
  · intro ⟨p, two⟩
    obtain ⟨px, py, -, -, rfl⟩ := p.exists_ofInts
    exact ⟨px, py, two⟩
  · intro ⟨px, py, two⟩
    exact ⟨Point.ofInts px py, two⟩

/-! ## A list of drawings -/

/-- Draws one sprite after another, and tells of each whether it collided. -/
def drawAll (d : Display) : List Drawing → Display × List Bool
  | [] => (d, [])
  | a :: as =>
    let (drawn, collision) := d.draw a.x a.y a.sprite
    let (last, collisions) := drawn.drawAll as
    (last, collision :: collisions)

theorem decide_odd_add (m n : Nat) :
    decide ((m + n) % 2 = 1) = (decide (m % 2 = 1) ^^ decide (n % 2 = 1)) := by
  induction m with
  | zero => simp
  | succ m ih => rw [Nat.succ_add, odd_succ, odd_succ, ih, Bool.not_xor]

/-- What the drawings leave of a pixel depends on how often it occurs among the points of them all. -/
theorem pixel_drawAll (d : Display) (as : List Drawing) (px py : Int) :
    (d.drawAll as).1.pixel px py = (d.pixel px py ^^
      decide ((as.flatMap Drawing.points).count (Point.ofInts px py) % 2 = 1)) := by
  induction as generalizing d with
  | nil => simp [drawAll]
  | cons a as ih =>
    rw [List.flatMap_cons, List.count_append, decide_odd_add, ← Bool.xor_assoc, ← pixel_draw_points]
    exact ih _

theorem dirty_drawAll (d : Display) (as : List Drawing) :
    (d.drawAll as).1.dirty = (d.dirty || !as.isEmpty) := by
  induction as generalizing d with
  | nil => simp [drawAll]
  | cons a as ih =>
    have drawn : (d.draw a.x a.y a.sprite).1.dirty = true := rfl
    have rest := ih (d.draw a.x a.y a.sprite).1
    rw [drawn, Bool.true_or] at rest
    rw [List.isEmpty_cons, Bool.not_false, Bool.or_true]
    exact rest

theorem drawAll_perm (d : Display) {as bs : List Drawing} (order : as.Perm bs) :
    (d.drawAll as).1 = (d.drawAll bs).1 := by
  refine ext_pixel (fun px py => ?_) ?_
  · rw [pixel_drawAll, pixel_drawAll, (order.flatMap_right Drawing.points).count_eq]
  · rw [dirty_drawAll, dirty_drawAll, order.isEmpty_eq]

theorem drawAll_again (d : Display) {as again : List Drawing} (order : again.Perm as) :
    ((d.drawAll as).1.drawAll again).1 = { d with dirty := d.dirty || !as.isEmpty } := by
  rw [drawAll_perm _ order]
  refine ext_pixel (fun px py => ?_) ?_
  · rw [pixel_drawAll, pixel_drawAll, Bool.xor_assoc, Bool.xor_self, Bool.xor_false]
    rfl
  · rw [dirty_drawAll, dirty_drawAll, Bool.or_assoc, Bool.or_self]

/-! ## The torus -/

/-- The screen moved by `(dx, dy)`. What leaves it at one edge enters at the other. -/
def shift (dx dy : Int) (d : Display) : Display :=
  { d with
    pixels := ⟨Vector.ofFn fun cell =>
      d.pixel ((cell.val % 64 : Nat) - dx) ((cell.val / 64 : Nat) - dy)⟩ }

theorem pixel_shift (d : Display) (dx dy px py : Int) :
    (d.shift dx dy).pixel px py = d.pixel (px - dx) (py - dy) := by
  have column : (BitVec.ofInt 6 px).toNat = (px % 64).toNat := BitVec.toNat_ofInt _
  have row : (BitVec.ofInt 5 py).toNat = (py % 32).toNat := BitVec.toNat_ofInt _
  have place : (Point.ofInts px py).cell.toNat = 64 * (py % 32).toNat + (px % 64).toNat := by
    rw [Point.toNat_cell, Point.ofInts, column, row]
  have same : Point.ofInts (((Point.ofInts px py).cell.toNat % 64 : Nat) - dx)
      (((Point.ofInts px py).cell.toNat / 64 : Nat) - dy) = Point.ofInts (px - dx) (py - dy) := by
    rw [Point.ofInts_eq_iff, place]
    omega
  rw [pixel, shift, Table.get_eq_getElem, Vector.getElem_ofFn, pixel, pixel, same]

theorem draw_shift (d : Display) (a : Drawing) (dx dy : Int) :
    (d.shift dx dy).draw (a.x + dx) (a.y + dy) a.sprite =
      ((d.draw a.x a.y a.sprite).1.shift dx dy, (d.draw a.x a.y a.sprite).2) := by
  refine Prod.ext ?_ ?_
  · refine ext_pixel (fun px py => ?_) rfl
    rw [pixel_shift, pixel_draw_points, ← pixel_shift, ← a.count_points_move]
    exact pixel_draw_points _ (a.move dx dy) px py
  · refine Bool.eq_iff_iff.mpr ?_
    refine (collision_draw_points _ (a.move dx dy)).trans ?_
    rw [collision_draw_points]
    simp only [pixel_shift, Drawing.count_points_move]
    constructor
    · intro ⟨px, py, two⟩
      exact ⟨px - dx, py - dy, two⟩
    · intro ⟨px, py, two⟩
      exact ⟨px + dx, py + dy, by rwa [Int.add_sub_cancel, Int.add_sub_cancel]⟩

theorem drawAll_shift (d : Display) (as : List Drawing) (dx dy : Int) :
    (d.shift dx dy).drawAll (as.map (Drawing.move dx dy)) =
      ((d.drawAll as).1.shift dx dy, (d.drawAll as).2) := by
  induction as generalizing d with
  | nil => rfl
  | cons a as ih =>
    simp only [List.map_cons, drawAll, Drawing.move, draw_shift, ih]

/-! ## The same sprite twice -/

/-- The second of two equal drawings turns off what the first one lights, so one of them collides. -/
theorem collision_twice (d : Display) {a b : Drawing} (low : a.sprite.length ≤ 32)
    (x : b.x % 64 = a.x % 64) (y : b.y % 32 = a.y % 32) (sprite : b.sprite = a.sprite) :
    true ∈ (d.drawAll [a, b]).2 ↔ ∃ row ∈ a.sprite, row ≠ 0 := by
  have same : b.points = a.points := Drawing.points_congr x y sprite
  have bits : (∃ row ∈ a.sprite, row ≠ 0) ↔ a.points ≠ [] := by
    rw [Drawing.points, ne_eq, spritePoints_eq_nil_iff]
    push Not
    rfl
  have once (p : Point) : a.points.count p ≤ 1 :=
    List.nodup_iff_count_le_one.mp (Sprite.nodup_spritePoints a.x a.y low) p
  have either : true ∈ (d.drawAll [a, b]).2 ↔ (d.draw a.x a.y a.sprite).2 = true ∨
      ((d.draw a.x a.y a.sprite).1.draw b.x b.y b.sprite).2 = true :=
    List.mem_pair.trans (or_congr eq_comm eq_comm)
  rw [either, bits, collision_draw_points, collision_draw_points, same]
  constructor
  · intro collides none
    have blank (e : Display) :
        ¬ ∃ px py : Int, 2 ≤ (e.pixel px py).toNat + a.points.count (Point.ofInts px py) := by
      intro ⟨px, py, two⟩
      have most := Bool.toNat_le (e.pixel px py)
      rw [none, List.count_nil] at two
      omega
    exact collides.elim (blank d) (blank _)
  · intro some
    obtain ⟨p, mem⟩ := List.exists_mem_of_ne_nil _ some
    obtain ⟨px, py, -, -, rfl⟩ := p.exists_ofInts
    have hit : a.points.count (Point.ofInts px py) = 1 :=
      Nat.le_antisymm (once _) (List.count_pos_iff.mpr mem)
    cases lit : d.pixel px py with
    | true => exact .inl ⟨px, py, by rw [lit, hit]; decide⟩
    | false => exact .inr ⟨px, py, by rw [pixel_draw_points, lit, hit]; decide⟩

/-- **The algebra of drawing.** Any order of the drawings leaves the same screen, and drawing all of
them again, in any order, leaves the screen that there was before. Moved on its torus, the screen takes
the drawings at the moved places to the moved result, with the same collisions. A sprite that is no
higher than the screen and is drawn twice in one place of the torus collides unless it is blank. -/
theorem drawings_commute_and_cancel :
    (∀ (d : Display) (as bs : List Drawing), as.Perm bs → (d.drawAll as).1 = (d.drawAll bs).1) ∧
    (∀ (d : Display) (as again : List Drawing), again.Perm as →
      ((d.drawAll as).1.drawAll again).1 = { d with dirty := d.dirty || !as.isEmpty }) ∧
    (∀ (d : Display) (as : List Drawing) (dx dy : Int),
      (∀ px py : Int, (d.shift dx dy).pixel px py = d.pixel (px - dx) (py - dy)) ∧
      (d.shift dx dy).drawAll (as.map (Drawing.move dx dy)) =
        ((d.drawAll as).1.shift dx dy, (d.drawAll as).2)) ∧
    ∀ (d : Display) (a b : Drawing), a.sprite.length ≤ 32 →
      b.x % 64 = a.x % 64 → b.y % 32 = a.y % 32 → b.sprite = a.sprite →
      (true ∈ (d.drawAll [a, b]).2 ↔ ∃ row ∈ a.sprite, row ≠ 0) := by
  refine ⟨fun d as bs => d.drawAll_perm, fun d as again => d.drawAll_again, ?_, ?_⟩
  · intro d as dx dy
    exact ⟨d.pixel_shift dx dy, d.drawAll_shift as dx dy⟩
  · intro d a b low x y sprite
    exact d.collision_twice low x y sprite

/-- Two sprites that overlap over the corner of the screen, the second one on the first, and the first
one again a whole screen away. -/
theorem drawings_over_the_corner :
    let d := fresh
    let a : Drawing := ⟨62, 31, [0xF0, 0x90]⟩
    let b : Drawing := ⟨-63, 0, [0x81]⟩
    let away := a.move 64 (-32)
    (d.drawAll [a, b]).1 = (d.drawAll [b, a]).1 ∧
      ((d.drawAll [a, b]).1.drawAll [b, a]).1 = { d with dirty := true } ∧
      (d.drawAll [a, b]).2 = [false, true] ∧
      ((d.shift 3 (-40)).drawAll ([a, b].map (Drawing.move 3 (-40)))).2 = [false, true] ∧
      true ∈ (d.drawAll [a, away]).2 := by
  intro d a b away
  obtain ⟨commute, cancel, moves, twice⟩ := drawings_commute_and_cancel
  have collisions : (d.drawAll [a, b]).2 = [false, true] := by decide +kernel
  have order : [a, b].Perm [b, a] := List.Perm.swap b a []
  have corner : ∃ row ∈ a.sprite, row ≠ 0 := ⟨0xF0, List.mem_cons_self, by decide⟩
  refine ⟨commute d _ _ order, cancel d _ _ order.symm, collisions, ?_, ?_⟩
  · rw [(moves d [a, b] 3 (-40)).2]
    exact collisions
  · exact (twice d a away (by decide) (by decide) (by decide) rfl).mpr corner

end Display

end ChipEight
