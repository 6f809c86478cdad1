import Mathlib.Data.List.Nodup
import Mathlib.Data.List.ProdSigma
import ChipEight.Proofs.Footprint

/-! # Drawing a sprite

A drawing toggles one pixel after another, and the collision looks at a screen that the drawing itself
has already changed. Both come to a count: a pixel is inverted if an odd number of set bits fall on it,
and it collides if that number and its old value make two (`get_foldl_toggle`,
`collision_foldl_toggle`). -/
namespace ChipEight

namespace Point

theorem ofInts_eq_iff {x y x' y' : Int} :
    ofInts x y = ofInts x' y' ↔ x % 64 = x' % 64 ∧ y % 32 = y' % 32 := by
  simp only [ofInts, Point.mk.injEq, BitVec.toNat_eq, BitVec.toNat_ofInt]
  omega

theorem ofInts_inj {px py px' py' : Nat} (hx : px < 64) (hy : py < 32) (hx' : px' < 64)
    (hy' : py' < 32) : ofInts px py = ofInts px' py' ↔ px = px' ∧ py = py' := by
  rw [ofInts_eq_iff]
  omega

/-- Every point has coordinates on the screen. -/
theorem exists_ofInts (p : Point) : ∃ px py : Nat, px < 64 ∧ py < 32 ∧ ofInts px py = p := by
  refine ⟨p.column.toNat, p.row.toNat, p.column.isLt, p.row.isLt, ?_⟩
  have column : BitVec.ofInt 6 p.column.toNat = p.column := by simp
  have row : BitVec.ofInt 5 p.row.toNat = p.row := by simp
  rw [ofInts, column, row]

theorem toNat_cell (p : Point) : p.cell.toNat = 64 * p.row.toNat + p.column.toNat := by
  have column : p.column.toNat < 2 ^ 6 := p.column.isLt
  rw [cell, BitVec.toNat_append, ← Nat.shiftLeft_add_eq_or_of_lt column, Nat.shiftLeft_eq]
  omega

theorem cell_inj {p q : Point} : p.cell = q.cell ↔ p = q := by
  constructor
  · intro same
    have numbers := congrArg BitVec.toNat same
    have := p.column.isLt
    have := q.column.isLt
    rw [toNat_cell, toNat_cell] at numbers
    obtain ⟨column, row⟩ := p
    obtain ⟨column', row'⟩ := q
    simp only [Point.mk.injEq, BitVec.toNat_eq] at *
    omega
  · rintro rfl
    rfl

end Point

namespace Display

variable {t : Table 11 Bool} {points : List Point} {x y : Int} {sprite : List Byte}

/-! ## Toggling one pixel after another -/

theorem get_toggle (t : Table 11 Bool) (flag : Bool) (q p : Point) :
    (toggle (t, flag) q).1.get p.cell = (t.get p.cell ^^ decide (q = p)) := by
  by_cases same : q = p
  · subst same
    simp [toggle]
  · have other : q.cell ≠ p.cell := fun h => same (Point.cell_inj.mp h)
    simp [toggle, Table.get_set_of_ne _ other, same]

theorem odd_succ (n : Nat) : decide ((n + 1) % 2 = 1) = !decide (n % 2 = 1) := by
  rcases Nat.mod_two_eq_zero_or_one n with even | odd
  · simp [Nat.add_mod, even]
  · simp [Nat.add_mod, odd]

/-- A pixel is inverted as often as it occurs among the points. -/
theorem get_foldl_toggle (t : Table 11 Bool) (flag : Bool) (points : List Point) (p : Point) :
    (points.foldl toggle (t, flag)).1.get p.cell =
      (t.get p.cell ^^ decide (points.count p % 2 = 1)) := by
  induction points generalizing t flag with
  | nil => simp
  | cons q points ih =>
    rw [List.foldl_cons, ih (toggle (t, flag) q).1 (toggle (t, flag) q).2, get_toggle, List.count_cons]
    by_cases same : q = p
    · simp [same, odd_succ]
    · simp [same]

/-- A toggle that lights a dark pixel moves one from the points to the screen. -/
theorem sum_toggle {flag : Bool} {q : Point} (dark : t.get q.cell = false) (p : Point) :
    ((toggle (t, flag) q).1.get p.cell).toNat + points.count p =
      (t.get p.cell).toNat + (q :: points).count p := by
  rw [get_toggle, List.count_cons]
  by_cases same : q = p
  · subst same
    simp [dark, Nat.add_comm]
  · simp [same]

/-- There is a collision if a pixel and the points on it make two. -/
theorem collision_foldl_toggle (t : Table 11 Bool) (flag : Bool) (points : List Point) :
    (points.foldl toggle (t, flag)).2 = true ↔
      flag = true ∨ ∃ p, 2 ≤ (t.get p.cell).toNat + points.count p := by
  induction points generalizing t flag with
  | nil =>
    have none (p : Point) : ¬ 2 ≤ (t.get p.cell).toNat := by
      have := Bool.toNat_le (t.get p.cell)
      omega
    simp [none]
  | cons q points ih =>
    have raised : (toggle (t, flag) q).2 = (flag || t.get q.cell) := rfl
    rw [List.foldl_cons, ih (toggle (t, flag) q).1 (toggle (t, flag) q).2, raised, Bool.or_eq_true,
      or_assoc]
    refine or_congr_right ?_
    cases lit : t.get q.cell with
    | true =>
      have two : 2 ≤ (t.get q.cell).toNat + (q :: points).count q := by
        simp [lit]
        omega
      exact ⟨fun _ => ⟨q, two⟩, fun _ => .inl rfl⟩
    | false => simp only [sum_toggle lit, Bool.false_eq_true, false_or]

/-! ## The pixels that are lit -/

/-- A toggle lights one more pixel, or one less. -/
theorem count_toggle (t : Table 11 Bool) (flag : Bool) (q : Point) :
    ((toggle (t, flag) q).1.toList.count true : Int) =
      t.toList.count true + 1 - 2 * (t.get q.cell).toNat := by
  have inside : q.cell.toNat < t.toList.length := by
    rw [Table.toList, Vector.length_toList]
    exact q.cell.isLt
  have cell : t.toList[q.cell.toNat] = t.get q.cell := rfl
  have toggled : (toggle (t, flag) q).1.toList = t.toList.set q.cell.toNat (!t.get q.cell) :=
    Vector.toList_set q.cell.isLt
  rw [toggled, List.count_set inside, cell]
  cases lit : t.get q.cell with
  | true =>
    have some : 0 < t.toList.count true := List.count_pos_iff.mpr (lit ▸ cell ▸ List.getElem_mem inside)
    simp
    omega
  | false => simp

/-- Each point of a list without repetitions lights a pixel, or turns one off that was lit before. -/
theorem count_foldl_toggle (t : Table 11 Bool) (flag : Bool) {points : List Point}
    (once : points.Nodup) :
    ((points.foldl toggle (t, flag)).1.toList.count true : Int) =
      t.toList.count true + points.length - 2 * points.countP fun p => t.get p.cell := by
  induction points generalizing t flag with
  | nil => simp
  | cons q points ih =>
    obtain ⟨fresh, once⟩ := List.nodup_cons.mp once
    have others : points.countP (fun p => (toggle (t, flag) q).1.get p.cell) =
        points.countP fun p => t.get p.cell := by
      refine List.countP_congr fun p mem => ?_
      have other : q ≠ p := fun same => fresh (same ▸ mem)
      rw [get_toggle]
      simp [other]
    rw [List.foldl_cons, ih (toggle (t, flag) q).1 (toggle (t, flag) q).2 once, others,
      count_toggle, List.countP_cons, List.length_cons]
    cases t.get q.cell <;> simp <;> omega

end Display

/-! ## The set bits of a sprite -/

namespace Sprite

/-- The places of the set bits, each by its row and its column. Bit 7 of a row is the leftmost. -/
def bits (sprite : List Byte) : List (Nat × Nat) :=
  (List.range sprite.length ×ˢ List.range 8).filter fun (row, column) =>
    (sprite.getD row 0).getLsbD (7 - column)

/-- The number of set bits that fall on a pixel. -/
def hits (x y : Int) (sprite : List Byte) (px py : Nat) : Nat :=
  (bits sprite).countP fun (row, column) => (x + column) % 64 = px ∧ (y + row) % 32 = py

/-- The point that a bit falls on. -/
def point (x y : Int) (bit : Nat × Nat) : Point := Point.ofInts (x + bit.2) (y + bit.1)

theorem mem_bits {sprite : List Byte} {row column : Nat} : (row, column) ∈ bits sprite ↔
    row < sprite.length ∧ column < 8 ∧ (sprite.getD row 0).getLsbD (7 - column) = true := by
  simp [bits, and_assoc]

theorem nodup_bits (sprite : List Byte) : (bits sprite).Nodup :=
  (List.nodup_range.product List.nodup_range).filter _

theorem product_succ (rows columns : List Nat) :
    rows.map Nat.succ ×ˢ columns = (rows ×ˢ columns).map fun bit => (bit.1 + 1, bit.2) := by
  induction rows with
  | nil => rfl
  | cons row rows ih => simp [List.product_cons, ih]

theorem bits_cons (b : Byte) (rows : List Byte) :
    bits (b :: rows) = ((List.range 8).filter b.getMsbD).map (fun column => (0, column)) ++
      (bits rows).map fun bit => (bit.1 + 1, bit.2) := by
  have first : (List.range 8).filter (fun column => b.getLsbD (7 - column)) =
      (List.range 8).filter b.getMsbD := by
    refine List.filter_congr fun column mem => ?_
    simp [BitVec.getMsbD_eq_getLsbD, List.mem_range.mp mem]
  rw [bits, List.length_cons, List.range_succ_eq_map, List.product_cons, product_succ,
    List.filter_append, List.filter_map, List.filter_map, bits, ← first]
  rfl

/-- The points that are toggled are those of the set bits. -/
theorem spritePoints_eq (x y : Int) (sprite : List Byte) :
    Display.spritePoints x y sprite = (bits sprite).map (point x y) := by
  induction sprite generalizing y with
  | nil => rfl
  | cons b rows ih =>
    have row : Display.rowPoints x y b =
        (((List.range 8).filter b.getMsbD).map fun column => (0, column)).map (point x y) := by
      simp [Display.rowPoints, point]
    have below : point x (y + 1) = point x y ∘ fun bit => (bit.1 + 1, bit.2) := by
      funext bit
      simp [point, Int.add_assoc, Int.add_comm 1]
    rw [Display.spritePoints, ih, bits_cons, List.map_append, row, below, ← List.map_map]

theorem point_eq_iff {x y : Int} {bit : Nat × Nat} {px py : Nat} (hx : px < 64) (hy : py < 32) :
    point x y bit = Point.ofInts px py ↔ (x + bit.2) % 64 = px ∧ (y + bit.1) % 32 = py := by
  rw [point, Point.ofInts_eq_iff]
  omega

theorem count_spritePoints {x y : Int} {sprite : List Byte} {px py : Nat} (hx : px < 64)
    (hy : py < 32) :
    (Display.spritePoints x y sprite).count (Point.ofInts px py) = hits x y sprite px py := by
  rw [spritePoints_eq, List.count_eq_countP, List.countP_map]
  refine List.countP_congr fun bit _ => ?_
  simp [point_eq_iff hx hy]

theorem mem_spritePoints {x y : Int} {sprite : List Byte} {px py : Nat} (hx : px < 64)
    (hy : py < 32) :
    Point.ofInts px py ∈ Display.spritePoints x y sprite ↔ 0 < hits x y sprite px py := by
  rw [← count_spritePoints hx hy, List.count_pos_iff]

/-- The bits of a sprite that is no higher than the screen fall on different pixels. -/
theorem nodup_spritePoints (x y : Int) {sprite : List Byte} (low : sprite.length ≤ 32) :
    (Display.spritePoints x y sprite).Nodup := by
  rw [spritePoints_eq]
  refine List.Nodup.map_on (fun bit mem bit' mem' same => ?_) (nodup_bits sprite)
  obtain ⟨row, column⟩ := bit
  obtain ⟨row', column'⟩ := bit'
  obtain ⟨hr, hc, -⟩ := mem_bits.mp mem
  obtain ⟨hr', hc', -⟩ := mem_bits.mp mem'
  rw [point, point, Point.ofInts_eq_iff] at same
  simp only [Prod.mk.injEq]
  omega

/-- The number of lit pixels that some set bit falls on. -/
def struck (d : Display) (x y : Int) (sprite : List Byte) : Nat :=
  (List.range 64 ×ˢ List.range 32).countP fun (px, py) =>
    d.pixel px py = true ∧ 0 < hits x y sprite px py

theorem struck_eq (d : Display) (x y : Int) {sprite : List Byte} (low : sprite.length ≤ 32) :
    struck d x y sprite =
      (Display.spritePoints x y sprite).countP fun p => d.pixels.get p.cell := by
  rw [struck, List.countP_eq_length_filter, List.countP_eq_length_filter]
  generalize pixels : List.filter _ (List.range 64 ×ˢ List.range 32) = struckPixels
  have mem (px py : Nat) : (px, py) ∈ struckPixels ↔
      (px < 64 ∧ py < 32) ∧ d.pixel px py = true ∧ 0 < hits x y sprite px py := by
    simp [← pixels]
  have once : struckPixels.Nodup := by
    rw [← pixels]
    exact (List.nodup_range.product List.nodup_range).filter _
  -- the same pixels, once by their coordinates and once as points of the sprite
  have same : (struckPixels.map fun pixel => Point.ofInts pixel.1 pixel.2).Perm
      ((Display.spritePoints x y sprite).filter fun p => d.pixels.get p.cell) := by
    refine (List.perm_ext_iff_of_nodup (once.map_on ?_) ((nodup_spritePoints x y low).filter _)).mpr ?_
    · rintro ⟨px, py⟩ inside ⟨px', py'⟩ inside' same
      obtain ⟨⟨hx, hy⟩, -⟩ := (mem px py).mp inside
      obtain ⟨⟨hx', hy'⟩, -⟩ := (mem px' py').mp inside'
      obtain ⟨rfl, rfl⟩ := (Point.ofInts_inj hx hy hx' hy').mp same
      rfl
    · intro p
      obtain ⟨px, py, hx, hy, rfl⟩ := p.exists_ofInts
      rw [List.mem_filter, mem_spritePoints hx hy, List.mem_map]
      constructor
      · rintro ⟨⟨px', py'⟩, inside, same⟩
        obtain ⟨⟨hx', hy'⟩, lit, hit⟩ := (mem px' py').mp inside
        obtain ⟨rfl, rfl⟩ := (Point.ofInts_inj hx' hy' hx hy).mp same
        exact ⟨hit, lit⟩
      · rintro ⟨hit, lit⟩
        exact ⟨(px, py), (mem px py).mpr ⟨⟨hx, hy⟩, lit, hit⟩, rfl⟩
  rw [← same.length_eq, List.length_map]

end Sprite

namespace Display

variable (d : Display) (x y : Int) (sprite : List Byte)

open Sprite (hits bits struck)

theorem pixel_draw {px py : Nat} (hx : px < 64) (hy : py < 32) :
    (d.draw x y sprite).1.pixel px py =
      (d.pixel px py ^^ decide (hits x y sprite px py % 2 = 1)) := by
  rw [← Sprite.count_spritePoints hx hy]
  exact get_foldl_toggle d.pixels false (spritePoints x y sprite) (Point.ofInts px py)

theorem collision_draw_iff : (d.draw x y sprite).2 = true ↔
    ∃ p : Point, 2 ≤ (d.pixels.get p.cell).toNat + (spritePoints x y sprite).count p := by
  have collision := collision_foldl_toggle d.pixels false (spritePoints x y sprite)
  rw [Bool.false_eq_true, false_or] at collision
  exact collision

theorem collision_draw : (d.draw x y sprite).2 = true ↔
    ∃ px py : Nat, px < 64 ∧ py < 32 ∧ 2 ≤ (d.pixel px py).toNat + hits x y sprite px py := by
  refine (d.collision_draw_iff x y sprite).trans ⟨?_, ?_⟩
  · rintro ⟨p, two⟩
    obtain ⟨px, py, hx, hy, rfl⟩ := p.exists_ofInts
    rw [Sprite.count_spritePoints hx hy] at two
    exact ⟨px, py, hx, hy, two⟩
  · rintro ⟨px, py, hx, hy, two⟩
    rw [← Sprite.count_spritePoints hx hy] at two
    exact ⟨Point.ofInts px py, two⟩

/-- A sprite that is no higher than the screen collides where it falls on a lit pixel. -/
theorem collision_draw_of_low (low : sprite.length ≤ 32) : (d.draw x y sprite).2 = true ↔
    ∃ row column, (row, column) ∈ bits sprite ∧ d.pixel (x + column) (y + row) = true := by
  have once := Sprite.nodup_spritePoints x y low
  refine (d.collision_draw_iff x y sprite).trans ⟨?_, ?_⟩
  · rintro ⟨p, two⟩
    have most : (spritePoints x y sprite).count p ≤ 1 := List.nodup_iff_count_le_one.mp once p
    have least := Bool.toNat_le (d.pixels.get p.cell)
    have lit : d.pixels.get p.cell = true := by
      cases h : d.pixels.get p.cell <;> simp [h] at two ⊢
      omega
    have mem : p ∈ spritePoints x y sprite := List.count_pos_iff.mp (by omega)
    rw [Sprite.spritePoints_eq] at mem
    obtain ⟨⟨row, column⟩, bit, rfl⟩ := List.mem_map.mp mem
    exact ⟨row, column, bit, lit⟩
  · rintro ⟨row, column, bit, lit⟩
    refine ⟨Sprite.point x y (row, column), ?_⟩
    have mem : Sprite.point x y (row, column) ∈ spritePoints x y sprite := by
      rw [Sprite.spritePoints_eq]
      exact List.mem_map_of_mem bit
    have hit : 0 < (spritePoints x y sprite).count (Sprite.point x y (row, column)) :=
      List.count_pos_iff.mpr mem
    have lit : d.pixels.get (Sprite.point x y (row, column)).cell = true := lit
    rw [lit, Bool.toNat_true]
    omega

theorem litCount_draw (low : sprite.length ≤ 32) : ((d.draw x y sprite).1.litCount : Int) =
    d.litCount + (bits sprite).length - 2 * struck d x y sprite := by
  have count := count_foldl_toggle d.pixels false (Sprite.nodup_spritePoints x y low)
  have length : (spritePoints x y sprite).length = (bits sprite).length := by
    rw [Sprite.spritePoints_eq, List.length_map]
  rw [length, ← Sprite.struck_eq d x y low] at count
  exact count

end Display

/-! ## The instruction -/

namespace Machine

variable {m : Machine}

/-- The bytes in memory from the index on. -/
def spriteAt (m : Machine) (height : Nat) : List Byte :=
  (List.range height).map fun k => m.memory.get (BitVec.ofNat 12 ((m.registers.i.toNat + k) % 4096))

theorem read_eq_spriteAt (m : Machine) (height : Nat) :
    m.memory.read m.registers.i.address height = m.spriteAt height := by
  refine List.map_congr_left fun k _ => congrArg m.memory.get ?_
  rw [BitVec.toNat_eq, Word.toNat_address_add, BitVec.toNat_ofNat]
  omega

theorem step_of_draw (running : m.mode = .running) (opClass : m.fetch.opClass = 0xD) :
    let r := m.registers
    let drawn := m.display.draw (r.get m.fetch.x).toNat (r.get m.fetch.y).toNat
      (m.spriteAt m.fetch.n.toNat)
    m.step = ({ m with
      display := drawn.1
      registers := (r.setFlag drawn.2).advance 2
      executed := m.executed + 1 }, .ok) := by
  intro r drawn
  have fetched : Instruction.decode m.fetch = .draw m.fetch.x m.fetch.y m.fetch.n :=
    Instruction.decode_of_encodes rfl ⟨opClass, rfl, rfl, rfl⟩
  rw [step_of_simple running (by rw [fetched]; rfl)]
  simp only [proceed, fetched, Instruction.execute, Instruction.executeDraw, read_eq_spriteAt]
  rfl

open Sprite (hits bits struck)

/-- **What drawing a sprite comes to.** A pixel is inverted if an odd number of set bits fall on it,
at whatever coordinates and however high the sprite is, and there is a collision if a pixel that was
lit is hit or one is hit twice. No pixel is hit twice by a sprite of at most 32 rows, so the set bits
light a pixel each, or turn off one that was lit. The instruction draws the bytes at the index at the
coordinates that its registers held before, and then leaves the collision in the flag. -/
theorem draw_inverts_hit_pixels :
    (∀ (d : Display) (x y : Int) (sprite : List Byte),
      let drawn := d.draw x y sprite
      (∀ px py : Nat, px < 64 → py < 32 →
        drawn.1.pixel px py = (d.pixel px py ^^ decide (hits x y sprite px py % 2 = 1))) ∧
      (drawn.2 = true ↔
        ∃ px py : Nat, px < 64 ∧ py < 32 ∧ 2 ≤ (d.pixel px py).toNat + hits x y sprite px py) ∧
      (sprite.length ≤ 32 →
        (drawn.2 = true ↔
          ∃ row column, (row, column) ∈ bits sprite ∧ d.pixel (x + column) (y + row) = true) ∧
        (drawn.1.litCount : Int) =
          d.litCount + (bits sprite).length - 2 * struck d x y sprite)) ∧
    ∀ m : Machine, m.mode = .running → m.fetch.opClass = 0xD →
      let r := m.registers
      let drawn := m.display.draw (r.get m.fetch.x).toNat (r.get m.fetch.y).toNat
        (m.spriteAt m.fetch.n.toNat)
      m.answer .step = .ok (.result .ok) ∧
      (m.after .step).registers.get 0xF = (if drawn.2 then 1 else 0) ∧
      m.after .step = { m with
        display := drawn.1
        registers := (r.setFlag drawn.2).advance 2
        executed := m.executed + 1 } := by
  refine ⟨fun d x y sprite => ?_, fun m running opClass => ?_⟩
  · intro drawn
    refine ⟨fun px py => d.pixel_draw x y sprite, d.collision_draw x y sprite, fun low => ?_⟩
    exact ⟨d.collision_draw_of_low x y sprite low, d.litCount_draw x y sprite low⟩
  · intro r drawn
    rw [answer_step, after_step, step_of_draw running opClass]
    exact ⟨rfl, Table.get_set_self _ _ _, rfl⟩

/-- Thirty-three rows meet themselves on a dark screen: the pixel that is hit twice is dark again, but
it has collided. `DFF1` reads both coordinates from the register that it then overwrites. -/
theorem draw_inverts_twice_and_at_flag :
    let sprite : List Byte := List.replicate 33 0x80
    let dark := Display.fresh
    let m := (fresh (Generator.ofSeed 0)).afterAll
      [.load [0xDF, 0xF1, 0xDF, 0xF1], .setV 0xF 3, .setI 0xFFFF, .poke 0xFFF 0x81]
    hits (-65) (-1) sprite 63 31 = 2 ∧ hits (-65) (-1) sprite 63 0 = 1 ∧
      (dark.draw (-65) (-1) sprite).1.pixel 63 31 = false ∧
      (dark.draw (-65) (-1) sprite).1.pixel 63 0 = true ∧
      (dark.draw (-65) (-1) sprite).2 = true ∧
      m.spriteAt 1 = [0x81] ∧
      ((dark.draw 3 3 [0x81]).1.litCount : Int) = dark.litCount + 2 - 2 * 0 ∧
      (m.after .step).display = (m.display.draw 3 3 [0x81]).1 ∧
      (m.after .step).registers.get 0xF = 0 := by
  intro sprite dark m
  obtain ⟨pictures, steps⟩ := draw_inverts_hit_pixels
  obtain ⟨pixels, collides, -⟩ := pictures dark (-65) (-1) sprite
  obtain ⟨-, -, low⟩ := pictures dark 3 3 [0x81]
  have twice : hits (-65) (-1) sprite 63 31 = 2 := by decide +kernel
  have once : hits (-65) (-1) sprite 63 0 = 1 := by decide +kernel
  have unlit (px py : Int) : dark.pixel px py = false := Table.get_fill _ _
  obtain ⟨running, opClass, x, y, n, flag, row⟩ : m.mode = .running ∧ m.fetch.opClass = 0xD ∧
      m.fetch.x = 0xF ∧ m.fetch.y = 0xF ∧ m.fetch.n.toNat = 1 ∧ m.registers.get 0xF = 3 ∧
      m.spriteAt 1 = [0x81] := by
    decide +kernel
  have screen : m.display = dark := rfl
  have unhit : ¬ (dark.draw 3 3 [0x81]).2 = true := by
    rw [(low (by decide)).1]
    rintro ⟨row, column, -, lit⟩
    rw [unlit] at lit
    cases lit
  have none : struck dark 3 3 [0x81] = 0 := List.countP_eq_zero.mpr fun pixel _ => by simp [unlit]
  obtain ⟨-, vf, state⟩ := steps m running opClass
  rw [x, y, flag, n, row] at vf state
  refine ⟨twice, once, ?_, ?_, ?_, row, ?_, ?_, ?_⟩
  · refine (pixels 63 31 (by decide) (by decide)).trans ?_
    rw [twice, unlit]
    rfl
  · refine (pixels 63 0 (by decide) (by decide)).trans ?_
    rw [once, unlit]
    rfl
  · exact collides.mpr ⟨63, 31, by decide, by decide, by rw [twice]; omega⟩
  · have two : (bits [0x81]).length = 2 := by decide +kernel
    rw [(low (by decide)).2, none, two]
    rfl
  · rw [state]
    rfl
  · rw [vf, screen]
    exact if_neg unhit

end Machine

end ChipEight
