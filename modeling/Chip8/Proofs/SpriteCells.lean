import Chip8.Proofs.SpritePixels
import Mathlib.Data.List.Nodup
import Mathlib.Data.List.Sigma

/-!
# Sprites, cell by cell

A sprite can be drawn in place, one bit at a time: for every row from the top and every bit
of it from the left, if the bit is on, the pixel under it is read and flipped, and a pixel
that was found on makes the drawing collide. The pixel is read from the picture as the
earlier bits have left it. This module says why that comes to the same as looking at the
picture before the drawing: no two bits of a sprite lie over the same pixel, wherever the
sprite is drawn, so no bit finds the work of another.

## Main statements

* `nodup_spriteCells`: the cells under the bits of a sprite are all different.
* `Canvas.foldlM_touch`: flipping pixels one by one in different cells.
* `Grid.drawInPlace_eq`: drawing in place never leaves the picture, and it agrees with
  `Grid.draw` and `Grid.collides`.
* `Grid.draw_pixelwise`: drawing, in terms of the set of cells under the sprite.
-/

namespace Chip8

/-! ### The cells under a sprite -/

/-- The places of the bits that are on in a sprite, as column and row, from the top and in
each row from the left. -/
def spriteBits (sprite : List UInt8) : List (Nat × Nat) :=
  (sprite.take spriteRows).zipIdx.flatMap fun row =>
    ((List.range 8).filter fun i => row.1.toNat.testBit (7 - i)).map fun i => (i, row.2)

/-- The cell under the bit in a given place, when the sprite is drawn at (`x`, `y`). -/
def cellUnder (x y : UInt8) (place : Nat × Nat) : Nat × Nat :=
  ((x.toNat + place.1) % gridWidth, (y.toNat + place.2) % gridHeight)

/-- The cells under the bits that are on in a sprite drawn at (`x`, `y`). -/
def spriteCells (x y : UInt8) (sprite : List UInt8) : List (Nat × Nat) :=
  (spriteBits sprite).map (cellUnder x y)

/-- The places of the bits that are on, by the bytes in the rows of the sprite. -/
theorem mem_spriteBits_iff_getElem? {sprite : List UInt8} {i j : Nat} :
    (i, j) ∈ spriteBits sprite ↔
      ∃ byte, (sprite.take spriteRows)[j]? = some byte ∧
        i < 8 ∧ byte.toNat.testBit (7 - i) = true := by
  simp only [spriteBits, List.mem_flatMap, List.mem_zipIdx_iff_getElem?, List.mem_map,
    List.mem_filter, List.mem_range]
  constructor
  · rintro ⟨⟨byte, j⟩, hbyte, i, hbit, heq⟩
    obtain ⟨rfl, rfl⟩ := Prod.mk.inj heq
    exact ⟨byte, hbyte, hbit⟩
  · rintro ⟨byte, hbyte, hbit⟩
    exact ⟨(byte, j), hbyte, i, hbit, rfl⟩

/-- The same by `Grid.spriteByte`, in terms of which `Grid.draw` is defined. -/
theorem mem_spriteBits {sprite : List UInt8} {i j : Nat} :
    (i, j) ∈ spriteBits sprite ↔
      j < min spriteRows sprite.length ∧ i < 8 ∧
        (Grid.spriteByte sprite j).testBit (7 - i) = true := by
  rw [mem_spriteBits_iff_getElem?]
  constructor
  · rintro ⟨byte, hbyte, hi, hbit⟩
    obtain ⟨hj, hbyte⟩ := Grid.getElem?_take_spriteRows.1 hbyte
    rw [Grid.spriteByte, hbyte]
    exact ⟨hj, hi, hbit⟩
  · rintro ⟨hj, hi, hbit⟩
    obtain ⟨byte, hbyte⟩ : ∃ byte, sprite[j]? = some byte :=
      ⟨_, List.getElem?_eq_getElem (by omega)⟩
    rw [Grid.spriteByte, hbyte] at hbit
    exact ⟨byte, Grid.getElem?_take_spriteRows.2 ⟨hj, hbyte⟩, hi, hbit⟩

/-- The place of a bit is listed once. -/
theorem nodup_spriteBits (sprite : List UInt8) : (spriteBits sprite).Nodup := by
  refine List.nodup_flatMap.2 ⟨fun row _ => ?_, ?_⟩
  · exact (List.nodup_range.filter _).map fun i i' heq => (Prod.mk.inj heq).1
  · -- bits of different rows differ in the row
    refine (List.pairwise_map.1 (List.nodup_zipIdx_map_snd (sprite.take spriteRows))).imp ?_
    rintro ⟨byte, j⟩ ⟨byte', j'⟩ hne
    rintro ⟨i, k⟩ hmem hmem'
    obtain ⟨_, _, heq⟩ := List.mem_map.1 hmem
    obtain ⟨_, _, heq'⟩ := List.mem_map.1 hmem'
    exact hne ((Prod.mk.inj heq).2.trans (Prod.mk.inj heq').2.symm)

/-- No two bits of a sprite lie over the same cell, because a sprite is smaller than the
picture. -/
theorem cellUnder_inj {x y : UInt8} {i j i' j' : Nat} (hi : i < 8) (hi' : i' < 8)
    (hj : j < spriteRows) (hj' : j' < spriteRows)
    (heq : cellUnder x y (i, j) = cellUnder x y (i', j')) : i = i' ∧ j = j' := by
  obtain ⟨hx, hy⟩ := Prod.mk.inj heq
  simp only [gridWidth, gridHeight, spriteRows] at hx hy hj hj'
  omega

/-- So is the cell under it: a drawing touches no pixel twice. -/
theorem nodup_spriteCells (x y : UInt8) (sprite : List UInt8) :
    (spriteCells x y sprite).Nodup := by
  refine (nodup_spriteBits sprite).map_on ?_
  rintro ⟨i, j⟩ hmem ⟨i', j'⟩ hmem' heq
  obtain ⟨hj, hi, -⟩ := mem_spriteBits.1 hmem
  obtain ⟨hj', hi', -⟩ := mem_spriteBits.1 hmem'
  obtain ⟨rfl, rfl⟩ := cellUnder_inj hi hi' (by omega) (by omega) heq
  rfl

/-- A cell is under a sprite if it is that of a bit that is on, around the edges. -/
theorem mem_spriteCells {x y : UInt8} {sprite : List UInt8} {cx cy : Nat} :
    (cx, cy) ∈ spriteCells x y sprite ↔
      ∃ j < min spriteRows sprite.length, ∃ i < 8, (x.toNat + i) % gridWidth = cx ∧
        (y.toNat + j) % gridHeight = cy ∧
        (Grid.spriteByte sprite j).testBit (7 - i) = true := by
  simp only [spriteCells, List.mem_map, Prod.exists, mem_spriteBits, cellUnder, Prod.mk.injEq]
  constructor
  · rintro ⟨i, j, ⟨hj, hi, hbit⟩, hx, hy⟩
    exact ⟨j, hj, i, hi, hx, hy, hbit⟩
  · rintro ⟨j, hj, i, hi, hx, hy, hbit⟩
    exact ⟨i, j, ⟨hj, hi, hbit⟩, hx, hy⟩

/-- The cell is one of the picture. -/
def InPicture (cell : Nat × Nat) : Prop :=
  cell.1 < gridWidth ∧ cell.2 < gridHeight

instance (cell : Nat × Nat) : Decidable (InPicture cell) :=
  inferInstanceAs (Decidable (_ ∧ _))

/-- A sprite goes around the edges and never past them. -/
theorem inPicture_of_mem_spriteCells {x y : UInt8} {sprite : List UInt8} {cell : Nat × Nat}
    (hmem : cell ∈ spriteCells x y sprite) : InPicture cell := by
  obtain ⟨place, -, rfl⟩ := List.mem_map.1 hmem
  exact ⟨Nat.mod_lt _ (by decide), Nat.mod_lt _ (by decide)⟩

/-- Within the picture, a cell is covered in the sense of `Covers` if it is one of those under the
sprite. -/
theorem covers_iff_mem_spriteCells {x y : UInt8} {sprite : List UInt8} {cx cy : Nat}
    (hcell : InPicture (cx, cy)) :
    Covers x.toNat y.toNat (min spriteRows sprite.length) (Grid.spriteByte sprite) cx cy ↔
      (cx, cy) ∈ spriteCells x y sprite := by
  rw [mem_spriteCells, Covers, Nat.mod_eq_of_lt hcell.1, Nat.mod_eq_of_lt hcell.2]

/-! ### Flipping pixels -/

namespace Grid

/-- Whether the pixel in a cell is on. -/
def lit (g : Grid) (cell : Nat × Nat) : Bool :=
  g.pixel cell.1 cell.2

/-- Flips the pixel in a cell. -/
def flip (g : Grid) (cell : Nat × Nat) : Grid :=
  have : cell.2 % gridHeight < gridHeight := Nat.mod_lt _ (by decide)
  ⟨g.rows.set (cell.2 % gridHeight) (g.rows[cell.2 % gridHeight] ^^^
    BitVec.twoPow gridWidth (gridWidth - 1 - cell.1 % gridWidth))⟩

/-- Flipping a pixel changes that pixel and no other. -/
theorem lit_flip (g : Grid) {cell cell' : Nat × Nat} (hcell : InPicture cell)
    (hcell' : InPicture cell') :
    (g.flip cell).lit cell' = (g.lit cell' ^^ decide (cell' = cell)) := by
  obtain ⟨cx, cy⟩ := cell
  obtain ⟨cx', cy'⟩ := cell'
  obtain ⟨hx, hy⟩ : cx < gridWidth ∧ cy < gridHeight := hcell
  obtain ⟨hx', hy'⟩ : cx' < gridWidth ∧ cy' < gridHeight := hcell'
  simp only [lit, pixel, flip, Nat.mod_eq_of_lt hx, Nat.mod_eq_of_lt hy, Nat.mod_eq_of_lt hx',
    Nat.mod_eq_of_lt hy', Vector.getElem_set, Prod.mk.injEq]
  by_cases hrow : cy = cy'
  · subst hrow
    have hcol : cx' = gridWidth - (gridWidth - 1 - cx) - 1 ↔ cx' = cx := by omega
    rw [if_pos rfl, BitVec.getMsbD_xor, BitVec.getMsbD_twoPow, decide_eq_true (by omega),
      Bool.true_and, decide_eq_decide.2 (hcol.trans (and_iff_left rfl).symm)]
  · rw [if_neg hrow, decide_eq_false fun h => hrow h.2.symm, Bool.xor_false]

/-- Flipping the pixels in different cells one by one flips them all. -/
theorem lit_flipAll {cells : List (Nat × Nat)} (hnodup : cells.Nodup)
    (hcells : ∀ cell ∈ cells, InPicture cell) (g : Grid) {cell : Nat × Nat}
    (hcell : InPicture cell) :
    (cells.foldl flip g).lit cell = (g.lit cell ^^ decide (cell ∈ cells)) := by
  induction cells generalizing g with
  | nil => simp
  | cons first rest ih =>
    obtain ⟨hfirst, hrest⟩ := List.nodup_cons.1 hnodup
    rw [List.foldl_cons, ih hrest fun c hmem => hcells c (List.mem_cons_of_mem _ hmem),
      lit_flip g (hcells first List.mem_cons_self) hcell, Bool.xor_assoc]
    congr 1
    -- the cell is at most one of the first and the rest
    by_cases heq : cell = first
    · subst heq
      simp [hfirst]
    · simp [heq]

end Grid

/-! ### Drawing in place -/

/-- A loop over the lists that a list unfolds to is two nested loops. -/
theorem foldlM_flatMap {m : Type → Type} [Monad m] [LawfulMonad m] {α β γ : Type}
    (step : γ → β → m γ) (f : α → List β) (as : List α) (c : γ) :
    (as.flatMap f).foldlM step c = as.foldlM (fun c a => (f a).foldlM step c) c := by
  induction as generalizing c with
  | nil => rfl
  | cons a as ih =>
    rw [List.flatMap_cons, List.foldlM_append, List.foldlM_cons]
    exact bind_congr fun c' => ih c'

/-- A picture that is being drawn on, and whether a pixel has been turned off on it. -/
structure Canvas where
  grid : Grid
  collided : Bool
deriving DecidableEq

namespace Canvas

/-- Flips the pixel in a cell, if there is such a cell, and notes whether it was on. -/
def touch (c : Canvas) (cell : Nat × Nat) : Option Canvas :=
  if InPicture cell then some ⟨c.grid.flip cell, c.collided || c.grid.lit cell⟩ else none

/-- Draws a row of a sprite: the bits from the left, and those that are off are passed
over. -/
def touchRow (x y : UInt8) (c : Canvas) (row : UInt8 × Nat) : Option Canvas :=
  (List.range 8).foldlM (fun c i =>
    if row.1.toNat.testBit (7 - i) then c.touch (cellUnder x y (i, row.2)) else some c) c

/-- Touching different cells flips the pixels in them, and finds the pixels that were on to
begin with. -/
theorem foldlM_touch {cells : List (Nat × Nat)} (hnodup : cells.Nodup)
    (hcells : ∀ cell ∈ cells, InPicture cell) (c : Canvas) :
    cells.foldlM touch c =
      some ⟨cells.foldl Grid.flip c.grid, c.collided || cells.any c.grid.lit⟩ := by
  induction cells generalizing c with
  | nil => simp
  | cons first rest ih =>
    obtain ⟨hfirst, hrest⟩ := List.nodup_cons.1 hnodup
    have hin : InPicture first := hcells first List.mem_cons_self
    have hins : ∀ cell ∈ rest, InPicture cell := fun cell hmem =>
      hcells cell (List.mem_cons_of_mem _ hmem)
    -- the first flip is not seen in the cells of the rest
    have hlit : rest.any (c.grid.flip first).lit = rest.any c.grid.lit := by
      rw [Bool.eq_iff_iff, List.any_eq_true, List.any_eq_true]
      refine exists_congr fun cell => and_congr_right fun hmem => ?_
      rw [Grid.lit_flip _ hin (hins cell hmem),
        decide_eq_false fun heq : cell = first => hfirst (heq ▸ hmem), Bool.xor_false]
    rw [List.foldlM_cons, touch, if_pos hin, Option.bind_eq_bind, Option.bind_some,
      ih hrest hins, hlit, List.any_cons, Bool.or_assoc, List.foldl_cons]

end Canvas

namespace Grid

/-- Draws a sprite in place, row by row from the top. -/
def drawInPlace (g : Grid) (x y : UInt8) (sprite : List UInt8) : Option Canvas :=
  (sprite.take spriteRows).zipIdx.foldlM (Canvas.touchRow x y) ⟨g, false⟩

/-- The two loops over rows and columns go through the cells under the sprite, in order. -/
theorem drawInPlace_eq_foldlM (g : Grid) (x y : UInt8) (sprite : List UInt8) :
    g.drawInPlace x y sprite = (spriteCells x y sprite).foldlM Canvas.touch ⟨g, false⟩ := by
  rw [spriteCells, spriteBits, List.foldlM_map, foldlM_flatMap]
  simp only [List.foldlM_map, List.foldlM_filter]
  rfl

/-- A pixel after drawing is the pixel before, flipped if its cell is under the sprite. -/
theorem lit_draw (g : Grid) (x y : UInt8) (sprite : List UInt8) {cell : Nat × Nat}
    (hcell : InPicture cell) :
    (g.draw x y sprite).lit cell = (g.lit cell ^^ decide (cell ∈ spriteCells x y sprite)) := by
  rw [lit, pixel_draw, decide_eq_decide.2 (covers_iff_mem_spriteCells hcell), lit]

/-- A drawing flips the cells under the sprite, one after the other. -/
theorem draw_eq_foldl_flip (g : Grid) (x y : UInt8) (sprite : List UInt8) :
    g.draw x y sprite = (spriteCells x y sprite).foldl flip g := by
  refine ext_pixel fun cx hcx cy hcy => ?_
  have hcell : InPicture (cx, cy) := ⟨hcx, hcy⟩
  exact (lit_draw g x y sprite hcell).trans (lit_flipAll (nodup_spriteCells x y sprite)
    (fun _ => inPicture_of_mem_spriteCells) g hcell).symm

/-- It collides if a pixel is on in one of these cells. -/
theorem collides_eq_any (g : Grid) (x y : UInt8) (sprite : List UInt8) :
    g.collides x y sprite = (spriteCells x y sprite).any g.lit := by
  rw [Bool.eq_iff_iff, collides_iff, List.any_eq_true]
  constructor
  · rintro ⟨cx, hcx, cy, hcy, hlit, hcov⟩
    exact ⟨(cx, cy), (covers_iff_mem_spriteCells ⟨hcx, hcy⟩).1 hcov, hlit⟩
  · rintro ⟨⟨cx, cy⟩, hmem, hlit⟩
    have hcell := inPicture_of_mem_spriteCells hmem
    exact ⟨cx, hcell.1, cy, hcell.2, hlit, (covers_iff_mem_spriteCells hcell).2 hmem⟩

/-- Drawing in place never leaves the picture, and makes the same picture and the same
collision as drawing all at once. -/
theorem drawInPlace_eq (g : Grid) (x y : UInt8) (sprite : List UInt8) :
    g.drawInPlace x y sprite = some ⟨g.draw x y sprite, g.collides x y sprite⟩ := by
  rw [drawInPlace_eq_foldlM, Canvas.foldlM_touch (nodup_spriteCells x y sprite)
    fun _ => inPicture_of_mem_spriteCells, Bool.false_or, draw_eq_foldl_flip, collides_eq_any]

/-- Drawing collides if and only if it turns a pixel off. -/
theorem collides_iff_turnsOff (g : Grid) (x y : UInt8) (sprite : List UInt8) :
    g.collides x y sprite = true ↔
      ∃ cell, InPicture cell ∧ g.lit cell = true ∧ (g.draw x y sprite).lit cell = false := by
  rw [collides_eq_any, List.any_eq_true]
  constructor
  · rintro ⟨cell, hmem, hlit⟩
    have hcell := inPicture_of_mem_spriteCells hmem
    refine ⟨cell, hcell, hlit, ?_⟩
    rw [lit_draw g x y sprite hcell, hlit, decide_eq_true hmem, Bool.xor_self]
  · rintro ⟨cell, hcell, hlit, hoff⟩
    refine ⟨cell, ?_, hlit⟩
    rw [lit_draw g x y sprite hcell, hlit, Bool.true_xor, Bool.not_eq_false',
      decide_eq_true_eq] at hoff
    exact hoff

/-- Only the first rows of a sprite are drawn. -/
theorem stamp_take (x y : UInt8) (sprite : List UInt8) :
    stamp x y (sprite.take spriteRows) = stamp x y sprite := by
  simp only [stamp, List.take_take, Nat.min_self]

/-- **Drawing, pixel by pixel**: the cells under a sprite are those of the bits that are on
in its first rows, each bit has a cell of its own, and the cells are in the picture; drawing
flips the pixels in these cells and no others, whether it is done at once or in place; and
it collides if and only if it turns a pixel off. The rows after the first fifteen do not
matter. -/
theorem draw_pixelwise (g : Grid) (x y : UInt8) (sprite : List UInt8) :
    (∀ cx cy, (cx, cy) ∈ spriteCells x y sprite ↔
      ∃ j < min spriteRows sprite.length, ∃ i < 8, (x.toNat + i) % gridWidth = cx ∧
        (y.toNat + j) % gridHeight = cy ∧ (spriteByte sprite j).testBit (7 - i) = true) ∧
    (∀ i < 8, ∀ i' < 8, ∀ j < spriteRows, ∀ j' < spriteRows,
      cellUnder x y (i, j) = cellUnder x y (i', j') → i = i' ∧ j = j') ∧
    (∀ cell ∈ spriteCells x y sprite, cell.1 < gridWidth ∧ cell.2 < gridHeight) ∧
    (∀ cx < gridWidth, ∀ cy < gridHeight, (g.draw x y sprite).pixel cx cy =
      (g.pixel cx cy ^^ decide ((cx, cy) ∈ spriteCells x y sprite))) ∧
    (g.collides x y sprite = true ↔
      ∃ cx < gridWidth, ∃ cy < gridHeight, g.pixel cx cy = true ∧
        (g.draw x y sprite).pixel cx cy = false) ∧
    g.drawInPlace x y sprite = some ⟨g.draw x y sprite, g.collides x y sprite⟩ ∧
    g.draw x y (sprite.take spriteRows) = g.draw x y sprite ∧
    g.collides x y (sprite.take spriteRows) = g.collides x y sprite := by
  refine ⟨fun _ _ => mem_spriteCells, ?_, fun _ => inPicture_of_mem_spriteCells, ?_, ?_,
    drawInPlace_eq g x y sprite, ?_, ?_⟩
  · intro i hi i' hi' j hj j' hj'
    exact cellUnder_inj hi hi' hj hj'
  · intro cx hcx cy hcy
    have hcell : InPicture (cx, cy) := ⟨hcx, hcy⟩
    exact lit_draw g x y sprite hcell
  · rw [collides_iff_turnsOff]
    constructor
    · rintro ⟨⟨cx, cy⟩, ⟨hcx, hcy⟩, hlit, hoff⟩
      exact ⟨cx, hcx, cy, hcy, hlit, hoff⟩
    · rintro ⟨cx, hcx, cy, hcy, hlit, hoff⟩
      exact ⟨(cx, cy), ⟨hcx, hcy⟩, hlit, hoff⟩
  · rw [draw, draw, stamp_take]
  · rw [collides, collides, stamp_take]

/-- A block over the lower right corner of a picture with a single pixel on, in the upper
left: it turns that pixel off and the corner on. -/
theorem draw_pixelwise_corner :
    (5, 0) ∈ spriteCells 62 31 [0xFF, 0xFF] ∧
    (cellUnder 62 31 (1, 0) ≠ cellUnder 62 31 (1, 1)) ∧
    ((blank.draw 5 0 [0x80]).draw 62 31 [0xFF, 0xFF]).pixel 5 0 = false ∧
    ((blank.draw 5 0 [0x80]).draw 62 31 [0xFF, 0xFF]).pixel 63 31 = true ∧
    (blank.draw 5 0 [0x80]).collides 62 31 [0xFF, 0xFF] = true := by
  obtain ⟨hmem, hinj, -, hdraw, hcollides, -⟩ :=
    draw_pixelwise (blank.draw 5 0 [0x80]) 62 31 [0xFF, 0xFF]
  have hcell : (5, 0) ∈ spriteCells 62 31 [0xFF, 0xFF] :=
    (hmem 5 0).2 ⟨1, by decide, 7, by decide, by decide⟩
  have hoff : ((blank.draw 5 0 [0x80]).draw 62 31 [0xFF, 0xFF]).pixel 5 0 = false := by
    rw [hdraw 5 (by decide) 0 (by decide)]
    decide +kernel
  refine ⟨hcell, fun heq => ?_, hoff, ?_, ?_⟩
  · exact absurd (hinj 1 (by decide) 1 (by decide) 0 (by decide) 1 (by decide) heq).2 (by decide)
  · rw [hdraw 63 (by decide) 31 (by decide)]
    decide +kernel
  · exact hcollides.2 ⟨5, by decide, 0, by decide, by decide +kernel, hoff⟩

end Grid

end Chip8
