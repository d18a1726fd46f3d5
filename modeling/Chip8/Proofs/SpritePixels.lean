import Chip8.Picture.Sprite

/-!
# Sprites, pixel by pixel

Drawing is defined by word operations on whole rows. This module says what they do to
one pixel: the sprite bit in row `j` and column `i` lies over the pixel `i` columns to
the right of and `j` rows below the point where the sprite is drawn, around the edges if
need be. A pixel under such a bit that is on changes, and no other does.

## Main statements

* `Grid.pixel_draw`: a pixel after drawing is the pixel before, flipped if it is
  covered.
* `Grid.collides_iff`: drawing collides if and only if a covered pixel was on.
-/

namespace Chip8

/-- A bit that is on in a sprite of `rows` rows, drawn at (`x`, `y`), lies over the pixel
(`cx`, `cy`). The bits of a row are numbered from the left. -/
def Covers (x y rows : Nat) (row : Nat → Nat) (cx cy : Nat) : Prop :=
  ∃ j < rows, ∃ i < 8, (x + i) % gridWidth = cx % gridWidth ∧
    (y + j) % gridHeight = cy % gridHeight ∧ (row j).testBit (7 - i) = true

instance (x y rows : Nat) (row : Nat → Nat) (cx cy : Nat) :
    Decidable (Covers x y rows row cx cy) :=
  inferInstanceAs (Decidable (∃ j < rows, _))

/-- Only the rows of the sprite matter. -/
theorem covers_congr {x y rows : Nat} {row row' : Nat → Nat} (h : ∀ j < rows, row j = row' j)
    {cx cy : Nat} : Covers x y rows row cx cy ↔ Covers x y rows row' cx cy := by
  constructor
  · rintro ⟨j, hj, i, hi, hx, hy, hbit⟩
    exact ⟨j, hj, i, hi, hx, hy, h j hj ▸ hbit⟩
  · rintro ⟨j, hj, i, hi, hx, hy, hbit⟩
    exact ⟨j, hj, i, hi, hx, hy, h j hj ▸ hbit⟩

/-! ### One row -/

/-- How many columns to the right of column `x` column `c` lies, counted around the
edge. -/
def columnsRight (x c : Nat) : Nat :=
  (c + (gridWidth - x % gridWidth)) % gridWidth

/-- Among the numbers below the width it is the only one that leads from column `x` to column `c`.
-/
theorem eq_columnsRight_iff {x c i : Nat} (hc : c < gridWidth) (hi : i < gridWidth) :
    (x + i) % gridWidth = c ↔ i = columnsRight x c := by
  simp only [columnsRight, gridWidth] at *
  omega

/-- Among the numbers below the height the same holds of rows. -/
theorem eq_rowsBelow_iff {y r j : Nat} (hr : r < gridHeight) (hj : j < gridHeight) :
    (y + j) % gridHeight = r ↔ j = rowsBelow y r := by
  simp only [rowsBelow, gridHeight] at *
  omega

/-- The bits of a byte, counted from the left, are the bits of its number, counted from the right.
-/
theorem getMsbD_byte (byte : UInt8) {k : Nat} (hk : k < 8) :
    byte.toBitVec.getMsbD k = byte.toNat.testBit (7 - k) := by
  simp [BitVec.getMsbD_eq_getLsbD, hk, ← BitVec.testBit_toNat]

/-- To turn a row to the right moves each of its bits by as many columns. -/
theorem getMsbD_rotateRight (v : BitVec 64) (x : Nat) {c : Nat} (hc : c < 64) :
    (v.rotateRight x).getMsbD c = v.getMsbD (columnsRight x c) := by
  rw [BitVec.getMsbD_rotateRight, decide_eq_true hc, Bool.true_and]
  simp only [columnsRight, gridWidth]
  split <;> congr 1 <;> omega

/-- The pixel in column `c` of a row is the bit of the sprite that many columns along,
if the sprite is that wide. -/
theorem getMsbD_spriteRow (x : Nat) (byte : UInt8) {c : Nat} (hc : c < gridWidth) :
    (spriteRow x byte).getMsbD c =
      (decide (columnsRight x c < 8) && byte.toNat.testBit (7 - columnsRight x c)) := by
  have hrot : (spriteRow x byte).getMsbD c =
      (byte.toBitVec ++ (0 : BitVec 56)).getMsbD (columnsRight x c) :=
    getMsbD_rotateRight _ x hc
  rw [hrot, BitVec.getMsbD_append]
  by_cases h : columnsRight x c < 8
  · rw [if_neg (Nat.not_le.2 h), getMsbD_byte byte h, decide_eq_true h, Bool.true_and]
  · rw [if_pos (Nat.le_of_not_lt h), decide_eq_false h, Bool.false_and]
    exact BitVec.getMsbD_zero

/-! ### The whole sprite -/

namespace Grid

/-- The rows of a sprite, as numbers. -/
def spriteByte (sprite : List UInt8) (j : Nat) : Nat :=
  (sprite[j]?.getD 0).toNat

/-- The rows of a sprite that are drawn are its first fifteen. -/
theorem getElem?_take_spriteRows {sprite : List UInt8} {j : Nat} {byte : UInt8} :
    (sprite.take spriteRows)[j]? = some byte ↔
      j < min spriteRows sprite.length ∧ sprite[j]? = some byte := by
  rw [List.getElem?_take]
  split
  · constructor
    · intro h
      obtain ⟨hlt, -⟩ := List.getElem?_eq_some_iff.1 h
      exact ⟨by omega, h⟩
    · exact fun h => h.2
  · simp
    omega

/-- The row of a stamp that lies so many rows below the top of the sprite. -/
def stampRow (x : UInt8) (sprite : List UInt8) (j : Nat) : PixelRow :=
  ((sprite.take spriteRows)[j]?.map (spriteRow x.toNat)).getD 0

/-- A pixel of a stamp is a bit of the sprite, found by how far the pixel lies below and to the
right of where the sprite is drawn. -/
theorem pixel_stamp (x y : UInt8) (sprite : List UInt8) (cx cy : Nat) :
    (stamp x y sprite).pixel cx cy =
      (stampRow x sprite (rowsBelow y.toNat (cy % gridHeight))).getMsbD (cx % gridWidth) := by
  have hcy : cy % gridHeight < gridHeight := Nat.mod_lt _ (by decide)
  have hrow : (stamp x y sprite).rows[cy % gridHeight] =
      stampRow x sprite (rowsBelow y.toNat (cy % gridHeight)) := by
    simp only [stamp, Vector.getElem_ofFn, stampRow]
    cases (sprite.take spriteRows)[rowsBelow y.toNat (cy % gridHeight)]? <;> rfl
  rw [pixel, hrow]

/-- The stamp of a sprite has exactly the covered pixels on. -/
theorem pixel_stamp_iff (x y : UInt8) (sprite : List UInt8) (cx cy : Nat) :
    (stamp x y sprite).pixel cx cy = true ↔
      Covers x.toNat y.toNat (min spriteRows sprite.length) (spriteByte sprite) cx cy := by
  have hcx : cx % gridWidth < gridWidth := Nat.mod_lt _ (by decide)
  have hcy : cy % gridHeight < gridHeight := Nat.mod_lt _ (by decide)
  have hrows : spriteRows < gridHeight := by decide
  have hcols : 8 < gridWidth := by decide
  rw [pixel_stamp, stampRow]
  -- the pixel determines the row and the column of the sprite that can lie over it
  constructor
  · intro h
    cases hb : (sprite.take spriteRows)[rowsBelow y.toNat (cy % gridHeight)]? with
    | none => simp [hb] at h
    | some byte =>
      rw [hb, Option.map_some, Option.getD_some, getMsbD_spriteRow _ _ hcx, Bool.and_eq_true,
        decide_eq_true_eq] at h
      obtain ⟨hj, hbyte⟩ := getElem?_take_spriteRows.1 hb
      refine ⟨_, hj, _, h.1, (eq_columnsRight_iff hcx (by omega)).2 rfl,
        (eq_rowsBelow_iff hcy (by omega)).2 rfl, ?_⟩
      rw [spriteByte, hbyte]
      exact h.2
  · rintro ⟨j, hj, i, hi, hx, hy, hbit⟩
    obtain rfl := (eq_columnsRight_iff hcx (by omega)).1 hx
    obtain rfl := (eq_rowsBelow_iff hcy (by omega)).1 hy
    obtain ⟨byte, hbyte⟩ : ∃ byte, sprite[rowsBelow y.toNat (cy % gridHeight)]? = some byte :=
      ⟨_, List.getElem?_eq_getElem (by omega)⟩
    rw [spriteByte, hbyte] at hbit
    rw [getElem?_take_spriteRows.2 ⟨hj, hbyte⟩, Option.map_some, Option.getD_some,
      getMsbD_spriteRow _ _ hcx, decide_eq_true hi, Bool.true_and]
    exact hbit

/-- Drawing flips the covered pixels. -/
theorem pixel_draw (g : Grid) (x y : UInt8) (sprite : List UInt8) (cx cy : Nat) :
    (g.draw x y sprite).pixel cx cy =
      (g.pixel cx cy ^^ decide (Covers x.toNat y.toNat (min spriteRows sprite.length)
        (spriteByte sprite) cx cy)) := by
  rw [draw, pixel_xor]
  congr 1
  rw [Bool.eq_iff_iff, pixel_stamp_iff, decide_eq_true_eq]

/-- Drawing collides if and only if a covered pixel is on. -/
theorem collides_iff (g : Grid) (x y : UInt8) (sprite : List UInt8) :
    g.collides x y sprite = true ↔
      ∃ cx < gridWidth, ∃ cy < gridHeight, g.pixel cx cy = true ∧
        Covers x.toNat y.toNat (min spriteRows sprite.length) (spriteByte sprite) cx cy := by
  rw [collides, decide_eq_true_eq]
  constructor
  · intro hne
    refine Classical.byContradiction fun hnone => hne (ext_pixel ?_)
    intro cx hcx cy hcy
    rw [pixel_both, pixel_blank, Bool.and_eq_false_imp]
    intro hlit
    rw [← Bool.not_eq_true, pixel_stamp_iff]
    exact fun hcov => hnone ⟨cx, hcx, cy, hcy, hlit, hcov⟩
  · rintro ⟨cx, -, cy, -, hlit, hcov⟩ heq
    have hpix : (g.both (stamp x y sprite)).pixel cx cy = false := by rw [heq, pixel_blank]
    rw [pixel_both, hlit, (pixel_stamp_iff x y sprite cx cy).2 hcov] at hpix
    cases hpix

end Grid

end Chip8
