import Chip8.Proofs.SpriteCells
import Mathlib.Data.List.Perm.Basic

/-!
# Sequences of drawings

A drawing adds a fixed picture to the one that is there, pixel by pixel and without carry.
So the pictures that can be drawn on one another form a group in which every element is its
own inverse: a sequence of drawings adds up to one picture, whatever the order, and drawing
the sequence again takes it off. The collisions do depend on what was there before. They
follow from the cells under a sprite alone when the same drawing is made twice.

## Main statements

* `Grid.drawAll_eq_xor`: a sequence of drawings adds one picture to the one that is there.
* `Grid.drawAll_perm`: the order of the drawings does not matter.
* `Grid.collides_draw_iff`: when a repeated drawing collides.
* `Grid.drawings_cancel`: the laws of drawing, together.
-/

namespace Chip8

/-- A sprite, and the point where it is drawn. -/
structure Drawing where
  x : UInt8
  y : UInt8
  sprite : List UInt8
deriving DecidableEq

namespace Grid

/-! ### The group of pictures -/

/-- Of three pictures combined, it does not matter which two come first. -/
theorem xor_assoc (g h k : Grid) : (g.xor h).xor k = g.xor (h.xor k) :=
  ext_pixel fun x _ y _ => by simp only [pixel_xor, Bool.xor_assoc]

/-- Two pictures are combined in either order. -/
theorem xor_comm (g h : Grid) : g.xor h = h.xor g :=
  ext_pixel fun x _ y _ => by simp only [pixel_xor, Bool.xor_comm]

/-- A blank picture adds nothing. -/
theorem xor_blank (g : Grid) : g.xor blank = g :=
  ext_pixel fun x _ y _ => by rw [pixel_xor, pixel_blank, Bool.xor_false]

/-- A picture combined with itself is blank, so it is its own inverse. -/
theorem xor_self (g : Grid) : g.xor g = blank :=
  ext_pixel fun x _ y _ => by rw [pixel_xor, pixel_blank, Bool.xor_self]

/-! ### Sequences of drawings -/

/-- Makes one drawing. -/
def drawOne (g : Grid) (d : Drawing) : Grid :=
  g.draw d.x d.y d.sprite

/-- Makes a sequence of drawings, the first of the list first. -/
def drawAll (g : Grid) (ds : List Drawing) : Grid :=
  ds.foldl drawOne g

/-- On a blank picture, a drawing leaves the stamp of its sprite. -/
theorem draw_blank (x y : UInt8) (sprite : List UInt8) :
    blank.draw x y sprite = stamp x y sprite := by
  rw [draw, xor_comm, xor_blank]

/-- A sequence of drawings adds the picture that it makes on a blank one. -/
theorem drawAll_eq_xor (g : Grid) (ds : List Drawing) :
    g.drawAll ds = g.xor (blank.drawAll ds) := by
  induction ds generalizing g with
  | nil => exact (xor_blank g).symm
  | cons d ds ih =>
    calc g.drawAll (d :: ds)
        = (g.drawOne d).drawAll ds := rfl
      _ = (g.xor (stamp d.x d.y d.sprite)).xor (blank.drawAll ds) := ih _
      _ = g.xor ((blank.drawOne d).xor (blank.drawAll ds)) := by
          rw [xor_assoc, drawOne, draw_blank]
      _ = g.xor (blank.drawAll (d :: ds)) := congrArg g.xor (ih (blank.drawOne d)).symm

/-- Two drawings can change places. -/
theorem drawOne_comm (g : Grid) (d e : Drawing) :
    (g.drawOne d).drawOne e = (g.drawOne e).drawOne d := by
  simp only [drawOne, draw]
  rw [xor_assoc, xor_comm (stamp _ _ _), ← xor_assoc]

/-- So a sequence of drawings makes the same picture in any order. -/
theorem drawAll_perm {ds es : List Drawing} (hperm : ds.Perm es) (g : Grid) :
    g.drawAll ds = g.drawAll es :=
  hperm.foldl_eq' (fun d _ e _ g => drawOne_comm g d e) g

/-- Drawings made again, in any order, take off what they have drawn. -/
theorem drawAll_drawAll_perm {ds es : List Drawing} (hperm : ds.Perm es) (g : Grid) :
    (g.drawAll ds).drawAll es = g := by
  rw [drawAll_eq_xor, ← drawAll_perm hperm, drawAll_eq_xor g, xor_assoc, xor_self, xor_blank]

/-! ### Points past the edges -/

/-- The cells under a sprite depend on the point modulo the width and the height alone. -/
theorem spriteCells_wrap (x y : UInt8) (sprite : List UInt8) :
    spriteCells (x % 64) (y % 32) sprite = spriteCells x y sprite := by
  refine List.map_congr_left fun place _ => ?_
  simp only [cellUnder, UInt8.toNat_mod]
  exact Prod.ext (Nat.mod_add_mod _ _ _) (Nat.mod_add_mod _ _ _)

/-- So does a drawing at that point. -/
theorem draw_wrap (g : Grid) (x y : UInt8) (sprite : List UInt8) :
    g.draw (x % 64) (y % 32) sprite = g.draw x y sprite := by
  rw [draw_eq_foldl_flip, spriteCells_wrap, ← draw_eq_foldl_flip]

/-- So does whether it collides. -/
theorem collides_wrap (g : Grid) (x y : UInt8) (sprite : List UInt8) :
    g.collides (x % 64) (y % 32) sprite = g.collides x y sprite := by
  rw [collides_eq_any, spriteCells_wrap, ← collides_eq_any]

end Grid

/-! ### A drawing made twice -/

/-- A byte without a bit that is on is zero. -/
theorem eq_zero_of_testBit {byte : UInt8} (hoff : ∀ k < 8, byte.toNat.testBit k = false) :
    byte = 0 := by
  refine UInt8.toNat_inj.1 (Nat.eq_of_testBit_eq fun k => ?_)
  rw [UInt8.toNat_zero, Nat.zero_testBit]
  by_cases hk : k < 8
  · exact hoff k hk
  · exact Nat.testBit_lt_two_pow (Nat.lt_of_lt_of_le byte.toNat_lt
      (Nat.pow_le_pow_right (by decide) (Nat.le_of_not_lt hk)))

/-- A byte has a bit that is on if and only if it is not zero. -/
theorem exists_testBit_iff_ne_zero (byte : UInt8) :
    (∃ i < 8, byte.toNat.testBit (7 - i) = true) ↔ byte ≠ 0 := by
  constructor
  · rintro ⟨i, -, hbit⟩ rfl
    rw [UInt8.toNat_zero, Nat.zero_testBit] at hbit
    cases hbit
  · intro hne
    refine Classical.byContradiction fun hnone => hne (eq_zero_of_testBit fun k hk => ?_)
    rw [← Bool.not_eq_true]
    intro hbit
    refine hnone ⟨7 - k, by omega, ?_⟩
    rw [Nat.sub_sub_self (by omega)]
    exact hbit

/-- There is a cell under a sprite if and only if one of its first rows is not empty. -/
theorem exists_mem_spriteCells_iff (x y : UInt8) (sprite : List UInt8) :
    (∃ cell, cell ∈ spriteCells x y sprite) ↔ ∃ byte ∈ sprite.take spriteRows, byte ≠ 0 := by
  simp only [spriteCells, List.mem_map]
  constructor
  · rintro ⟨-, ⟨i, j⟩, hplace, -⟩
    obtain ⟨byte, hbyte, hi, hbit⟩ := mem_spriteBits_iff_getElem?.1 hplace
    exact ⟨byte, List.mem_of_getElem? hbyte, (exists_testBit_iff_ne_zero byte).1 ⟨i, hi, hbit⟩⟩
  · rintro ⟨byte, hmem, hne⟩
    obtain ⟨j, hbyte⟩ := List.mem_iff_getElem?.1 hmem
    obtain ⟨i, hi, hbit⟩ := (exists_testBit_iff_ne_zero byte).2 hne
    exact ⟨_, (i, j), mem_spriteBits_iff_getElem?.2 ⟨byte, hbyte, hi, hbit⟩, rfl⟩

namespace Grid

/-- Drawing again where a sprite has just been drawn collides if and only if a pixel of the
sprite was off before. -/
theorem collides_draw_iff (g : Grid) (x y : UInt8) (sprite : List UInt8) :
    (g.draw x y sprite).collides x y sprite = true ↔
      ∃ cell ∈ spriteCells x y sprite, g.lit cell = false := by
  rw [collides_eq_any, List.any_eq_true]
  refine exists_congr fun cell => and_congr_right fun hmem => ?_
  rw [lit_draw g x y sprite (inPicture_of_mem_spriteCells hmem), decide_eq_true hmem,
    Bool.xor_true, Bool.not_eq_true']

/-- On a blank picture the second of two equal drawings collides, unless the rows that are drawn
are empty. -/
theorem collides_draw_blank_iff (x y : UInt8) (sprite : List UInt8) :
    (blank.draw x y sprite).collides x y sprite = true ↔
      ∃ byte ∈ sprite.take spriteRows, byte ≠ 0 := by
  rw [collides_draw_iff, ← exists_mem_spriteCells_iff x y]
  exact exists_congr fun cell => and_iff_left (pixel_blank cell.1 cell.2)

/-- **Drawings cancel**: a sequence of drawings makes the same picture in any order, and
made again in any order it is taken off. A point past the edges stands for the point that
it wraps to. A drawing that is made twice in a row collides the second time if and only if
a pixel of the sprite was off before the first, and so on a blank picture if and only if one
of the first fifteen rows of the sprite is not empty. -/
theorem drawings_cancel (g : Grid) :
    (∀ ds es : List Drawing, ds.Perm es → g.drawAll ds = g.drawAll es) ∧
    (∀ ds es : List Drawing, ds.Perm es → (g.drawAll ds).drawAll es = g) ∧
    (∀ (x y : UInt8) (sprite : List UInt8),
      g.draw x y sprite = g.draw (x % 64) (y % 32) sprite ∧
      g.collides x y sprite = g.collides (x % 64) (y % 32) sprite) ∧
    (∀ (x y : UInt8) (sprite : List UInt8),
      ((g.draw x y sprite).collides x y sprite = true ↔
        ∃ cell ∈ spriteCells x y sprite, g.pixel cell.1 cell.2 = false) ∧
      ((blank.draw x y sprite).collides x y sprite = true ↔
        ∃ byte ∈ sprite.take spriteRows, byte ≠ 0)) := by
  refine ⟨fun _ _ hperm => drawAll_perm hperm g, fun _ _ hperm => drawAll_drawAll_perm hperm g,
    fun x y sprite => ⟨?_, ?_⟩, fun x y sprite => ⟨?_, ?_⟩⟩
  · exact (draw_wrap g x y sprite).symm
  · exact (collides_wrap g x y sprite).symm
  · exact collides_draw_iff g x y sprite
  · exact collides_draw_blank_iff x y sprite

/-- Two overlapping blocks, one of them over a corner, in both orders. -/
theorem drawings_cancel_overlapping :
    List.Perm [Drawing.mk 62 31 [0xFF, 0xFF], ⟨0, 0, [0xF0]⟩]
      [⟨0, 0, [0xF0]⟩, ⟨62, 31, [0xFF, 0xFF]⟩] ∧
    blank.drawAll [⟨62, 31, [0xFF, 0xFF]⟩, ⟨0, 0, [0xF0]⟩] =
      blank.drawAll [⟨0, 0, [0xF0]⟩, ⟨62, 31, [0xFF, 0xFF]⟩] ∧
    (blank.drawAll [⟨62, 31, [0xFF, 0xFF]⟩, ⟨0, 0, [0xF0]⟩]).drawAll
      [⟨0, 0, [0xF0]⟩, ⟨62, 31, [0xFF, 0xFF]⟩] = blank ∧
    (blank.draw 62 31 [0xFF, 0xFF]).collides 62 31 [0xFF, 0xFF] = true := by
  obtain ⟨hsame, hback, -, htwice⟩ := drawings_cancel blank
  have hperm : List.Perm [Drawing.mk 62 31 [0xFF, 0xFF], ⟨0, 0, [0xF0]⟩]
      [⟨0, 0, [0xF0]⟩, ⟨62, 31, [0xFF, 0xFF]⟩] := List.Perm.swap _ _ _
  exact ⟨hperm, hsame _ _ hperm, hback _ _ hperm, (htwice 62 31 _).2.2 (by decide)⟩

end Grid

end Chip8
