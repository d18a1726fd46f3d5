import Chip8.Proofs.Drawings
import Mathlib.Algebra.GroupWithZero.Nat
import Mathlib.Data.List.DropRight

/-!
# The balance of lit pixels

A drawing turns on the pixels under a sprite that are off, and turns off those that are on. So
the number of pixels that are on grows by the number of bits that are on in the sprite, less
twice the number of those that lie over pixels that are on. A drawing collides if and only if
there is something to take away, and it can be seen from the count alone that it does.

The count is that of a picture that is combined with the stamp of the sprite, pixel by pixel.
That it comes to the bits of the sprite is because no two of them lie over the same pixel, also
where the sprite goes around an edge or a corner.

## Main statements

* `Grid.litCount_xor`: what two pictures combined have on.
* `Grid.litCount_draw`: the balance of a drawing.
* `Grid.litCount_drawAll`: the balance of a sequence of drawings.
* `Grid.lit_balance`: both, for every picture and for every run that starts on an empty one.
-/

namespace Chip8

/-- How many bits of a byte are on. -/
def bitsOn (byte : UInt8) : Nat :=
  (List.range 8).countP byte.toNat.testBit

/-- How many bits are on in the rows of a sprite that are drawn. -/
def spriteWeight (sprite : List UInt8) : Nat :=
  ((sprite.take spriteRows).map bitsOn).sum

/-- From the left or from the right, a byte has the same number of bits on. -/
theorem length_filter_testBit (byte : UInt8) :
    ((List.range 8).filter fun i => byte.toNat.testBit (7 - i)).length = bitsOn byte := by
  have hreverse : (List.range 8).map (7 - ·) = (List.range 8).reverse := rfl
  rw [bitsOn, ← List.countP_reverse, ← hreverse, List.countP_map, List.countP_eq_length_filter]
  rfl

/-- There is a place for each bit that is on. -/
theorem length_spriteBits (sprite : List UInt8) :
    (spriteBits sprite).length = spriteWeight sprite := by
  have hrows : (sprite.take spriteRows).zipIdx.map (bitsOn ∘ Prod.fst) =
      (sprite.take spriteRows).map bitsOn := by
    rw [← List.map_map, List.zipIdx_map_fst]
  simp only [spriteBits, List.length_flatMap, List.length_map, length_filter_testBit]
  exact congrArg List.sum hrows

/-! ### Counting pixels -/

/-- The cells of the picture, row by row. -/
def pictureCells : List (Nat × Nat) :=
  (List.range pixelCount).map fun i => (i % gridWidth, i / gridWidth)

/-- They are the cells within both bounds. -/
theorem mem_pictureCells {cell : Nat × Nat} : cell ∈ pictureCells ↔ InPicture cell := by
  obtain ⟨cx, cy⟩ := cell
  simp only [pictureCells, List.mem_map, List.mem_range, InPicture, pixelCount, gridWidth,
    gridHeight, Prod.mk.injEq]
  constructor
  · rintro ⟨i, hi, rfl, rfl⟩
    omega
  · rintro ⟨hx, hy⟩
    exact ⟨64 * cy + cx, by omega, by omega, by omega⟩

/-- No two numbers below 2048 stand for the same cell. -/
theorem nodup_pictureCells : pictureCells.Nodup := by
  refine List.nodup_range.map fun i j heq => ?_
  obtain ⟨hx, hy⟩ := Prod.mk.inj heq
  rw [← Nat.div_add_mod i gridWidth, ← Nat.div_add_mod j gridWidth, hx, hy]

/-- Among the cells of the picture, those of a list are counted once each. -/
theorem countP_pictureCells {cells : List (Nat × Nat)} (hnodup : cells.Nodup)
    (hcells : ∀ cell ∈ cells, InPicture cell) (p : Nat × Nat → Bool) :
    pictureCells.countP (fun cell => p cell && decide (cell ∈ cells)) = cells.countP p := by
  have hperm : (pictureCells.filter fun cell => decide (cell ∈ cells)).Perm cells := by
    refine (List.perm_ext_iff_of_nodup (nodup_pictureCells.filter _) hnodup).2 fun cell => ?_
    rw [List.mem_filter, decide_eq_true_eq, mem_pictureCells]
    exact and_iff_right_of_imp (hcells cell)
  rw [← List.countP_filter, hperm.countP_eq]

/-- Of two questions, the members of a list that say yes to exactly one, and twice those that say
yes to both, are as many as say yes to the one and to the other. -/
theorem countP_xor_add {α : Type} (p q : α → Bool) (l : List α) :
    l.countP (fun a => p a ^^ q a) + 2 * l.countP (fun a => p a && q a) =
      l.countP p + l.countP q := by
  induction l with
  | nil => rfl
  | cons a l ih =>
    simp only [List.countP_cons]
    cases p a <;> cases q a <;> simp <;> omega

namespace Grid

/-- The pixels that are on can be counted by their cells. -/
theorem litCount_eq_countP (g : Grid) : g.litCount = pictureCells.countP g.lit := by
  rw [litCount, pictureCells, List.countP_map]
  rfl

/-- No more pixels are on than there are. -/
theorem litCount_le (g : Grid) : g.litCount ≤ pixelCount := by
  rw [litCount]
  exact List.countP_le_length.trans_eq List.length_range

/-- None is on in a blank picture. -/
theorem litCount_blank : blank.litCount = 0 := by
  rw [litCount_eq_countP, List.countP_eq_zero]
  intro cell _
  rw [lit, pixel_blank]
  exact Bool.false_ne_true

/-- What is on in two pictures combined, and twice what is on in both, is what is on in the one
and in the other. -/
theorem litCount_xor (g h : Grid) :
    (g.xor h).litCount + 2 * (g.both h).litCount = g.litCount + h.litCount := by
  have hxor : (g.xor h).lit = fun cell => g.lit cell ^^ h.lit cell :=
    funext fun _ => pixel_xor ..
  have hboth : (g.both h).lit = fun cell => g.lit cell && h.lit cell :=
    funext fun _ => pixel_both ..
  simp only [litCount_eq_countP, hxor, hboth]
  exact countP_xor_add g.lit h.lit pictureCells

/-! ### Drawings -/

/-- How many of the bits that are on in a sprite lie over pixels that are on. -/
def overlap (g : Grid) (x y : UInt8) (sprite : List UInt8) : Nat :=
  (spriteBits sprite).countP fun place => g.lit (cellUnder x y place)

/-- As no two bits lie over the same cell, the overlap can be counted by cells as well. -/
theorem overlap_eq_countP (g : Grid) (x y : UInt8) (sprite : List UInt8) :
    g.overlap x y sprite = (spriteCells x y sprite).countP g.lit := by
  rw [spriteCells, List.countP_map]
  rfl

/-- The stamp of a sprite has the cells under the sprite on, and no others. -/
theorem lit_stamp {x y : UInt8} {sprite : List UInt8} {cell : Nat × Nat}
    (hcell : InPicture cell) :
    (stamp x y sprite).lit cell = decide (cell ∈ spriteCells x y sprite) := by
  rw [← draw_blank, lit_draw _ _ _ _ hcell, lit, pixel_blank, Bool.false_xor]

/-- The pixels of a picture under a sprite are counted bit by bit. -/
theorem litCount_both_stamp (g : Grid) (x y : UInt8) (sprite : List UInt8) :
    (g.both (stamp x y sprite)).litCount = g.overlap x y sprite := by
  rw [litCount_eq_countP, overlap_eq_countP, ← countP_pictureCells (nodup_spriteCells x y sprite)
    fun _ => inPicture_of_mem_spriteCells]
  refine List.countP_congr fun cell hmem => ?_
  rw [← lit_stamp (mem_pictureCells.1 hmem), lit, pixel_both]
  rfl

/-- So it has as many pixels on as the sprite has bits. -/
theorem litCount_stamp (x y : UInt8) (sprite : List UInt8) :
    (stamp x y sprite).litCount = spriteWeight sprite := by
  have hlength : (spriteCells x y sprite).countP (fun _ => true) = spriteWeight sprite := by
    rw [List.countP_true, spriteCells, List.length_map, length_spriteBits]
  rw [← hlength, litCount_eq_countP, ← countP_pictureCells (nodup_spriteCells x y sprite)
    fun _ => inPicture_of_mem_spriteCells]
  refine List.countP_congr fun cell hmem => ?_
  rw [lit_stamp (mem_pictureCells.1 hmem), Bool.true_and]

/-- The balance of a drawing. -/
theorem litCount_draw (g : Grid) (x y : UInt8) (sprite : List UInt8) :
    (g.draw x y sprite).litCount + 2 * g.overlap x y sprite =
      g.litCount + spriteWeight sprite := by
  rw [draw, ← litCount_both_stamp, litCount_xor, litCount_stamp]

/-- A drawing collides if something overlaps. -/
theorem collides_iff_overlap (g : Grid) (x y : UInt8) (sprite : List UInt8) :
    g.collides x y sprite = true ↔ 0 < g.overlap x y sprite := by
  rw [collides_eq_any, overlap_eq_countP, List.any_eq_true, List.countP_pos_iff]

end Grid

/-! ### Runs -/

/-- How many bits are on in the sprites of some drawings. -/
def inkOf (ds : List Drawing) : Nat :=
  (ds.map fun d => spriteWeight d.sprite).sum

/-- The first drawing adds the bits of its sprite. -/
theorem inkOf_cons (d : Drawing) (ds : List Drawing) :
    inkOf (d :: ds) = spriteWeight d.sprite + inkOf ds :=
  List.sum_cons

/-- What is done to a picture. -/
inductive Stroke where
  | draw (d : Drawing)
  /-- All pixels are turned off. -/
  | clear

/-- The drawing that is made, unless the picture is cleared. -/
def Stroke.drawing? : Stroke → Option Drawing
  | .draw d => some d
  | .clear => none

/-- The drawings among some strokes since the picture was last cleared. -/
def sinceCleared (ss : List Stroke) : List Drawing :=
  (ss.rtakeWhile (·.drawing?.isSome)).filterMap Stroke.drawing?

/-- Nothing has been drawn since a clear that was just made. -/
theorem sinceCleared_clear (ss : List Stroke) : sinceCleared (ss ++ [.clear]) = [] := by
  rw [sinceCleared, List.rtakeWhile_concat]
  rfl

/-- A drawing is one more since the last clear. -/
theorem sinceCleared_draw (ss : List Stroke) (d : Drawing) :
    sinceCleared (ss ++ [.draw d]) = sinceCleared ss ++ [d] := by
  have hdraw : (Stroke.draw d).drawing?.isSome = true := rfl
  rw [sinceCleared, List.rtakeWhile_concat, if_pos hdraw, List.filterMap_append]
  rfl

namespace Grid

/-- The balance of a sequence of drawings. -/
theorem litCount_drawAll (g : Grid) (ds : List Drawing) :
    ∃ taken, (g.drawAll ds).litCount + 2 * taken = g.litCount + inkOf ds := by
  induction ds generalizing g with
  | nil => exact ⟨0, rfl⟩
  | cons d ds ih =>
    obtain ⟨taken, hrest⟩ := ih (g.drawOne d)
    have hfirst : (g.drawOne d).litCount + 2 * g.overlap d.x d.y d.sprite = _ :=
      g.litCount_draw d.x d.y d.sprite
    refine ⟨g.overlap d.x d.y d.sprite + taken, ?_⟩
    change ((g.drawOne d).drawAll ds).litCount + _ = _
    rw [inkOf_cons]
    omega

/-- The picture after a stroke. -/
def strokeOne (g : Grid) : Stroke → Grid
  | .draw d => g.drawOne d
  | .clear => blank

/-- The picture after some strokes, in order. -/
def strokeAll (g : Grid) (ss : List Stroke) : Grid :=
  ss.foldl strokeOne g

/-- On an empty picture, only the drawings since the last clear are seen. -/
theorem strokeAll_blank (ss : List Stroke) :
    blank.strokeAll ss = blank.drawAll (sinceCleared ss) := by
  induction ss using List.reverseRecOn with
  | nil => rfl
  | append_singleton ss s ih =>
    have hlast : blank.strokeAll (ss ++ [s]) = (blank.strokeAll ss).strokeOne s :=
      List.foldl_concat ..
    rw [hlast, ih]
    cases s with
    | clear => rw [sinceCleared_clear, strokeOne, drawAll, List.foldl_nil]
    | draw d => rw [sinceCleared_draw, strokeOne, drawAll, drawAll, List.foldl_concat]

/-- **The balance of lit pixels.** A drawing adds to the number of pixels that are on the number
of bits that are on in the first rows of the sprite, less twice the number of those that lie over
pixels that are on. It collides if and only if there are any such bits, and so if and only if the
count grows by less than the bits of the sprite.

At every moment of a run of drawings and clears that starts on an empty picture, there are no
more pixels on than bits have been drawn since the last clear, and not more than there are. If
the number of these bits is odd, a pixel is on. -/
theorem lit_balance :
    (∀ (g : Grid) (x y : UInt8) (sprite : List UInt8),
      (g.draw x y sprite).litCount + 2 * g.overlap x y sprite =
        g.litCount + spriteWeight sprite ∧
      (g.collides x y sprite = true ↔ 0 < g.overlap x y sprite) ∧
      (g.collides x y sprite = true ↔
        (g.draw x y sprite).litCount < g.litCount + spriteWeight sprite)) ∧
    ∀ ss : List Stroke,
      (blank.strokeAll ss).litCount ≤ inkOf (sinceCleared ss) ∧
      (blank.strokeAll ss).litCount ≤ 2048 ∧
      (inkOf (sinceCleared ss) % 2 = 1 → 0 < (blank.strokeAll ss).litCount) := by
  refine ⟨fun g x y sprite => ?_, fun ss => ?_⟩
  · have hbalance := g.litCount_draw x y sprite
    have hcollides := g.collides_iff_overlap x y sprite
    refine ⟨hbalance, hcollides, hcollides.trans ?_⟩
    omega
  · obtain ⟨taken, hbalance⟩ := blank.litCount_drawAll (sinceCleared ss)
    rw [← strokeAll_blank, litCount_blank] at hbalance
    exact ⟨by omega, litCount_le _, fun hodd => by omega⟩

/-- A block is drawn and cleared. Then a sprite of three bits is drawn over a corner, so that
there is a pixel on; drawn again, it collides. -/
theorem lit_balance_corner :
    inkOf (sinceCleared [.draw ⟨0, 0, [0xFF]⟩, .clear, .draw ⟨63, 31, [0xC0, 0x80]⟩]) % 2 = 1 ∧
      0 < (blank.strokeAll
        [.draw ⟨0, 0, [0xFF]⟩, .clear, .draw ⟨63, 31, [0xC0, 0x80]⟩]).litCount ∧
      ((blank.draw 63 31 [0xC0, 0x80]).draw 63 31 [0xC0, 0x80]).litCount <
        (blank.draw 63 31 [0xC0, 0x80]).litCount + 3 := by
  obtain ⟨hdraw, hrun⟩ := lit_balance
  obtain ⟨-, -, hodd⟩ := hrun [.draw ⟨0, 0, [0xFF]⟩, .clear, .draw ⟨63, 31, [0xC0, 0x80]⟩]
  have hthree : spriteWeight [0xC0, 0x80] = 3 := by decide
  obtain ⟨-, -, hless⟩ := hdraw (blank.draw 63 31 [0xC0, 0x80]) 63 31 [0xC0, 0x80]
  rw [hthree, collides_draw_blank_iff] at hless
  exact ⟨by decide, hodd (by decide), hless.1 ⟨0xC0, by decide, by decide⟩⟩

end Grid

end Chip8
