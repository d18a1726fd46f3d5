import Chip8.Picture.Grid

/-!
# Sprites

A sprite is a list of bytes, each a row of eight pixels with the leftmost in the most
significant bit. Drawing it at a point flips those pixels of the picture that are on in the
sprite, and wraps at the edges. Only the first fifteen rows of a sprite count.

A drawing is described by its *stamp*, the picture that has exactly the sprite's pixels on:
`Grid.draw` combines picture and stamp, and `Grid.collides` asks whether they share a pixel,
which is to say whether drawing turns a pixel off.
-/

namespace Chip8

/-- The largest number of rows that a sprite can have. -/
def spriteRows : Nat := 15

/-- A row of a sprite, with its leftmost pixel in column `x` and the rest to the right of it,
around the edge if need be. -/
def spriteRow (x : Nat) (byte : UInt8) : PixelRow :=
  BitVec.rotateRight (byte.toBitVec ++ (0 : BitVec 56)) x

/-- How many rows below row `y` of the picture row `r` lies, counted around the lower edge. -/
def rowsBelow (y r : Nat) : Nat :=
  (r + (gridHeight - y % gridHeight)) % gridHeight

namespace Grid

/-- The picture of a sprite alone, with its top in row `y`. -/
def stamp (x y : UInt8) (sprite : List UInt8) : Grid :=
  ⟨Vector.ofFn fun r =>
    match (sprite.take spriteRows)[rowsBelow y.toNat r]? with
    | some byte => spriteRow x.toNat byte
    | none => 0⟩

/-- Flips the pixels of a sprite. -/
def draw (g : Grid) (x y : UInt8) (sprite : List UInt8) : Grid :=
  g.xor (stamp x y sprite)

/-- Drawing the sprite would turn a pixel off. -/
def collides (g : Grid) (x y : UInt8) (sprite : List UInt8) : Bool :=
  g.both (stamp x y sprite) ≠ blank

end Grid

end Chip8
