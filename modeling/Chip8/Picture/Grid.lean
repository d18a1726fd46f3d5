/-!
# The picture

A picture is a grid of 32 rows with 64 pixels each, all of them on or off. A row is kept as
a bit vector whose most significant bit is the leftmost pixel, so that combining two
pictures is one word operation per row. `Grid.pixel` is the view of a picture that
everything else is said in: it takes any two natural numbers and wraps at both edges.
-/

namespace Chip8

/-- The number of pixels in a row. -/
def gridWidth : Nat := 64

/-- The number of rows. -/
def gridHeight : Nat := 32

/-- The number of pixels in all. -/
def pixelCount : Nat := gridWidth * gridHeight

/-- One row of pixels, the leftmost in the most significant bit. -/
abbrev PixelRow := BitVec gridWidth

/-- A picture, top row first. -/
structure Grid where
  rows : Vector PixelRow gridHeight
deriving DecidableEq

namespace Grid

/-- All pixels off. -/
def blank : Grid :=
  ⟨Vector.replicate gridHeight 0⟩

/-- Whether the pixel in column `x` of row `y` is on. Both coordinates wrap. -/
def pixel (g : Grid) (x y : Nat) : Bool :=
  have : y % gridHeight < gridHeight := Nat.mod_lt _ (by decide)
  g.rows[y % gridHeight].getMsbD (x % gridWidth)

/-- Whether pixel number `i` is on, counted row by row from the top left. -/
def cell (g : Grid) (i : Nat) : Bool :=
  g.pixel (i % gridWidth) (i / gridWidth)

/-- How many pixels are on. -/
def litCount (g : Grid) : Nat :=
  (List.range pixelCount).countP g.cell

/-- The pixels that are on in exactly one of two pictures. -/
def xor (g h : Grid) : Grid :=
  ⟨Vector.zipWith (· ^^^ ·) g.rows h.rows⟩

/-- The pixels that are on in both of two pictures. -/
def both (g h : Grid) : Grid :=
  ⟨Vector.zipWith (· &&& ·) g.rows h.rows⟩

/-- In the empty picture every pixel is off. -/
@[simp] theorem pixel_blank (x y : Nat) : blank.pixel x y = false := by
  simp [pixel, blank]

/-- Two pictures are combined pixel by pixel. -/
@[simp] theorem pixel_xor (g h : Grid) (x y : Nat) :
    (g.xor h).pixel x y = (g.pixel x y ^^ h.pixel x y) := by
  simp [pixel, xor]

/-- So is what they have in common. -/
@[simp] theorem pixel_both (g h : Grid) (x y : Nat) :
    (g.both h).pixel x y = (g.pixel x y && h.pixel x y) := by
  simp [pixel, both]

/-- A picture is known by its pixels. -/
theorem ext_pixel {g h : Grid}
    (eq : ∀ x < gridWidth, ∀ y < gridHeight, g.pixel x y = h.pixel x y) : g = h := by
  obtain ⟨rows⟩ := g
  obtain ⟨rows'⟩ := h
  congr 1
  refine Vector.ext fun y hy => ?_
  refine BitVec.eq_of_getMsbD_eq fun x hx => ?_
  simpa only [pixel, Nat.mod_eq_of_lt hy, Nat.mod_eq_of_lt hx] using eq x hx y hy

end Grid

end Chip8
