import Chip8.Picture.Grid

/-!
# Painting the picture

A window shows pixels as words of red, green and blue, row by row in one array. `paint`
writes a picture into such an array, whose size need not be that of the picture: cells behind
the last pixel are left alone, and pixels behind the last cell are not shown.
-/

namespace Chip8

/-- A colour, as the word that a window shows. -/
abbrev Colour := UInt32

namespace Colour

/-- The colour with these parts. Each should be below 256; larger ones run into the part
before. -/
def ofParts (red green blue : UInt16) : Colour :=
  (red.toUInt32 <<< 16) ||| (green.toUInt32 <<< 8) ||| blue.toUInt32

/-- The colour of a pixel that is on. -/
def on : Colour := ofParts 0 127 255

/-- The colour of a pixel that is off. -/
def off : Colour := ofParts 0 0 0

/-- The colour of a pixel. -/
def ofPixel (lit : Bool) : Colour :=
  if lit then on else off

end Colour

namespace Grid

/-- The colour of pixel number `i`, counted row by row. -/
def colour (g : Grid) (i : Nat) : Colour :=
  .ofPixel (g.cell i)

/-- Writes a picture into an array of colours, as far as both reach. -/
def paint (g : Grid) (cells : Array Colour) : Array Colour :=
  cells.mapIdx fun i old => if i < pixelCount then g.colour i else old

end Grid

end Chip8
