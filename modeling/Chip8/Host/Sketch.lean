import Chip8.Picture.Grid

/-!
# Pictures as text

A picture in characters, for hosts that have no window: one line for each row, and a `#` for
each pixel that is on.
-/

namespace Chip8.Grid

/-- The character of a pixel. -/
def sketchPixel (lit : Bool) : Char :=
  if lit then '#' else ' '

/-- One row of a picture. -/
def sketchRow (g : Grid) (y : Nat) : String :=
  String.ofList ((List.range gridWidth).map fun x => sketchPixel (g.pixel x y))

/-- The rows of a picture, top row first. -/
def sketch (g : Grid) : List String :=
  (List.range gridHeight).map g.sketchRow

end Chip8.Grid
