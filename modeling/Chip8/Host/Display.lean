import Chip8.Host.Paint
import Chip8.Host.Window

/-!
# Displays

A window that shows the picture of the machine and listens to the keyboard. Windows come in a
few sizes only, so the wanted size is rounded up to the next one, or down to the largest.
Opening a window and updating it can be refused by the host, for a cause that it names. A refused
update has painted the display's array all the same, which does not matter, as every update paints
all of it.

The window, and what the host answers to a request, are parameters: `Display W` is a display with
a window of any kind.
-/

namespace Chip8

/-! ### Sizes -/

/-- How many pixels of the window a pixel of the picture takes, in each direction. -/
inductive Scale where
  | x1
  | x2
  | x4
  | x8
  | x16
  | x32
deriving DecidableEq, Repr

namespace Scale

/-- The name of a size. -/
def name : Scale → String
  | x1 => "X1"
  | x2 => "X2"
  | x4 => "X4"
  | x8 => "X8"
  | x16 => "X16"
  | x32 => "X32"

/-- The least size that is not below `factor`, or else the largest. -/
def ofFactor (factor : Nat) : Scale :=
  if factor ≤ 1 then x1
  else if factor ≤ 2 then x2
  else if factor ≤ 4 then x4
  else if factor ≤ 8 then x8
  else if factor ≤ 16 then x16
  else x32

end Scale

/-! ### Refusals -/

/-- What the host refused to do, with the cause that it names. -/
inductive HostFault where
  | openingWindow (cause : String)
  | updatingWindow (cause : String)
deriving DecidableEq, Repr

/-- The wording of a refusal: what was tried, and what went wrong. -/
def HostFault.message : HostFault → String
  | openingWindow cause => "opening window: " ++ cause
  | updatingWindow cause => "updating window: " ++ cause

/-! ### Displays -/

/-- What the host is asked for when a window is opened. -/
structure WindowRequest where
  title : String
  width : Nat
  height : Nat
  scale : Scale
  /-- The least time between two updates, in microseconds, once the window is open. -/
  updateMicros : Option Nat
deriving DecidableEq, Repr

/-- What the host is handed at an update. -/
structure Frame where
  pixels : Array Colour
  width : Nat
  height : Nat
deriving DecidableEq, Repr

/-- A window and the array that the picture is painted into. -/
structure Display (W : Type) where
  window : W
  pixels : Array Colour

namespace Display

variable {W : Type}

/-- The window to ask for, at a wanted size. At most about sixty updates are made in a
second, a limit that is set when the host has opened the window. -/
def request (factor : Nat) (opened : Bool) : WindowRequest where
  title := "chip8vm - ESC to exit"
  width := gridWidth
  height := gridHeight
  scale := .ofFactor factor
  updateMicros := if opened then some 16600 else none

/-- A display with this window, all dark. -/
def dark (window : W) : Display W where
  window := window
  pixels := Array.replicate pixelCount .off

/-- Opens a display, provided that the host opens the window. -/
def open? (answer : Except String W) : Except HostFault (Display W) :=
  match answer with
  | .ok window => .ok (dark window)
  | .error cause => .error (.openingWindow cause)

/-- The display with the picture painted. -/
def paint (d : Display W) (g : Grid) : Display W :=
  { d with pixels := g.paint d.pixels }

/-- What the host is handed for the display as it is painted. -/
def frame (d : Display W) : Frame where
  pixels := d.pixels
  width := gridWidth
  height := gridHeight

/-- Shows a picture: the display afterwards, and what the window received, provided that the
host takes it. -/
def draw (d : Display W) (g : Grid) (answer : Except String Unit) :
    Display W × Except HostFault Frame :=
  let painted := d.paint g
  match answer with
  | .ok () => (painted, .ok painted.frame)
  | .error cause => (painted, .error (.updatingWindow cause))

end Display

end Chip8
