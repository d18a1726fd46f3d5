import Chip8.Host.ChaCha
import Chip8.Host.Display

/-!
# The screen

The outermost layer, where the parameters of the machine and its display get their values: the
random bytes are those of `ChaCha.generator`, and the screen is a display with a window that keeps
what its last two updates have said, on a host that refuses with fixed words.
-/

namespace Chip8

/-- What a window has been told at its last two updates. -/
structure Window where
  /-- The keys that are held. -/
  held : List HostKey
  /-- The keys that were held at the update before. -/
  before : List HostKey
  isOpen : Bool
deriving DecidableEq, Repr

namespace Window

/-- The window after an update with the keys that are now held. -/
def update (w : Window) (held : List HostKey) (isOpen : Bool) : Window where
  held := held
  before := w.held
  isOpen := isOpen

/-- A window that says what it has been told. A key is newly down if it was not held at the update
before. -/
instance : HostWindow Window where
  fresh := ⟨[], [], true⟩
  update := update
  isOpen := isOpen
  isDown w key := w.held.contains key
  isNewlyDown w key := w.held.contains key && !w.before.contains key

/-- It answers from its last two updates. -/
instance : LawfulHostWindow Window where
  isOpen_fresh := rfl
  isOpen_update _ _ _ := rfl
  isDown_fresh _ := rfl
  isDown_update _ _ _ _ := rfl
  isNewlyDown_fresh _ := rfl
  isNewlyDown_update _ _ _ _ := rfl

/-- Passes the state of the keyboard on to the keypad, and asks to quit if the user does. -/
def poll? (w : Window) (k : Keypad) : Except Fault Keypad :=
  HostWindow.poll? w k

end Window

/-- A display with such a window. -/
abbrev Screen := Display Window

namespace Screen

/-- The window to ask for, at a wanted size. -/
def request (factor : Nat) (opened : Bool) : WindowRequest :=
  Display.request factor opened

/-- Opens a screen, provided that the host opens the window. -/
def open? (opened : Bool) : Except HostFault Screen :=
  Display.open? (if opened then .ok HostWindow.fresh else .error "Failed to create window")

/-- Shows a picture, provided that the host takes it. -/
def draw (s : Screen) (g : Grid) (accepted : Bool) : Screen × Except HostFault Frame :=
  Display.draw s g (if accepted then .ok () else .error "Failed to Update")

end Screen

end Chip8
