import Chip8.Host.Key
import Chip8.Input.Keypad

/-!
# Windows as a source of keys

A window belongs to the host, which updates it from time to time. In between it can be asked what
it has learned: whether it is still open, which keys are held, and which of them have just gone
down. `HostWindow` is what can be asked, and `LawfulHostWindow` is what the answers are to be: that
they come from the latest updates. `HostWindow.poll?` passes them on to the keypad, whatever the
window is.
-/

namespace Chip8

/-- What can be done with a window of the host. -/
class HostWindow (W : Type) where
  /-- A window that has just been opened. -/
  fresh : W
  /-- The window after an update, when these keys are held and it is open or not. -/
  update (w : W) (held : List HostKey) (isOpen : Bool) : W
  /-- The window has not been closed. -/
  isOpen (w : W) : Bool
  /-- A key is held. -/
  isDown (w : W) (key : HostKey) : Bool
  /-- A key is held, and was not at the update before. -/
  isNewlyDown (w : W) (key : HostKey) : Bool

/-- The answers of a window come from its latest updates. A window that has just been opened is
open, and no key is held. -/
class LawfulHostWindow (W : Type) [HostWindow W] : Prop where
  isOpen_fresh : HostWindow.isOpen (HostWindow.fresh : W) = true
  isOpen_update (w : W) (held : List HostKey) (isOpen : Bool) :
    HostWindow.isOpen (HostWindow.update w held isOpen) = isOpen
  isDown_fresh (key : HostKey) : HostWindow.isDown (HostWindow.fresh : W) key = false
  isDown_update (w : W) (held : List HostKey) (isOpen : Bool) (key : HostKey) :
    HostWindow.isDown (HostWindow.update w held isOpen) key = held.contains key
  isNewlyDown_fresh (key : HostKey) : HostWindow.isNewlyDown (HostWindow.fresh : W) key = false
  isNewlyDown_update (w : W) (held : List HostKey) (isOpen : Bool) (key : HostKey) :
    HostWindow.isNewlyDown (HostWindow.update w held isOpen) key =
      (held.contains key && !HostWindow.isDown w key)

namespace HostWindow

variable {W : Type} [HostWindow W]

/-- The user wants to leave: the window was closed, or the escape key went down. -/
def wantsToQuit (w : W) : Bool :=
  !isOpen w || isNewlyDown w .escape

/-- Passes the state of one key on to the keypad. -/
def pollKey? (w : W) (k : Keypad) (entry : HostKey × UInt8) : Except Fault Keypad :=
  if isDown w entry.1 then k.keyDown? entry.2 else k.keyUp? entry.2

/-- Passes the state of the keyboard on to the keypad, and asks to quit if the user does. -/
def poll? (w : W) (k : Keypad) : Except Fault Keypad :=
  HostKey.keymap.foldlM (pollKey? w) (if wantsToQuit w then k.requestQuit else k)

end HostWindow

end Chip8
