import Chip8.Fault

/-!
# The keypad

Sixteen keys, numbered 0 to F. The keypad keeps which of them are held, and apart from that
one *pending* press: the first key that went down since the last time a press was taken. A
press is latched only when the key was up and nothing is pending, so holding a key gives one
press however often it is reported, and letting go of it takes nothing back. A request to
quit is kept until the keypad is reset.
-/

namespace Chip8

/-- The number of keys. -/
def keyCount : Nat := 16

/-- Which keys are held. -/
abbrev HeldKeys := Vector Bool keyCount

/-- Whether a key is held. Numbers from 16 on name no key and are never held. -/
def HeldKeys.contains (held : HeldKeys) (key : UInt8) : Bool :=
  held[key.toNat]?.getD false

/-- What the input side has reported, as far as the machine can still ask for it. -/
structure Keypad where
  /-- The keys that are down now. -/
  held : HeldKeys
  /-- The press that waits to be taken. -/
  pending : Option UInt8
  /-- Somebody asked to quit. -/
  quit : Bool
deriving DecidableEq

namespace Keypad

/-- No key held, no press pending, no request to quit. -/
def idle : Keypad where
  held := Vector.replicate keyCount false
  pending := none
  quit := false

/-- Whether a key is held. -/
def isPressed (k : Keypad) (key : UInt8) : Bool :=
  k.held.contains key

/-- A key goes down, or is reported down again. -/
def keyDown? (k : Keypad) (key : UInt8) : Except Fault Keypad :=
  if h : key.toNat < keyCount then
    .ok { k with
      held := k.held.set key.toNat true
      pending := if k.isPressed key then k.pending else k.pending.or (some key) }
  else .error (.invalidIndex key)

/-- A key goes up, or is reported up again. -/
def keyUp? (k : Keypad) (key : UInt8) : Except Fault Keypad :=
  if h : key.toNat < keyCount then .ok { k with held := k.held.set key.toNat false }
  else .error (.invalidIndex key)

/-- Forgets the pending press, be it that it was taken or that it came too early. -/
def clearPending (k : Keypad) : Keypad :=
  { k with pending := none }

/-- Asks the machine to stop. -/
def requestQuit (k : Keypad) : Keypad :=
  { k with quit := true }

end Keypad

end Chip8
