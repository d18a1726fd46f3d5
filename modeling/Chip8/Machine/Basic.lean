import Chip8.Input.Keypad
import Chip8.Picture.Grid
import Chip8.Random.ByteStream
import Chip8.Settings
import Chip8.Storage.Registers
import Chip8.Time.Countdown
import Chip8.Time.Pacer

/-!
# The machine

`Machine` is the whole state: what a program can see (memory, registers, picture, timers,
keys), whether it is running, and what the outside keeps for it (the pacer, the random
stream and the program to go back to on a reset).

`Machine.fault` is the fault that halted the machine. It is a field of its own and not part
of `RunState.halted`, because a halt that was asked for has none, and because asking for a
halt takes the fault of an earlier one away.
-/

namespace Chip8

/-- Whether instructions are executed. -/
inductive RunState where
  | running
  /-- Suspended until a key is pressed, whose number goes to `register`. -/
  | waiting (register : UInt8)
  | halted
deriving DecidableEq, Repr

/-- The state of a machine. -/
structure Machine where
  memory : Memory
  registers : Registers
  grid : Grid
  keypad : Keypad
  delay : Countdown
  sound : Countdown
  state : RunState
  /-- The fault that halted the machine; none for a halt that was asked for. -/
  fault : Option Fault
  pacer : Pacer
  random : ByteStream
  /-- The program that was loaded last. -/
  program : List UInt8

namespace Machine

/-- A machine that has just been switched on, without a program. -/
def powerOn (pacer : Pacer) (random : ByteStream) : Machine where
  memory := .powerOn
  registers := .powerOn
  grid := .blank
  keypad := .idle
  delay := .zero
  sound := .zero
  state := .running
  fault := none
  pacer := pacer
  random := random
  program := []

/-- A machine with these settings, whose random bytes are those that a generator makes of a
seed. -/
def withSeed (generator : Generator) (s : Settings) (seed : UInt64) : Machine :=
  powerOn (.start s.cycleRate s.tickRate) (.ofSeed generator seed)

/-- The machine has stopped, be it on a fault or because it was asked to. -/
def isHalted (m : Machine) : Bool :=
  m.state = .halted

/-- The machine makes a sound. -/
def isSounding (m : Machine) : Bool :=
  m.sound.isActive

end Machine

end Chip8
