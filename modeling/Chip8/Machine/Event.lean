import Chip8.Fault
import Chip8.Instruction.Mnemonic
import Chip8.Storage.Memory

/-!
# Events

What the machine reports while it works. An event is kept as data and has its wording and
its level only when it is shown, so that a log can be reasoned about without its texts.
-/

namespace Chip8

/-- How important an event is. -/
inductive Level where
  | trace
  | debug
  | info
  | warn
  | error
deriving DecidableEq, Repr

/-- The name of a level. -/
def Level.name : Level → String
  | trace => "TRACE"
  | debug => "DEBUG"
  | info => "INFO"
  | warn => "WARN"
  | error => "ERROR"

/-- Something worth reporting. -/
inductive Event where
  /-- A program of this many bytes was put into memory. -/
  | loaded (size : Nat)
  /-- The machine goes back to its state at power-on. -/
  | resetting
  /-- The instruction at `pc` is about to be executed. -/
  | executing (pc : Address) (word : Opcode) (instruction : Instruction)
  /-- The instruction at `pc` failed, and the machine halted. -/
  | failed (pc : Address) (fault : Fault)
  /-- A halt was asked for. -/
  | halting (pc : Address)
  /-- The instruction at `pc` is stepped over. -/
  | skipping (pc : Address)
  /-- The machine waits for a key. -/
  | waiting (register : UInt8)
  /-- The key that was waited for was pressed. -/
  | resumed (key : UInt8)
  /-- The sound timer reached zero. -/
  | soundExpired
  /-- A request to quit was seen. -/
  | quitting
deriving DecidableEq, Repr

/-- The events of an operation, in the order in which they happened. -/
abbrev Log := Array Event

namespace Event

/-- How important an event is. -/
def level : Event → Level
  | executing .. => .trace
  | halting _ | waiting _ | resumed _ | soundExpired => .debug
  | loaded _ | resetting | quitting => .info
  | skipping _ => .warn
  | failed .. => .error

/-- An address as events show it, with at least three hexadecimal digits. -/
def place (a : Address) : String :=
  "0x" ++ Numeral.hex .lower 3 a.toNat

open Numeral in
/-- The wording of an event. -/
def message : Event → String
  | loaded size => "loaded " ++ decimal size ++ " program bytes at " ++ place programStart
  | resetting => "resetting machine"
  | executing pc word instruction =>
    place pc ++ ": " ++ hex .upper 4 word.toNat ++ " " ++ instruction.mnemonic
  | failed pc fault => "halted at " ++ place pc ++ ": " ++ fault.message
  | halting pc => "halting at " ++ place pc
  | skipping pc => "skipping instruction at " ++ place pc
  | waiting register => "waiting for key into V" ++ hex .upper 1 register.toNat
  | resumed key => "key " ++ hex .upper 1 key.toNat ++ " pressed, resuming"
  | soundExpired => "sound timer expired"
  | quitting => "quit requested"

/-- The line of the log for an event. -/
def line (e : Event) : String :=
  e.level.name ++ " " ++ e.message

end Event

end Chip8
