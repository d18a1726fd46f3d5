import Chip8.Machine.Arithmetic
import Chip8.Machine.Basic
import Chip8.Picture.Sprite

/-!
# Actions

An instruction works on the machine in place: it looks things up, checks them and
writes, one after the other. An `Action` is a piece of such work. When a part of it
fails, the parts behind it are left out, but what the parts before it have written stays
written. So nothing here promises that a failed action leaves the machine alone; that
depends on the order of its parts.

The actions below are the parts that instructions are put together from. Each of them is
made as a whole or refused as a whole.
-/

namespace Chip8

/-- The machine with other registers. -/
def Machine.withRegisters (m : Machine) (r : Registers) : Machine :=
  { m with registers := r }

/-- Work on the machine that gives a value or fails, and leaves a machine in both cases.
-/
abbrev Action (α : Type) := EStateM Fault Machine α

namespace Action

variable {α : Type}

/-- Looks something up, which changes nothing. -/
def look (f : Machine → Except Fault α) : Action α := fun m =>
  match f m with
  | .ok a => .ok a m
  | .error e => .error e m

/-- Writes something, or is refused and has written nothing. -/
def write (f : Machine → Except Fault Machine) : Action Unit := fun m =>
  match f m with
  | .ok m' => .ok () m'
  | .error e => .error e m

/-! ### Registers -/

/-- The byte in a data register. -/
def register (number : UInt8) : Action UInt8 :=
  look fun m => m.registers.get? number

/-- Puts a byte into a data register. -/
def setRegister (number value : UInt8) : Action Unit :=
  write fun m => m.withRegisters <$> m.registers.set? number value

/-- Adds to a data register modulo 256. -/
def addToRegister (number value : UInt8) : Action Unit :=
  write fun m => m.withRegisters <$> m.registers.add? number value

/-- Writes the flag. -/
def setFlag (b : Bool) : Action Unit :=
  modify fun m => m.withRegisters (m.registers.setFlag b)

/-- Writes the flag, if there is one to write. -/
def setFlag? (b : Option Bool) : Action Unit :=
  modify fun m => m.withRegisters (m.registers.setFlag? b)

/-- Copies bytes to the registers from 0 on. -/
def loadRegisters (bytes : List UInt8) : Action Unit :=
  write fun m => m.withRegisters <$> m.registers.load? bytes

/-- Points the index register somewhere. -/
def setIndex (target : Address) : Action Unit :=
  modify fun m => m.withRegisters (m.registers.setIndex target)

/-- Moves the index register forward. -/
def addIndex (value : UInt8) : Action Unit :=
  modify fun m => m.withRegisters (m.registers.addIndex value)

/-- Opens a call that returns behind the instruction at the program counter. -/
def openCall : Action Unit :=
  write fun m => m.withRegisters <$> m.registers.push? (m.registers.pc + 2)

/-- Closes the innermost call and gives the address to return to. -/
def closeCall : Action Address := fun m =>
  match m.registers.pop? with
  | .ok (target, r) => .ok target (m.withRegisters r)
  | .error e => .error e m

/-! ### Memory -/

/-- The bytes of the span at the index register. -/
def readAtIndex (length : Nat) : Action (List UInt8) :=
  look fun m => m.memory.readRange? m.registers.index length

/-- Writes bytes at the index register. -/
def writeAtIndex (bytes : List UInt8) : Action Unit :=
  write fun m =>
    (fun memory => { m with memory }) <$> m.memory.writeRange? m.registers.index bytes

/-! ### The rest of the machine -/

/-- Turns all pixels off. -/
def clearGrid : Action Unit :=
  modify fun m => { m with grid := .blank }

/-- Draws a sprite and tells whether a pixel went off. -/
def drawSprite (x y : UInt8) (sprite : List UInt8) : Action Bool :=
  modifyGet fun m => (m.grid.collides x y sprite, { m with grid := m.grid.draw x y sprite })

/-- Takes the next random byte. -/
def drawByte : Action UInt8 :=
  modifyGet fun m => (m.random.head, { m with random := m.random.tail })

/-- Sets the delay timer. -/
def setDelay (count : UInt8) : Action Unit :=
  modify fun m => { m with delay := ⟨count⟩ }

/-- Sets the sound timer. -/
def setSound (count : UInt8) : Action Unit :=
  modify fun m => { m with sound := ⟨count⟩ }

/-- Forgets a press that came too early. -/
def clearPending : Action Unit :=
  modify fun m => { m with keypad := m.keypad.clearPending }

/-- Suspends the machine until a key is pressed. -/
def suspend (number : UInt8) : Action Unit :=
  modify fun m => { m with state := .waiting number }

end Action

end Chip8
