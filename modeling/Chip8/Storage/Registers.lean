import Chip8.Fault
import Chip8.Storage.Memory
import Chip8.Storage.Overlay

/-!
# Registers and the call stack

The processor has sixteen data registers of one byte, V0 to VF, an index register and a
program counter that hold addresses, and a stack of return addresses. The last data
register doubles as the *flag*: it is written as a side effect of arithmetic and drawing.

A data register is named by a whole byte, and a name from 16 on is refused. The index
register and the program counter are kept untruncated, as words that wrap at 65536; the
bounds of memory are checked where they are used as addresses.

The call stack is a list with the innermost return address first. `push?` and `pop?` keep
it within its depth of sixteen.
-/

namespace Chip8

/-- The number of data registers. -/
def registerCount : Nat := 16

/-- The number of the data register that doubles as the flag. -/
def flagNumber : Nat := 15

/-- How many calls can be open at a time. -/
def stackDepth : Nat := 16

/-- The registers of the processor and its open calls. -/
structure Registers where
  /-- The data registers V0 to VF. -/
  data : Vector UInt8 registerCount
  /-- Where memory instructions read and write. -/
  index : Address
  /-- Where the next instruction lies. -/
  pc : Address
  /-- The return addresses of the open calls, innermost first. -/
  stack : List Address
deriving DecidableEq

namespace Registers

/-- All zero, and about to execute the first instruction of a program. -/
def powerOn : Registers where
  data := Vector.replicate registerCount 0
  index := 0
  pc := programStart
  stack := []

/-! ### Data registers -/

/-- The byte in a data register. -/
def get? (r : Registers) (number : UInt8) : Except Fault UInt8 :=
  if h : number.toNat < registerCount then .ok r.data[number.toNat]
  else .error (.invalidIndex number)

/-- Puts a byte into a data register. -/
def set? (r : Registers) (number value : UInt8) : Except Fault Registers :=
  if h : number.toNat < registerCount then .ok { r with data := r.data.set number.toNat value }
  else .error (.invalidIndex number)

/-- Adds to a data register modulo 256. The flag is not involved. -/
def add? (r : Registers) (number value : UInt8) : Except Fault Registers := do
  let old ← r.get? number
  r.set? number (old + value)

/-- The byte that a flag is written as. -/
def flagByte (b : Bool) : UInt8 :=
  if b then 1 else 0

/-- Writes the flag as one or zero. -/
def setFlag (r : Registers) (b : Bool) : Registers :=
  { r with data := r.data.set flagNumber (flagByte b) (by decide) }

/-- The byte in the flag register. -/
def flag (r : Registers) : UInt8 :=
  have : flagNumber < registerCount := by decide
  r.data[flagNumber]

/-- The bytes of registers 0 to `last`. -/
def range? (r : Registers) (last : UInt8) : Except Fault (List UInt8) :=
  if last.toNat < registerCount then .ok (r.data.toList.take (last.toNat + 1))
  else .error (.invalidIndex last)

/-- Copies `values` to the registers from 0 on. More values than there are registers are
refused with the number of the last register that would be needed, modulo 256. -/
def load? (r : Registers) (values : List UInt8) : Except Fault Registers :=
  if values.length ≤ registerCount then .ok { r with data := overlay r.data 0 values }
  else .error (.invalidIndex (UInt8.ofNat values.length - 1))

section Lookup

variable {r : Registers} {number : UInt8}

/-- A register that exists is read. -/
theorem get?_of_lt (h : number.toNat < registerCount) :
    r.get? number = .ok r.data[number.toNat] :=
  dif_pos h

/-- One that does not exist is refused by its number. -/
theorem get?_of_not_lt (h : ¬number.toNat < registerCount) :
    r.get? number = .error (.invalidIndex number) :=
  dif_neg h

/-- A register that exists is written, and the others stay. -/
theorem set?_of_lt (h : number.toNat < registerCount) (value : UInt8) :
    r.set? number value = .ok { r with data := r.data.set number.toNat value } :=
  dif_pos h

end Lookup

/-! ### Addresses -/

/-- Continues at `target`. -/
def jump (r : Registers) (target : Address) : Registers :=
  { r with pc := target }

/-- Continues behind the instruction at the program counter. -/
def next (r : Registers) : Registers :=
  { r with pc := r.pc + 2 }

/-- Continues behind the instruction after the one at the program counter. -/
def skip (r : Registers) : Registers :=
  { r with pc := r.pc + 4 }

/-- Points the index register at `target`. -/
def setIndex (r : Registers) (target : Address) : Registers :=
  { r with index := target }

/-- Moves the index register forward modulo 65536. -/
def addIndex (r : Registers) (value : UInt8) : Registers :=
  { r with index := r.index + value.toUInt16 }

/-! ### Calls -/

/-- All calls that can be open are open. -/
def isFull (r : Registers) : Bool :=
  stackDepth ≤ r.stack.length

/-- Opens a call that returns to `target`. -/
def push? (r : Registers) (target : Address) : Except Fault Registers :=
  if r.isFull then .error .stackOverflow else .ok { r with stack := target :: r.stack }

/-- Closes the innermost call and gives the address to return to. -/
def pop? (r : Registers) : Except Fault (Address × Registers) :=
  match r.stack with
  | [] => .error .stackUnderflow
  | target :: rest => .ok (target, { r with stack := rest })

end Registers

end Chip8
