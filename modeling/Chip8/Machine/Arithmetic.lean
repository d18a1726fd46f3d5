import Chip8.Instruction.Basic
import Chip8.Storage.Registers

/-!
# Arithmetic on registers

The meaning of the operators: `Operator.apply` is the byte that goes to the first register
and `Operator.flag?` the flag, for the operators that have one. Both are computed from the
operands before anything is written.
-/

namespace Chip8

/-- The result of an operator, modulo 256. Shifts take the second operand alone. -/
def Operator.apply (o : Operator) (a b : UInt8) : UInt8 :=
  match o with
  | .or => a ||| b
  | .and => a &&& b
  | .xor => a ^^^ b
  | .add => a + b
  | .sub => a - b
  | .shiftRight => b >>> 1
  | .subFrom => b - a
  | .shiftLeft => b <<< 1

/-- The flag of an operator: the carry of a sum, the absence of a borrow, or the bit that a
shift pushes out. The bitwise operators leave the flag alone. -/
def Operator.flag? (o : Operator) (a b : UInt8) : Option Bool :=
  match o with
  | .or | .and | .xor => none
  | .add => some (256 ≤ a.toNat + b.toNat)
  | .sub => some (b ≤ a)
  | .shiftRight => some (b.toNat % 2 = 1)
  | .subFrom => some (a ≤ b)
  | .shiftLeft => some (128 ≤ b.toNat)

/-- The decimal digits of a byte: hundreds, tens and units. -/
def decimalDigits (byte : UInt8) : List UInt8 :=
  [byte / 100, byte / 10 % 10, byte % 10]

namespace Registers

/-- The registers with the flag written, if there is one to write. -/
def setFlag? (r : Registers) : Option Bool → Registers
  | some b => r.setFlag b
  | none => r

end Registers

end Chip8
