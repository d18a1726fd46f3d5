import Chip8.Instruction.Opcode

/-!
# Instructions

The thirty-four things that the machine can do, as a tree of meanings and not of bit
patterns: all conditional skips are one instruction with a `Condition`, and all
two-register arithmetic is one instruction with an `Operator`. `x` and `y` are always
register numbers and `nn` is a constant.

Operands are whole bytes and words, so an instruction that no opcode encodes (one about
register 16, say) can be written down and executed too; `Instruction.Encodable` in
`Chip8.Instruction.Encoding` tells the two kinds apart.
-/

namespace Chip8

/-- What a conditional skip asks. -/
inductive Condition where
  /-- Register `x` holds `nn`. -/
  | equalsByte (x nn : UInt8)
  /-- Register `x` holds something other than `nn`. -/
  | differsByte (x nn : UInt8)
  /-- Registers `x` and `y` hold the same. -/
  | equals (x y : UInt8)
  /-- Registers `x` and `y` hold different bytes. -/
  | differs (x y : UInt8)
  /-- The key whose number is in register `x` is held. -/
  | pressed (x : UInt8)
  /-- The key whose number is in register `x` is not held. -/
  | released (x : UInt8)
deriving DecidableEq, Repr

/-- How two registers are combined. The result goes to the first of them. -/
inductive Operator where
  | or
  | and
  | xor
  /-- The sum modulo 256, with the carry as flag. -/
  | add
  /-- First minus second modulo 256, with the flag set unless a borrow was needed. -/
  | sub
  /-- Half the second register, with the bit that falls out as flag. -/
  | shiftRight
  /-- Second minus first modulo 256, with the flag set unless a borrow was needed. -/
  | subFrom
  /-- Twice the second register modulo 256, with the bit that falls out as flag. -/
  | shiftLeft
deriving DecidableEq, Repr

/-- One instruction of the machine. -/
inductive Instruction where
  /-- Turn all pixels off. -/
  | clearScreen
  /-- Go back to where the innermost call came from. -/
  | ret
  /-- Continue at `target`. -/
  | jump (target : Address)
  /-- Continue at `target` and remember where to come back to. -/
  | call (target : Address)
  /-- Leave out the next instruction if the condition holds. -/
  | skipIf (condition : Condition)
  /-- Put a constant into register `x`. -/
  | setByte (x nn : UInt8)
  /-- Add a constant to register `x` modulo 256, without a flag. -/
  | addByte (x nn : UInt8)
  /-- Copy register `y` to register `x`. -/
  | copy (x y : UInt8)
  /-- Combine registers `x` and `y` into register `x`. -/
  | combine (operator : Operator) (x y : UInt8)
  /-- Point the index register at `target`. -/
  | setIndex (target : Address)
  /-- Continue at `base` plus register 0. -/
  | jumpOffset (base : Address)
  /-- Put a random byte into register `x`, keeping only the bits of `nn`. -/
  | random (x nn : UInt8)
  /-- Draw the `height` bytes at the index register at the point (`x`, `y`). -/
  | draw (x y height : UInt8)
  /-- Copy the delay timer to register `x`. -/
  | readDelay (x : UInt8)
  /-- Wait for a key and put its number into register `x`. -/
  | awaitKey (x : UInt8)
  /-- Set the delay timer from register `x`. -/
  | setDelay (x : UInt8)
  /-- Set the sound timer from register `x`. -/
  | setSound (x : UInt8)
  /-- Move the index register forward by register `x`. -/
  | addIndex (x : UInt8)
  /-- Point the index register at the glyph of register `x`. -/
  | pointGlyph (x : UInt8)
  /-- Write the three decimal digits of register `x` at the index register. -/
  | storeDecimal (x : UInt8)
  /-- Write registers 0 to `x` at the index register. -/
  | storeRegisters (x : UInt8)
  /-- Read registers 0 to `x` back from the index register. -/
  | loadRegisters (x : UInt8)
deriving DecidableEq, Repr

end Chip8
