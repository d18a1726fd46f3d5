import Chip8.Instruction.Basic
import Chip8.Text.Numeral

/-!
# Mnemonics

An instruction is shown as a line of assembly: a name, then its operands in order, with a
comma and a space between them. An operand is one of a few kinds, each with a spelling of
its own, so that the kind can be told from the text: a register is `V` and a digit, a
constant has two hexadecimal digits after `0x`, an address at least three, a count is in
base ten, and what has no number is a fixed word.
-/

namespace Chip8

/-- Something that an instruction works on, as a line of assembly shows it. -/
inductive Operand where
  /-- A data register. -/
  | register (number : UInt8)
  /-- A constant. -/
  | byte (nn : UInt8)
  /-- An address. -/
  | address (target : Address)
  /-- A number of rows. -/
  | count (n : UInt8)
  /-- The index register. -/
  | index
  /-- The memory at the index register. -/
  | cells
  /-- The delay timer. -/
  | delay
  /-- The sound timer. -/
  | sound
  /-- The next key press. -/
  | key
  /-- The place of a glyph. -/
  | glyph
  /-- The place of three decimal digits. -/
  | decimal
deriving DecidableEq, Repr

open Numeral in
/-- The spelling of an operand. -/
def Operand.text : Operand → String
  | register number => "V" ++ hex .upper 1 number.toNat
  | byte nn => "0x" ++ hex .upper 2 nn.toNat
  | address target => "0x" ++ hex .upper 3 target.toNat
  | count n => Numeral.decimal n.toNat
  | index => "I"
  | cells => "[I]"
  | delay => "DT"
  | sound => "ST"
  | key => "K"
  | glyph => "F"
  | decimal => "B"

/-- The name of a conditional skip. -/
def Condition.name : Condition → String
  | .equalsByte .. | .equals .. => "SE"
  | .differsByte .. | .differs .. => "SNE"
  | .pressed _ => "SKP"
  | .released _ => "SKNP"

/-- The operands of a conditional skip. -/
def Condition.operands : Condition → List Operand
  | .equalsByte x nn | .differsByte x nn => [.register x, .byte nn]
  | .equals x y | .differs x y => [.register x, .register y]
  | .pressed x | .released x => [.register x]

/-- The name of an operator. -/
def Operator.name : Operator → String
  | .or => "OR"
  | .and => "AND"
  | .xor => "XOR"
  | .add => "ADD"
  | .sub => "SUB"
  | .shiftRight => "SHR"
  | .subFrom => "SUBN"
  | .shiftLeft => "SHL"

namespace Instruction

/-- The name of an instruction. Several instructions share the names `LD` and `ADD`, and
are told apart by their operands. -/
def name : Instruction → String
  | clearScreen => "CLS"
  | ret => "RET"
  | jump _ | jumpOffset _ => "JP"
  | call _ => "CALL"
  | skipIf condition => condition.name
  | addByte .. | addIndex _ => "ADD"
  | combine operator _ _ => operator.name
  | random .. => "RND"
  | draw .. => "DRW"
  | setByte .. | copy .. | setIndex _ | readDelay _ | awaitKey _ | setDelay _ | setSound _
  | pointGlyph _ | storeDecimal _ | storeRegisters _ | loadRegisters _ => "LD"

/-- The operands of an instruction, the place that receives the result first. -/
def operands : Instruction → List Operand
  | clearScreen | ret => []
  | jump target | call target => [.address target]
  | jumpOffset base => [.register 0, .address base]
  | skipIf condition => condition.operands
  | setByte x nn | addByte x nn | random x nn => [.register x, .byte nn]
  | copy x y | combine _ x y => [.register x, .register y]
  | setIndex target => [.index, .address target]
  | draw x y height => [.register x, .register y, .count height]
  | readDelay x => [.register x, .delay]
  | awaitKey x => [.register x, .key]
  | setDelay x => [.delay, .register x]
  | setSound x => [.sound, .register x]
  | addIndex x => [.index, .register x]
  | pointGlyph x => [.glyph, .register x]
  | storeDecimal x => [.decimal, .register x]
  | storeRegisters x => [.cells, .register x]
  | loadRegisters x => [.register x, .cells]

/-- The line of assembly for an instruction. -/
def mnemonic (i : Instruction) : String :=
  match i.operands with
  | [] => i.name
  | operands => i.name ++ " " ++ ", ".intercalate (operands.map Operand.text)

end Instruction

end Chip8
