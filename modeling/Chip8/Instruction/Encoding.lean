import Chip8.Fault
import Chip8.Instruction.Basic

/-!
# The encoding of instructions

`decode` reads an opcode as an instruction and `encode` writes an instruction as an
opcode. The family of an opcode decides its shape, except that families 0, 8, E and F
need the last digit or the last two as well, and families 5 and 9 want a zero there. Each
word that fits no row of the table is refused with itself as the reason.

An instruction has an opcode when its operands fit into their digits, `Encodable`.
-/

namespace Chip8

/-! ### Operators -/

/-- The last digit of the opcodes that combine two registers. -/
def Operator.digit : Operator → UInt8
  | .or => 0x1
  | .and => 0x2
  | .xor => 0x3
  | .add => 0x4
  | .sub => 0x5
  | .shiftRight => 0x6
  | .subFrom => 0x7
  | .shiftLeft => 0xE

/-- The operator that a last digit stands for. -/
def Operator.ofDigit? (d : UInt8) : Option Operator :=
  match d.toNat with
  | 0x1 => some .or
  | 0x2 => some .and
  | 0x3 => some .xor
  | 0x4 => some .add
  | 0x5 => some .sub
  | 0x6 => some .shiftRight
  | 0x7 => some .subFrom
  | 0xE => some .shiftLeft
  | _ => none

namespace Instruction

/-! ### Reading -/

/-- The instructions of family 8: a copy, or one of the operators. -/
def ofRegisterPair? (x y digit : UInt8) : Option Instruction :=
  if digit = 0 then some (.copy x y)
  else (Operator.ofDigit? digit).map fun operator => .combine operator x y

/-- The instructions of family E, which ask about a key. -/
def ofKeyQuery? (x selector : UInt8) : Option Instruction :=
  match selector.toNat with
  | 0x9E => some (.skipIf (.pressed x))
  | 0xA1 => some (.skipIf (.released x))
  | _ => none

/-- The instructions of family F, which have one register and a selector. -/
def ofSelector? (x selector : UInt8) : Option Instruction :=
  match selector.toNat with
  | 0x07 => some (.readDelay x)
  | 0x0A => some (.awaitKey x)
  | 0x15 => some (.setDelay x)
  | 0x18 => some (.setSound x)
  | 0x1E => some (.addIndex x)
  | 0x29 => some (.pointGlyph x)
  | 0x33 => some (.storeDecimal x)
  | 0x55 => some (.storeRegisters x)
  | 0x65 => some (.loadRegisters x)
  | _ => none

/-- The instruction that an opcode encodes, if any. -/
def ofOpcode? (w : Opcode) : Option Instruction :=
  match w.family with
  | 0x0 =>
    if w = 0x00E0 then some .clearScreen
    else if w = 0x00EE then some .ret
    else none
  | 0x1 => some (.jump w.nnn)
  | 0x2 => some (.call w.nnn)
  | 0x3 => some (.skipIf (.equalsByte w.x w.nn))
  | 0x4 => some (.skipIf (.differsByte w.x w.nn))
  | 0x5 => if w.n = 0 then some (.skipIf (.equals w.x w.y)) else none
  | 0x6 => some (.setByte w.x w.nn)
  | 0x7 => some (.addByte w.x w.nn)
  | 0x8 => ofRegisterPair? w.x w.y w.n
  | 0x9 => if w.n = 0 then some (.skipIf (.differs w.x w.y)) else none
  | 0xA => some (.setIndex w.nnn)
  | 0xB => some (.jumpOffset w.nnn)
  | 0xC => some (.random w.x w.nn)
  | 0xD => some (.draw w.x w.y w.n)
  | 0xE => ofKeyQuery? w.x w.nn
  | 0xF => ofSelector? w.x w.nn
  | _ => none

/-- Reads an opcode, or refuses it as unknown. -/
def decode (w : Opcode) : Except Fault Instruction :=
  match ofOpcode? w with
  | some i => .ok i
  | none => .error (.unknownOpcode w)

/-- A word is accepted as what its fields are read as. -/
theorem decode_eq_ok_iff {w : Opcode} {i : Instruction} :
    decode w = .ok i ↔ ofOpcode? w = some i := by
  cases h : ofOpcode? w <;> simp [decode, h]

/-- Any other word is refused, and the refusal names it. -/
theorem decode_eq_error_iff {w : Opcode} {f : Fault} :
    decode w = .error f ↔ ofOpcode? w = none ∧ f = .unknownOpcode w := by
  cases h : ofOpcode? w <;> simp [decode, h, eq_comm]

/-! ### Writing -/

/-- The opcode of an instruction. Operands that are too large for their digits run into
the digits before them, so only the opcode of an `Encodable` instruction is meaningful. -/
def encode : Instruction → Opcode
  | clearScreen => 0x00E0
  | ret => 0x00EE
  | jump target => .ofNNN 0x1 target
  | call target => .ofNNN 0x2 target
  | skipIf (.equalsByte x nn) => .ofXNN 0x3 x nn
  | skipIf (.differsByte x nn) => .ofXNN 0x4 x nn
  | skipIf (.equals x y) => .ofXYN 0x5 x y 0x0
  | skipIf (.differs x y) => .ofXYN 0x9 x y 0x0
  | skipIf (.pressed x) => .ofXNN 0xE x 0x9E
  | skipIf (.released x) => .ofXNN 0xE x 0xA1
  | setByte x nn => .ofXNN 0x6 x nn
  | addByte x nn => .ofXNN 0x7 x nn
  | copy x y => .ofXYN 0x8 x y 0x0
  | combine operator x y => .ofXYN 0x8 x y operator.digit
  | setIndex target => .ofNNN 0xA target
  | jumpOffset base => .ofNNN 0xB base
  | random x nn => .ofXNN 0xC x nn
  | draw x y height => .ofXYN 0xD x y height
  | readDelay x => .ofXNN 0xF x 0x07
  | awaitKey x => .ofXNN 0xF x 0x0A
  | setDelay x => .ofXNN 0xF x 0x15
  | setSound x => .ofXNN 0xF x 0x18
  | addIndex x => .ofXNN 0xF x 0x1E
  | pointGlyph x => .ofXNN 0xF x 0x29
  | storeDecimal x => .ofXNN 0xF x 0x33
  | storeRegisters x => .ofXNN 0xF x 0x55
  | loadRegisters x => .ofXNN 0xF x 0x65

end Instruction

/-- The registers that a condition names have numbers of one digit. -/
def Condition.Encodable : Condition → Prop
  | .equalsByte x _ | .differsByte x _ | .pressed x | .released x => x < 16
  | .equals x y | .differs x y => x < 16 ∧ y < 16

instance (c : Condition) : Decidable c.Encodable := by
  cases c <;> unfold Condition.Encodable <;> infer_instance

/-- Register numbers and heights have one digit, and addresses have three. -/
def Instruction.Encodable : Instruction → Prop
  | .clearScreen | .ret => True
  | .jump a | .call a | .setIndex a | .jumpOffset a => a < 0x1000
  | .skipIf c => c.Encodable
  | .setByte x _ | .addByte x _ | .random x _ => x < 16
  | .copy x y | .combine _ x y => x < 16 ∧ y < 16
  | .draw x y height => x < 16 ∧ y < 16 ∧ height < 16
  | .readDelay x | .awaitKey x | .setDelay x | .setSound x | .addIndex x
  | .pointGlyph x | .storeDecimal x | .storeRegisters x | .loadRegisters x => x < 16

instance (i : Instruction) : Decidable i.Encodable := by
  cases i <;> unfold Instruction.Encodable <;> infer_instance

end Chip8
