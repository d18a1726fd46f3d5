import Chip8.Machine.Action
import Chip8.Machine.Outcome

/-!
# Executing an instruction

`Machine.perform` is the work of an instruction, part by part and in order, up to the
move of the program counter, which it only names: a `Flow`. `Machine.execute` does the
work and then moves on. If a part of the work fails, the program counter stays and
whatever was written before the failure stays as well, so every instruction makes its
checks before it writes. The one exception is the random byte, which is taken before
there is known to be a register for it.
-/

namespace Chip8

/-- Where the machine continues when the work of an instruction is done. -/
inductive Flow where
  /-- Behind the instruction. -/
  | next
  /-- Behind the instruction after it. -/
  | skip
  /-- At an address. -/
  | jump (target : Address)
  /-- At the instruction itself. -/
  | hold
deriving DecidableEq, Repr

/-- The registers at the place where the machine continues. -/
def Registers.follow (r : Registers) : Flow → Registers
  | .next => r.next
  | .skip => r.skip
  | .jump target => r.jump target
  | .hold => r

namespace Machine

/-- Whether a condition holds. Registers are looked up from left to right. -/
def holds? (m : Machine) : Condition → Except Fault Bool
  | .equalsByte x nn => do
    let a ← m.registers.get? x
    return a = nn
  | .differsByte x nn => do
    let a ← m.registers.get? x
    return a ≠ nn
  | .equals x y => do
    let a ← m.registers.get? x
    let b ← m.registers.get? y
    return a = b
  | .differs x y => do
    let a ← m.registers.get? x
    let b ← m.registers.get? y
    return a ≠ b
  | .pressed x => do
    let a ← m.registers.get? x
    return m.keypad.isPressed a
  | .released x => do
    let a ← m.registers.get? x
    return !m.keypad.isPressed a

open Chip8.Action in
/-- The work of an instruction, and where it leads. -/
def perform : Instruction → Action Flow
  | .clearScreen => do
    clearGrid
    return .next
  | .ret => do
    let target ← closeCall
    return .jump target
  | .jump target => return .jump target
  | .call target => do
    openCall
    return .jump target
  | .skipIf condition => do
    let b ← look (·.holds? condition)
    return if b then .skip else .next
  | .setByte x nn => do
    setRegister x nn
    return .next
  | .addByte x nn => do
    addToRegister x nn
    return .next
  | .copy x y => do
    let b ← register y
    setRegister x b
    return .next
  | .combine operator x y => do
    let a ← register x
    let b ← register y
    -- the flag first, so that the result stays if the two are the same register
    setFlag? (operator.flag? a b)
    setRegister x (operator.apply a b)
    return .next
  | .setIndex target => do
    setIndex target
    return .next
  | .jumpOffset base => do
    let a ← register 0
    return .jump (base + a.toUInt16)
  | .random x nn => do
    let b ← drawByte
    setRegister x (b &&& nn)
    return .next
  | .draw x y height => do
    let a ← register x
    let b ← register y
    let sprite ← readAtIndex height.toNat
    let collision ← drawSprite a b sprite
    setFlag collision
    return .next
  | .readDelay x => do
    let m ← get
    setRegister x m.delay.count
    return .next
  | .awaitKey x => do
    let _ ← register x
    clearPending
    suspend x
    return .hold
  | .setDelay x => do
    let a ← register x
    setDelay a
    return .next
  | .setSound x => do
    let a ← register x
    setSound a
    return .next
  | .addIndex x => do
    let a ← register x
    addIndex a
    return .next
  | .pointGlyph x => do
    let a ← register x
    setIndex (Memory.glyphAddress a)
    return .next
  | .storeDecimal x => do
    let a ← register x
    writeAtIndex (decimalDigits a)
    return .next
  | .storeRegisters x => do
    let bytes ← look (·.registers.range? x)
    writeAtIndex bytes
    return .next
  | .loadRegisters x => do
    let bytes ← readAtIndex (x.toNat + 1)
    loadRegisters bytes
    return .next

/-- The machine at the place where it continues. -/
def follow (m : Machine) (flow : Flow) : Machine :=
  m.withRegisters (m.registers.follow flow)

/-- What is reported when an instruction has been executed. -/
def eventsOf : Instruction → Log
  | .awaitKey x => #[.waiting x]
  | _ => #[]

/-- Executes one instruction, whatever state the machine is in. A fault is handed back,
but neither halts the machine nor is remembered. -/
def execute (m : Machine) (i : Instruction) : Outcome Unit :=
  match perform i m with
  | .ok flow m' => ⟨.ok (), m'.follow flow, eventsOf i⟩
  | .error f m' => ⟨.error f, m', #[]⟩

end Machine

end Chip8
