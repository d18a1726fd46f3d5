import Chip8.Instruction.Encoding
import Chip8.Machine.Execute

/-!
# Cycles and ticks

The two things that a clock does to the machine. A *cycle* executes the instruction at the
program counter, or asks for the awaited key, or does nothing if the machine is halted. A
*tick* counts both timers down, and is only made while the machine is running, so that the
timers stand still during a wait.
-/

namespace Chip8.Machine

/-! ### Cycles -/

/-- The instruction at the program counter, with its opcode. -/
def fetch? (m : Machine) : Except Fault (Opcode × Instruction) := do
  let word ← m.memory.readOpcode? m.registers.pc
  let i ← Instruction.decode word
  return (word, i)

/-- The machine, halted by a fault. -/
def fail (m : Machine) (f : Fault) : Machine :=
  { m with state := .halted, fault := some f }

/-- A cycle of a running machine. Any fault halts it. -/
def step (m : Machine) : Outcome RunState :=
  let pc := m.registers.pc
  match m.fetch? with
  | .error f => ⟨.error f, m.fail f, #[.failed pc f]⟩
  | .ok (word, i) =>
    let o := m.execute i
    let log := #[.executing pc word i] ++ o.log
    match o.result with
    | .ok () => ⟨.ok o.machine.state, o.machine, log⟩
    | .error f => ⟨.error f, o.machine.fail f, log.push (.failed pc f)⟩

/-- A cycle of a machine that waits for a key: if a press is pending it is taken, its number
goes to the register, and the machine runs on behind the instruction that waited. -/
def poll (m : Machine) (register : UInt8) : Outcome RunState :=
  match m.keypad.pending with
  | none => ⟨.ok m.state, m, #[]⟩
  | some key =>
    let taken := { m with keypad := m.keypad.clearPending }
    match m.registers.set? register key with
    | .ok r =>
      ⟨.ok .running, { taken with registers := r.next, state := .running }, #[.resumed key]⟩
    | .error f => ⟨.error f, taken, #[.resumed key]⟩

/-- One cycle. The result is the state of the machine afterwards. -/
def cycle (m : Machine) : Outcome RunState :=
  match m.state with
  | .running => m.step
  | .waiting register => m.poll register
  | .halted => ⟨.ok .halted, m, #[]⟩

/-! ### Ticks -/

/-- One tick of both timers. -/
def tick (m : Machine) : Machine :=
  if m.state = .running then { m with delay := m.delay.tick, sound := m.sound.tick } else m

/-- What a tick reports: the end of the sound. -/
def tickLog (m : Machine) : Log :=
  if m.state = .running ∧ m.sound.isLast then #[.soundExpired] else #[]

/-- Several ticks, with what they report added to a log. -/
def ticks : Nat → Machine → Log → Machine × Log
  | 0, m, log => (m, log)
  | k + 1, m, log => ticks k m.tick (log ++ m.tickLog)

end Chip8.Machine
