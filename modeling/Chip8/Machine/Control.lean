import Chip8.Machine.Outcome

/-!
# Control

What can be asked of the machine from outside: to load a program, to start over, to halt,
and to step over an instruction that it did not know.
-/

namespace Chip8.Machine

/-- Puts a program into memory and remembers it. A program that is too large changes
nothing. -/
def load (m : Machine) (program : List UInt8) : Outcome Unit :=
  match m.memory.load? program with
  | .ok memory => ⟨.ok (), { m with memory, program }, #[.loaded program.length]⟩
  | .error f => ⟨.error f, m, #[]⟩

/-- Puts everything back to the state at power-on and loads the last program again, which is
taken out of the machine for that. The rates of the pacer stay, and so does the place in the
stream of random bytes. -/
def reset (m : Machine) : Outcome Unit :=
  let emptied := { m with
    grid := .blank
    registers := .powerOn
    memory := .powerOn
    keypad := .idle
    delay := .zero
    sound := .zero
    pacer := m.pacer.restart
    state := .running
    fault := none
    program := [] }
  (emptied.load m.program).after #[.resetting]

/-- Nothing is left of the machine but its rates, its place in the stream and its program. -/
theorem reset_eq (m : Machine) :
    m.reset = ((powerOn m.pacer.restart m.random).load m.program).after #[.resetting] := rfl

/-- Halts the machine. A fault that halted it before is forgotten. -/
def halt (m : Machine) : Machine :=
  { m with state := .halted, fault := none }

/-- What a request to halt reports, unless the machine has halted before. -/
def haltLog (m : Machine) : Log :=
  if m.isHalted then #[] else #[.halting m.registers.pc]

/-- The fault of the machine is one that can be stepped over. -/
def isResumable (m : Machine) : Bool :=
  m.fault.any Fault.isDecodeFailure

/-- Steps over the instruction at the program counter and runs on. This is only possible
after a decode failure. -/
def skip (m : Machine) : Outcome Unit :=
  if m.isResumable then
    ⟨.ok (), { m with registers := m.registers.next, state := .running, fault := none },
      #[.skipping m.registers.pc]⟩
  else ⟨.error .notResumable, m, #[]⟩

end Chip8.Machine
