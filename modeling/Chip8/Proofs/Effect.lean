import Chip8.Machine.Cycle

/-!
# The effect of an instruction

`Machine.perform` works on the machine in place and may stop halfway. `Machine.effect?`
says the same without steps in between: it takes the machine before an instruction to
the machine after it, or to the fault that prevents it. All lookups are made in the
machine before.

The two agree on every instruction (`Machine.execute_eq`), also on instructions about
registers that do not exist. So what a refused instruction leaves behind is the machine
before it, except that a random byte has been taken (`Machine.afterRefusal`).
-/

namespace Chip8

namespace Machine

/-- The machine after an instruction, or the fault that prevents the instruction. -/
def effect? (m : Machine) : Instruction → Except Fault Machine
  | .clearScreen => .ok ({ m with grid := .blank }.follow .next)
  | .ret => do
    let (target, r) ← m.registers.pop?
    return (m.withRegisters r).follow (.jump target)
  | .jump target => .ok (m.follow (.jump target))
  | .call target => do
    let r ← m.registers.push? (m.registers.pc + 2)
    return (m.withRegisters r).follow (.jump target)
  | .skipIf condition => do
    let b ← m.holds? condition
    return m.follow (if b then .skip else .next)
  | .setByte x nn => do
    let r ← m.registers.set? x nn
    return (m.withRegisters r).follow .next
  | .addByte x nn => do
    let r ← m.registers.add? x nn
    return (m.withRegisters r).follow .next
  | .copy x y => do
    let b ← m.registers.get? y
    let r ← m.registers.set? x b
    return (m.withRegisters r).follow .next
  | .combine operator x y => do
    let a ← m.registers.get? x
    let b ← m.registers.get? y
    let r ← (m.registers.setFlag? (operator.flag? a b)).set? x (operator.apply a b)
    return (m.withRegisters r).follow .next
  | .setIndex target => .ok ((m.withRegisters (m.registers.setIndex target)).follow .next)
  | .jumpOffset base => do
    let a ← m.registers.get? 0
    return m.follow (.jump (base + a.toUInt16))
  | .random x nn => do
    let r ← m.registers.set? x (m.random.head &&& nn)
    return ({ m with random := m.random.tail }.withRegisters r).follow .next
  | .draw x y height => do
    let a ← m.registers.get? x
    let b ← m.registers.get? y
    let sprite ← m.memory.readRange? m.registers.index height.toNat
    let r := m.registers.setFlag (m.grid.collides a b sprite)
    return ({ m with grid := m.grid.draw a b sprite }.withRegisters r).follow .next
  | .readDelay x => do
    let r ← m.registers.set? x m.delay.count
    return (m.withRegisters r).follow .next
  | .awaitKey x => do
    let _ ← m.registers.get? x
    return { m with keypad := m.keypad.clearPending, state := .waiting x }.follow .hold
  | .setDelay x => do
    let a ← m.registers.get? x
    return { m with delay := ⟨a⟩ }.follow .next
  | .setSound x => do
    let a ← m.registers.get? x
    return { m with sound := ⟨a⟩ }.follow .next
  | .addIndex x => do
    let a ← m.registers.get? x
    return (m.withRegisters (m.registers.addIndex a)).follow .next
  | .pointGlyph x => do
    let a ← m.registers.get? x
    return (m.withRegisters (m.registers.setIndex (Memory.glyphAddress a))).follow .next
  | .storeDecimal x => do
    let a ← m.registers.get? x
    let memory ← m.memory.writeRange? m.registers.index (decimalDigits a)
    return { m with memory }.follow .next
  | .storeRegisters x => do
    let bytes ← m.registers.range? x
    let memory ← m.memory.writeRange? m.registers.index bytes
    return { m with memory }.follow .next
  | .loadRegisters x => do
    let bytes ← m.memory.readRange? m.registers.index (x.toNat + 1)
    let r ← m.registers.load? bytes
    return (m.withRegisters r).follow .next

/-- What a refused instruction leaves behind. -/
def afterRefusal (m : Machine) : Instruction → Machine
  | .random .. => { m with random := m.random.tail }
  | _ => m

end Machine

/-! ### Running actions -/

namespace Action

variable {α β : Type}

/-- The second of two actions starts where the first has ended, unless the first has failed. -/
theorem bind_apply (a : Action α) (k : α → Action β) (m : Machine) :
    (a >>= k) m =
      match a m with
      | .ok v m' => k v m'
      | .error e m' => .error e m' := by
  simp only [bind, EStateM.bind]
  cases a m <;> rfl

/-- An action that only gives a value leaves the machine alone. -/
theorem pure_apply (v : α) (m : Machine) : (pure v : Action α) m = .ok v m := rfl

/-- A change of the machine does not fail. -/
theorem modify_apply (f : Machine → Machine) (m : Machine) :
    (modify f : Action Unit) m = .ok () (f m) := rfl

/-- A change of the machine that also gives a value does not fail. -/
theorem modifyGet_apply (f : Machine → α × Machine) (m : Machine) :
    (modifyGet f : Action α) m = .ok (f m).1 (f m).2 := rfl

/-- To look at the machine leaves it alone. -/
theorem get_apply (m : Machine) : (get : Action Machine) m = .ok m m := rfl

end Action

namespace Machine

open Chip8.Action

/-- An instruction does in place what it does as one step, and when it is refused it
leaves the machine as it was, but for the random byte. -/
theorem execute_eq (m : Machine) (i : Instruction) :
    m.execute i =
      match m.effect? i with
      | .ok m' => ⟨.ok (), m', eventsOf i⟩
      | .error f => ⟨.error f, m.afterRefusal i, #[]⟩ := by
  cases i with
  | clearScreen | jump target | setIndex target => rfl
  | ret =>
    simp only [execute, perform, effect?, bind_apply, pure_apply, closeCall]
    cases m.registers.pop? <;> rfl
  | call target =>
    simp only [execute, perform, effect?, bind_apply, pure_apply, openCall, write]
    cases m.registers.push? (m.registers.pc + 2) <;> rfl
  | skipIf c =>
    simp only [execute, perform, effect?, bind_apply, pure_apply, look]
    cases m.holds? c <;> rfl
  | setByte x nn =>
    simp only [execute, perform, effect?, bind_apply, pure_apply, setRegister, write]
    cases m.registers.set? x nn <;> rfl
  | addByte x nn =>
    simp only [execute, perform, effect?, bind_apply, pure_apply, addToRegister, write]
    cases m.registers.add? x nn <;> rfl
  | copy x y =>
    simp only [execute, perform, effect?, bind_apply, pure_apply, register, look, setRegister,
      write]
    cases m.registers.get? y with
    | error f => rfl
    | ok b =>
      simp only [ok_bind]
      cases m.registers.set? x b <;> rfl
  | combine o x y =>
    simp only [execute, perform, effect?, bind_apply, pure_apply, register, look, setFlag?,
      modify_apply, setRegister, write]
    by_cases hx : x.toNat < registerCount
    · simp only [Registers.get?_of_lt hx, ok_bind]
      cases m.registers.get? y with
      | error f => rfl
      | ok b =>
        -- the flag is written by now, but as `x` has been looked up, the result is safe
        simp only [Registers.set?_of_lt hx, ok_bind]
        rfl
    · simp only [Registers.get?_of_not_lt hx, error_bind]
      rfl
  | jumpOffset base =>
    simp only [execute, perform, effect?, bind_apply, pure_apply, register, look]
    cases m.registers.get? 0 <;> rfl
  | random x nn =>
    simp only [execute, perform, effect?, bind_apply, pure_apply, drawByte, modifyGet_apply,
      setRegister, write]
    cases m.registers.set? x (m.random.head &&& nn) <;> rfl
  | draw x y height =>
    simp only [execute, perform, effect?, bind_apply, pure_apply, register, look, readAtIndex]
    cases m.registers.get? x with
    | error f => rfl
    | ok a =>
      simp only [ok_bind]
      cases m.registers.get? y with
      | error f => rfl
      | ok b =>
        simp only [ok_bind]
        cases m.memory.readRange? m.registers.index height.toNat <;> rfl
  | readDelay x =>
    simp only [execute, perform, effect?, bind_apply, pure_apply, get_apply, setRegister, write]
    cases m.registers.set? x m.delay.count <;> rfl
  | awaitKey x | setDelay x | setSound x | addIndex x | pointGlyph x =>
    simp only [execute, perform, effect?, bind_apply, pure_apply, register, look]
    cases m.registers.get? x <;> rfl
  | storeDecimal x =>
    simp only [execute, perform, effect?, bind_apply, pure_apply, register, look, writeAtIndex,
      write]
    cases m.registers.get? x with
    | error f => rfl
    | ok a =>
      simp only [ok_bind]
      cases m.memory.writeRange? m.registers.index (decimalDigits a) <;> rfl
  | storeRegisters x =>
    simp only [execute, perform, effect?, bind_apply, pure_apply, look, writeAtIndex, write]
    cases m.registers.range? x with
    | error f => rfl
    | ok bytes =>
      simp only [ok_bind]
      cases m.memory.writeRange? m.registers.index bytes <;> rfl
  | loadRegisters x =>
    simp only [execute, perform, effect?, bind_apply, pure_apply, readAtIndex, look,
      Action.loadRegisters, write]
    cases m.memory.readRange? m.registers.index (x.toNat + 1) with
    | error f => rfl
    | ok bytes =>
      simp only [ok_bind]
      cases m.registers.load? bytes <;> rfl

/-! ### Cycles -/

/-- A fetch succeeds if the two cells can be read and their word is an instruction. -/
theorem fetch?_eq_ok_iff {m : Machine} {w : Opcode} {i : Instruction} :
    m.fetch? = .ok (w, i) ↔
      m.memory.readOpcode? m.registers.pc = .ok w ∧ Instruction.decode w = .ok i := by
  simp [fetch?, bind_eq_ok_iff, pure, Except.pure]

/-- A running machine does what its next instruction does, and halts if that is refused.
-/
theorem cycle_of_fetch {m : Machine} {w : Opcode} {i : Instruction}
    (hrun : m.state = .running) (hf : m.fetch? = .ok (w, i)) :
    m.cycle =
      match m.effect? i with
      | .ok m' => ⟨.ok m'.state, m', #[.executing m.registers.pc w i] ++ eventsOf i⟩
      | .error f => ⟨.error f, (m.afterRefusal i).fail f,
          #[.executing m.registers.pc w i, .failed m.registers.pc f]⟩ := by
  rw [cycle, hrun]
  simp only [step, hf, execute_eq]
  cases m.effect? i <;> rfl

/-- A running machine that cannot fetch its next instruction halts. -/
theorem cycle_of_fetch_error {m : Machine} {f : Fault} (hrun : m.state = .running)
    (hf : m.fetch? = .error f) :
    m.cycle = ⟨.error f, m.fail f, #[.failed m.registers.pc f]⟩ := by
  rw [cycle, hrun]
  simp only [step, hf]

end Machine

end Chip8
