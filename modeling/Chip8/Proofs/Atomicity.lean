import Chip8.Proofs.Decoding
import Chip8.Proofs.Effect

/-!
# Refused instructions are atomic

An instruction writes as it goes along, and its checks lie between its writes, so that
it leaves the machine alone when it is refused is not for free. It follows from the
order of the two in each instruction, also for operands that no opcode has.

## Main statements

* `Machine.execute_refused`: a refused instruction has changed nothing, except that one
  about a random byte has taken that byte.
* `Machine.cycle_refused`: a failed cycle has changed nothing but the run state and the
  fault, as an instruction about a random byte that was read from memory is never
  refused.
* `Machine.failure_atomic`: both together.
-/

namespace Chip8.Machine

open Instruction

variable {m : Machine} {i : Instruction} {f : Fault}

/-! ### Instructions -/

/-- An instruction about a random byte is only refused for its register. -/
theorem not_lt_of_effect?_random {x nn : UInt8} (h : m.effect? (.random x nn) = .error f) :
    ¬x.toNat < registerCount := by
  intro hx
  rw [effect?, Registers.set?_of_lt hx] at h
  cases h

/-- A refused instruction leaves the machine alone, or is about a random byte. -/
theorem afterRefusal_cases (m : Machine) (i : Instruction) :
    (∃ x nn, i = .random x nn) ∧ m.afterRefusal i = { m with random := m.random.tail } ∨
      (∀ x nn, i ≠ .random x nn) ∧ m.afterRefusal i = m := by
  by_cases h : ∃ x nn, i = .random x nn
  · obtain ⟨x, nn, rfl⟩ := h
    exact .inl ⟨⟨x, nn, rfl⟩, rfl⟩
  · have hne : ∀ x nn, i ≠ .random x nn := fun x nn hi => h ⟨x, nn, hi⟩
    refine .inr ⟨hne, ?_⟩
    rw [afterRefusal]
    exact hne

/-- A failed instruction was refused. -/
theorem effect?_of_execute (h : (m.execute i).result = .error f) :
    m.effect? i = .error f ∧ (m.execute i).machine = m.afterRefusal i := by
  rw [execute_eq] at h ⊢
  cases he : m.effect? i with
  | ok m' =>
    rw [he] at h
    cases h
  | error e =>
    rw [he] at h
    cases h
    exact ⟨rfl, rfl⟩

/-- What a refused instruction leaves behind. -/
theorem execute_refused (h : (m.execute i).result = .error f) :
    (∃ x nn, i = .random x nn ∧ 15 < x ∧
        (m.execute i).machine = { m with random := m.random.tail }) ∨
      (∀ x nn, i ≠ .random x nn) ∧ (m.execute i).machine = m := by
  obtain ⟨heffect, hmachine⟩ := effect?_of_execute h
  rw [hmachine]
  rcases m.afterRefusal_cases i with ⟨⟨x, nn, rfl⟩, hafter⟩ | hafter
  · have hx : registerCount ≤ x.toNat := Nat.not_lt.1 (not_lt_of_effect?_random heffect)
    exact .inl ⟨x, nn, rfl, UInt8.lt_iff_toNat_lt.2 hx, hafter⟩
  · exact .inr hafter

/-! ### Cycles -/

/-- An instruction that was read from memory leaves the machine alone when it is
refused. -/
theorem afterRefusal_of_encodable (hi : i.Encodable) (h : m.effect? i = .error f) :
    m.afterRefusal i = m := by
  rcases m.afterRefusal_cases i with ⟨⟨x, nn, rfl⟩, -⟩ | ⟨-, hafter⟩
  · exact absurd (UInt8.lt_iff_toNat_lt.1 hi) (not_lt_of_effect?_random h)
  · exact hafter

/-- What a failed cycle leaves behind. -/
theorem cycle_refused (hrun : m.state = .running) (h : m.cycle.result = .error f) :
    m.cycle.machine = { m with state := .halted, fault := some f } := by
  cases hf : m.fetch? with
  | error e =>
    rw [cycle_of_fetch_error hrun hf] at h ⊢
    cases h
    rfl
  | ok p =>
    obtain ⟨w, i⟩ := p
    obtain ⟨hi, -⟩ := decode_eq_ok_iff_spells.1 (fetch?_eq_ok_iff.1 hf).2
    rw [cycle_of_fetch hrun hf] at h ⊢
    cases he : m.effect? i with
    | ok m' =>
      rw [he] at h
      cases h
    | error e =>
      rw [he] at h
      cases h
      simp only [afterRefusal_of_encodable hi he]
      rfl

/-- Failures are atomic. A refused instruction, whatever its operands, leaves the
machine as it was, except that a random byte for a register that does not exist has been
taken. A failed cycle of a running machine halts it and records the fault, and changes
nothing else. -/
theorem failure_atomic (m : Machine) :
    (∀ i f, (m.execute i).result = .error f →
      (∃ x nn, i = .random x nn ∧ 15 < x ∧
          (m.execute i).machine = { m with random := m.random.tail }) ∨
        (∀ x nn, i ≠ .random x nn) ∧ (m.execute i).machine = m) ∧
    (m.state = .running → ∀ f, m.cycle.result = .error f →
      m.cycle.machine = { m with state := .halted, fault := some f }) :=
  ⟨fun _ _ h => execute_refused h, fun hrun _ h => cycle_refused hrun h⟩

/-- A machine that has just been switched on. Where programs begin, its memory is empty.
-/
def withoutProgram : Machine :=
  powerOn (.start 700 60) .zeros

/-- The first two cells of empty program memory are `0000`, which is no instruction. -/
theorem fetch?_withoutProgram : withoutProgram.fetch? = .error (.unknownOpcode 0) := by
  have hin : programStart.toNat + 1 < memorySize := by decide
  have hread : Memory.powerOn.readOpcode? programStart = .ok 0 := by
    rw [Memory.readOpcode?, dif_pos hin]
    simp only [Memory.powerOn, Vector.getElem_ofFn]
    rfl
  have hstart : withoutProgram.memory.readOpcode? withoutProgram.registers.pc = .ok 0 := hread
  rw [fetch?, hstart]
  rfl

/-- There is no register 16, and no instruction `0000`. -/
theorem failure_atomic_withoutProgram :
    (withoutProgram.execute (.random 16 0xFF)).machine =
        { withoutProgram with random := ByteStream.zeros.tail } ∧
      (withoutProgram.execute (.copy 0 16)).machine = withoutProgram ∧
      withoutProgram.cycle.machine =
        { withoutProgram with state := .halted, fault := some (.unknownOpcode 0) } := by
  have hcycle : withoutProgram.cycle.result = .error (.unknownOpcode 0) := by
    rw [cycle_of_fetch_error rfl fetch?_withoutProgram]
  obtain ⟨hexecute, hhalt⟩ := failure_atomic withoutProgram
  refine ⟨?_, ?_, hhalt rfl _ hcycle⟩
  · rcases hexecute (.random 16 0xFF) (.invalidIndex 16) rfl with ⟨x, nn, -, -, h⟩ | ⟨hne, -⟩
    · exact h
    · exact absurd rfl (hne 16 0xFF)
  · rcases hexecute (.copy 0 16) (.invalidIndex 16) rfl with ⟨x, nn, hi, -⟩ | ⟨-, h⟩
    · cases hi
    · exact h

end Chip8.Machine
