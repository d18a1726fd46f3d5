import Chip8.Proofs.Schedule

/-!
# Interventions

The owner of a machine can do more with it than to operate it: nothing keeps him from having
an instruction executed that is not in memory, in whatever state the machine is, or from
writing to the parts of the machine directly. `Intervention` collects all that can be done
from outside. An intervention is answered, and it reports events, so it comes to an outcome
(`Machine.intervene`); several of them, one after the other, lead from one machine to another
(`Machine.through`).

An instruction that is executed directly may have any operands, also ones that no opcode has.
So the table of instructions says nothing about it, and what it leaves alone is shown from its
effect.

## Main statements

* `Machine.effect?_touches`: what an instruction writes.
* `Machine.execute_keeps`: no instruction touches the record of a fault, the stored program or
  the pacer, and only `FX0A` changes the run state.
* `Machine.fault_of_cycle`, `Machine.fault_of_advance`: the record of a fault is made by the
  cycle that fails.
-/

namespace Chip8

/-- What can be done with a machine from outside. -/
inductive Intervention where
  /-- An operation. -/
  | ask (o : Operation)
  /-- An instruction is executed that need not be in memory. -/
  | execute (i : Instruction)
  | setMemory (memory : Memory)
  | setRegisters (registers : Registers)
  | setKeypad (keypad : Keypad)
  | setDelay (delay : Countdown)
  | setSound (sound : Countdown)

/-- What an intervention gives back, if it is not refused. -/
inductive Answer where
  | done
  /-- The state of the machine afterwards. -/
  | state (s : RunState)
  /-- The press that was pending. -/
  | press (key : Option UInt8)
deriving DecidableEq, Repr

namespace Machine

/-- The answer to an operation. Asking for the pending press takes it away, so both are one
operation, and whoever only wants it gone ignores the answer. -/
def answer (m : Machine) : Operation → Except Fault Answer
  | .load program => (m.load program).result.map fun _ => .done
  | .reset => m.reset.result.map fun _ => .done
  | .cycle => m.cycle.result.map .state
  | .advance nanos => (m.advance nanos).result.map .state
  | .skip => m.skip.result.map fun _ => .done
  | .keyDown key => (m.keypad.keyDown? key).map fun _ => .done
  | .keyUp key => (m.keypad.keyUp? key).map fun _ => .done
  | .clearPending => .ok (.press m.keypad.pending)
  | .tick | .halt | .requestQuit | .releaseKeys => .ok .done

/-- What an intervention comes to. -/
def intervene (m : Machine) : Intervention → Outcome Answer
  | .ask o => ⟨m.answer o, m.after o, m.report o⟩
  | .execute i =>
    ⟨(m.execute i).result.map fun _ => .done, (m.execute i).machine, (m.execute i).log⟩
  | .setMemory memory => ⟨.ok .done, { m with memory }, #[]⟩
  | .setRegisters registers => ⟨.ok .done, { m with registers }, #[]⟩
  | .setKeypad keypad => ⟨.ok .done, { m with keypad }, #[]⟩
  | .setDelay delay => ⟨.ok .done, { m with delay }, #[]⟩
  | .setSound sound => ⟨.ok .done, { m with sound }, #[]⟩

/-- The machine after some interventions, in order. -/
def through (m : Machine) (acts : List Intervention) : Machine :=
  acts.foldl (fun m a => (m.intervene a).machine) m

/-- The answers to some interventions, in order, each with the events that it reports. -/
def responses : Machine → List Intervention → List (Except Fault Answer × Log)
  | _, [] => []
  | m, a :: rest =>
    ((m.intervene a).result, (m.intervene a).log) :: (m.intervene a).machine.responses rest

variable {m m' : Machine} {i : Instruction} {f : Fault} {due : Due} {n nanos : Nat}

@[simp] theorem through_nil (m : Machine) : m.through [] = m := rfl

/-- A run makes its first intervention and then the rest of them. -/
@[simp] theorem through_cons (m : Machine) (a : Intervention) (acts : List Intervention) :
    m.through (a :: acts) = (m.intervene a).machine.through acts := rfl

/-- A run can be cut anywhere. -/
@[simp] theorem through_append (m : Machine) (acts acts' : List Intervention) :
    m.through (acts ++ acts') = (m.through acts).through acts' :=
  List.foldl_append

/-! ### What an instruction leaves alone -/

/-- An instruction writes the registers, and at most one other part of the machine. Which part
that is depends on the instruction alone. -/
inductive Touches (m : Machine) : Instruction → Machine → Prop
  | registers (i : Instruction) (r : Registers) : m.Touches i (m.withRegisters r)
  | clearScreen (r : Registers) : m.Touches .clearScreen ({ m with grid := .blank }.withRegisters r)
  | draw (x y height : UInt8) (grid : Grid) (r : Registers) :
    m.Touches (.draw x y height) ({ m with grid }.withRegisters r)
  | random (x nn : UInt8) (r : Registers) :
    m.Touches (.random x nn) ({ m with random := m.random.tail }.withRegisters r)
  | awaitKey {x : UInt8} (hx : x ≤ 15) :
    m.Touches (.awaitKey x) { m with keypad := m.keypad.clearPending, state := .waiting x }
  | setDelay (x count : UInt8) (r : Registers) :
    m.Touches (.setDelay x) ({ m with delay := ⟨count⟩ }.withRegisters r)
  | setSound (x count : UInt8) (r : Registers) :
    m.Touches (.setSound x) ({ m with sound := ⟨count⟩ }.withRegisters r)
  | storeDecimal (x : UInt8) (memory : Memory) (r : Registers) :
    m.Touches (.storeDecimal x) ({ m with memory }.withRegisters r)
  | storeRegisters (x : UInt8) (memory : Memory) (r : Registers) :
    m.Touches (.storeRegisters x) ({ m with memory }.withRegisters r)

/-- Every instruction that succeeds writes what is listed for it. -/
theorem effect?_touches (h : m.effect? i = .ok m') : m.Touches i m' := by
  cases i with
  | awaitKey x =>
    obtain ⟨_, hget, h⟩ := bind_eq_ok_iff.1 h
    obtain rfl := Except.ok.inj h
    rw [Registers.get?] at hget
    split at hget
    · next hx => exact .awaitKey (UInt8.le_iff_toNat_le.2 (Nat.le_of_lt_succ hx))
    · cases hget
  | clearScreen =>
    obtain rfl := Except.ok.inj h
    exact .clearScreen _
  | jump target | setIndex target =>
    obtain rfl := Except.ok.inj h
    exact .registers _ _
  | ret | call target | skipIf c | setByte x nn | addByte x nn | jumpOffset base
  | readDelay x | addIndex x | pointGlyph x =>
    obtain ⟨_, -, h⟩ := bind_eq_ok_iff.1 h
    obtain rfl := Except.ok.inj h
    exact .registers _ _
  | random x nn =>
    obtain ⟨_, -, h⟩ := bind_eq_ok_iff.1 h
    obtain rfl := Except.ok.inj h
    exact .random x nn _
  | setDelay x =>
    obtain ⟨a, -, h⟩ := bind_eq_ok_iff.1 h
    obtain rfl := Except.ok.inj h
    exact .setDelay x a _
  | setSound x =>
    obtain ⟨a, -, h⟩ := bind_eq_ok_iff.1 h
    obtain rfl := Except.ok.inj h
    exact .setSound x a _
  | copy x y | loadRegisters x =>
    obtain ⟨_, -, h⟩ := bind_eq_ok_iff.1 h
    obtain ⟨_, -, h⟩ := bind_eq_ok_iff.1 h
    obtain rfl := Except.ok.inj h
    exact .registers _ _
  | storeDecimal x =>
    obtain ⟨_, -, h⟩ := bind_eq_ok_iff.1 h
    obtain ⟨memory, -, h⟩ := bind_eq_ok_iff.1 h
    obtain rfl := Except.ok.inj h
    exact .storeDecimal x memory _
  | storeRegisters x =>
    obtain ⟨_, -, h⟩ := bind_eq_ok_iff.1 h
    obtain ⟨memory, -, h⟩ := bind_eq_ok_iff.1 h
    obtain rfl := Except.ok.inj h
    exact .storeRegisters x memory _
  | combine o x y =>
    obtain ⟨_, -, h⟩ := bind_eq_ok_iff.1 h
    obtain ⟨_, -, h⟩ := bind_eq_ok_iff.1 h
    obtain ⟨_, -, h⟩ := bind_eq_ok_iff.1 h
    obtain rfl := Except.ok.inj h
    exact .registers _ _
  | draw x y height =>
    obtain ⟨_, -, h⟩ := bind_eq_ok_iff.1 h
    obtain ⟨_, -, h⟩ := bind_eq_ok_iff.1 h
    obtain ⟨_, -, h⟩ := bind_eq_ok_iff.1 h
    obtain rfl := Except.ok.inj h
    exact .draw x y height _ _

/-- No instruction touches the record of a fault, the stored program or the pacer, whatever
its operands, and only `FX0A` changes the run state. -/
theorem effect?_keeps (h : m.effect? i = .ok m') :
    m.view.Keeps m'.view ∧
      (m'.state = m.state ∨ ∃ x, i = .awaitKey x ∧ x ≤ 15 ∧ m'.state = .waiting x) := by
  cases effect?_touches h with
  | awaitKey hx => exact ⟨⟨rfl, rfl, rfl⟩, .inr ⟨_, rfl, hx, rfl⟩⟩
  | _ => exact ⟨⟨rfl, rfl, rfl⟩, .inl rfl⟩

/-- A refused instruction touches none of them either. -/
theorem execute_keeps (m : Machine) (i : Instruction) :
    m.view.Keeps (m.execute i).machine.view ∧
      ((m.execute i).machine.state = m.state ∨
        ∃ x, i = .awaitKey x ∧ x ≤ 15 ∧ (m.execute i).machine.state = .waiting x) := by
  rw [execute_eq]
  cases heffect : m.effect? i with
  | ok m' => exact effect?_keeps heffect
  | error f =>
    refine ⟨?_, .inl ?_⟩
    · cases i <;> exact ⟨rfl, rfl, rfl⟩
    · cases i <;> rfl

/-! ### The record of a fault -/

/-- A cycle leaves the record of a fault alone, or it fails and makes it. -/
theorem fault_of_cycle (m : Machine) :
    m.cycle.machine.fault = m.fault ∨
      ∃ f, m.cycle.result = .error f ∧ m.cycle.machine = m.fail f := by
  cases m.cycleTurn with
  | executes hi => exact .inl (effect?_keeps (effect?_of_executed hi).1).1.fault
  | fails hresult hmachine => exact .inr ⟨_, hresult, hmachine⟩
  | stays hcycle | takes _ hcycle | loses hcycle =>
    rw [hcycle]
    exact .inl rfl

/-- A cycle that fails and leaves the machine halted has made the record. -/
theorem cycle_failed (hresult : m.cycle.result = .error f)
    (hhalts : m.cycle.machine.state = .halted) : m.cycle.machine.fault = some f := by
  cases m.cycleTurn with
  | executes hi => cases (effect?_of_executed hi).2.symm.trans hresult
  | fails hfails hmachine =>
    obtain rfl := Except.error.inj (hfails.symm.trans hresult)
    rw [hmachine]
  | stays hcycle | takes _ hcycle =>
    rw [hcycle] at hresult
    cases hresult
  | loses hcycle =>
    -- the state is the one before, and a halted machine does not fail
    have hstate : m.state = .halted := by
      rw [hcycle] at hhalts
      exact hhalts
    rw [cycle, hstate] at hresult
    cases hresult

/-- Rounds whose cycles leave the machine running leave the record of a fault alone. -/
theorem fault_afterAll_rounds
    (hrun : ∀ k < n, (m.afterAll (due.rounds k)).cycle.result = .ok .running) :
    (m.afterAll (due.rounds n)).fault = m.fault := by
  induction n with
  | zero => rfl
  | succ n ih =>
    have hlast := hrun n (Nat.lt_succ_self n)
    rw [Due.rounds, afterAll_append, afterAll_cons, afterAll_ticks_eq,
      ← ih fun k hk => hrun k (Nat.lt_succ_of_lt hk)]
    rcases fault_of_cycle (m.afterAll (due.rounds n)) with hkept | ⟨f, hfails, -⟩
    · exact hkept
    · cases hfails.symm.trans hlast

/-- A slice of time leaves the record of a fault alone, or it ends with a cycle of a machine
that has the same record. -/
theorem advance_ends (hquit : m.keypad.quit = false) (nanos : Nat) :
    ((∃ state, (m.advance nanos).result = .ok state) ∧
        (m.advance nanos).machine.fault = m.fault) ∨
      ∃ l : Machine, l.fault = m.fault ∧ (m.advance nanos).result = l.cycle.result ∧
        (m.advance nanos).machine = l.cycle.machine := by
  rcases (m.paced nanos).running_or_stop (m.pacer.due nanos) with
    hrun | ⟨n, hn, hbefore, hstop⟩
  · left
    rw [advance_of_running hquit hrun, Due.schedule, afterAll_append, afterAll_ticks_eq]
    exact ⟨⟨_, rfl⟩, fault_afterAll_rounds (m := m.paced nanos) hrun⟩
  · right
    refine ⟨(m.paced nanos).afterAll ((m.pacer.due nanos).rounds n),
      fault_afterAll_rounds (m := m.paced nanos) hbefore, ?_⟩
    rw [advance_of_stop hquit hn hbefore hstop, afterAll_append]
    exact ⟨rfl, rfl⟩

/-- A slice of time leaves the record of a fault alone, or takes it away when it sees the
request to quit, or fails with a cycle that makes it. -/
theorem fault_of_advance (m : Machine) (nanos : Nat) :
    (m.advance nanos).machine.fault = m.fault ∨ (m.advance nanos).machine.fault = none ∨
      ∃ f, (m.advance nanos).result = .error f ∧ (m.advance nanos).machine.state = .halted ∧
        (m.advance nanos).machine.fault = some f := by
  cases hquit : m.keypad.quit with
  | true => exact .inr (.inl (by rw [advance_of_quit hquit]; rfl))
  | false =>
    rcases advance_ends hquit nanos with ⟨-, hkept⟩ | ⟨l, hfault, hresult, hmachine⟩
    · exact .inl hkept
    · rw [hresult, hmachine]
      rcases l.fault_of_cycle with hkept | ⟨f, hfails, hmachine⟩
      · exact .inl (hkept.trans hfault)
      · rw [hmachine]
        exact .inr (.inr ⟨f, hfails, rfl, rfl⟩)

/-- A slice of time that fails and leaves the machine halted has made the record. -/
theorem advance_failed (hresult : (m.advance nanos).result = .error f)
    (hhalts : (m.advance nanos).machine.state = .halted) :
    (m.advance nanos).machine.fault = some f := by
  have hquit : m.keypad.quit = false := by
    rw [← Bool.not_eq_true]
    intro hquit
    rw [advance_of_quit hquit] at hresult
    cases hresult
  rcases advance_ends hquit nanos with ⟨⟨state, hok⟩, -⟩ | ⟨l, -, hlast, hmachine⟩
  · cases hok.symm.trans hresult
  · rw [hmachine] at hhalts ⊢
    exact cycle_failed (hlast.symm.trans hresult) hhalts

end Machine

end Chip8
