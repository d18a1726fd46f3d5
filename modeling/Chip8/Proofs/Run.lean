import Chip8.Proofs.Invariant

/-!
# Runs

What becomes of a machine is the work of many operations, one after the other. A run is a
machine and the list of what is asked of it. The machine at the end is
`Machine.afterAll`, what is reported on the way is `Machine.reports`, and
`Machine.executed` lists the instructions that the cycles of the run have executed.
`Machine.Each` says that something holds at every step.

## Main statements

* `Reachable.afterAll`: a run from a reachable machine ends in a reachable machine.
* `Machine.row_of_executed`: an executed instruction has followed its row of the table.
* `Machine.cycleTurn`: the five things that a cycle can come to.
* `Machine.fetch?_load`: what is fetched from a program that was loaded.
-/

namespace Chip8

/-! ### Operations -/

namespace Operation

/-- The operation is one cycle. -/
def isCycle : Operation → Bool
  | .cycle => true
  | _ => false

/-- The operation is one tick. -/
def isTick : Operation → Bool
  | .tick => true
  | _ => false

end Operation

namespace Machine

variable {m : Machine} {i : Instruction} {o : Operation}

/-- The machine after some operations, in order. -/
def afterAll (m : Machine) (ops : List Operation) : Machine :=
  ops.foldl after m

/-- What an operation reports. -/
def report (m : Machine) : Operation → Log
  | .load program => (m.load program).log
  | .reset => m.reset.log
  | .cycle => m.cycle.log
  | .tick => m.tickLog
  | .advance nanos => (m.advance nanos).log
  | .halt => m.haltLog
  | .skip => m.skip.log
  | .keyDown _ | .keyUp _ | .clearPending | .requestQuit | .releaseKeys => #[]

/-- What some operations report, in order. -/
def reports : Machine → List Operation → Log
  | _, [] => #[]
  | m, o :: rest => m.report o ++ (m.after o).reports rest

/-- Something holds of each operation and the machine that it is asked of. -/
def Each (P : Machine → Operation → Prop) : Machine → List Operation → Prop
  | _, [] => True
  | m, o :: rest => P m o ∧ Each P (m.after o) rest

/-! ### Runs in parts -/

@[simp] theorem afterAll_nil (m : Machine) : m.afterAll [] = m := rfl

/-- A run makes its first operation and then the rest of them. -/
@[simp] theorem afterAll_cons (m : Machine) (o : Operation) (ops : List Operation) :
    m.afterAll (o :: ops) = (m.after o).afterAll ops := rfl

/-- A run can be cut anywhere. -/
@[simp] theorem afterAll_append (m : Machine) (ops ops' : List Operation) :
    m.afterAll (ops ++ ops') = (m.afterAll ops).afterAll ops' :=
  List.foldl_append

/-- So can what it reports. -/
@[simp] theorem reports_append (m : Machine) (ops ops' : List Operation) :
    m.reports (ops ++ ops') = m.reports ops ++ (m.afterAll ops).reports ops' := by
  induction ops generalizing m with
  | nil => simp [reports]
  | cons o ops ih => simp [reports, ih]

/-- Several ticks are a run of single ones, and their reports come behind those that are there. -/
theorem ticks_eq (k : Nat) (m : Machine) (log : Log) :
    ticks k m log =
      (m.afterAll (.replicate k .tick), log ++ m.reports (.replicate k .tick)) := by
  induction k generalizing m log with
  | zero => simp [ticks, reports]
  | succ k ih =>
    rw [ticks, ih, List.replicate_succ, afterAll_cons, reports, ← Array.append_assoc]
    rfl

/-! ### Executed instructions -/

/-- The instruction that the next cycle executes with success, if there is one. -/
def executed? (m : Machine) : Option Instruction :=
  match m.state, m.fetch?, m.cycle.result with
  | .running, .ok (_, i), .ok _ => some i
  | _, _, _ => none

/-- The instruction that an operation executes with success, if it is a cycle and there is
one. -/
def executedBy (m : Machine) : Operation → Option Instruction
  | .cycle => m.executed?
  | _ => none

/-- The instructions that the cycles among some operations execute with success. -/
def executed : Machine → List Operation → List Instruction
  | _, [] => []
  | m, o :: rest => (m.executedBy o).toList ++ (m.after o).executed rest

/-- The instructions of a run are those of its parts, one after the other. -/
theorem executed_append (m : Machine) (ops ops' : List Operation) :
    m.executed (ops ++ ops') = m.executed ops ++ (m.afterAll ops).executed ops' := by
  induction ops generalizing m with
  | nil => rfl
  | cons o ops ih =>
    change (m.executedBy o).toList ++ (m.after o).executed (ops ++ ops') = _
    rw [ih, ← List.append_assoc]
    rfl

/-- Only a cycle executes an instruction. -/
theorem executedBy_eq_some (h : m.executedBy o = some i) :
    o = .cycle ∧ m.executed? = some i := by
  cases o with
  | cycle => exact ⟨rfl, h⟩
  | _ => cases h

/-- The next cycle executes the instruction that a running machine fetches, if the cycle succeeds.
-/
theorem executed?_eq_some_iff :
    m.executed? = some i ↔
      m.state = .running ∧ (∃ w, m.fetch? = .ok (w, i)) ∧
        ∃ state, m.cycle.result = .ok state := by
  rw [executed?]
  constructor
  · intro h
    split at h
    · next hrun hfetch hresult =>
      cases h
      exact ⟨hrun, ⟨_, hfetch⟩, _, hresult⟩
    · cases h
  · rintro ⟨hrun, ⟨w, hfetch⟩, state, hresult⟩
    rw [hrun, hfetch, hresult]

/-- A cycle of a running machine that succeeds has executed an instruction. -/
theorem exists_executed (hrun : m.state = .running) {state : RunState}
    (h : m.cycle.result = .ok state) : ∃ i, m.executed? = some i := by
  cases hfetch : m.fetch? with
  | error f =>
    rw [cycle_of_fetch_error hrun hfetch] at h
    cases h
  | ok p => exact ⟨p.2, executed?_eq_some_iff.2 ⟨hrun, ⟨p.1, hfetch⟩, state, h⟩⟩

/-- A fetched instruction that has an effect is executed. -/
theorem executed?_of_effect {w : Opcode} {m' : Machine} (hrun : m.state = .running)
    (hfetch : m.fetch? = .ok (w, i)) (heffect : m.effect? i = .ok m') :
    m.executed? = some i := by
  refine executed?_eq_some_iff.2 ⟨hrun, ⟨w, hfetch⟩, m'.state, ?_⟩
  rw [cycle_of_fetch hrun hfetch, heffect]

/-- The machine after an executed instruction is its effect. -/
theorem effect?_of_executed (h : m.executed? = some i) :
    m.effect? i = .ok m.cycle.machine ∧ m.cycle.result = .ok m.cycle.machine.state := by
  obtain ⟨hrun, ⟨w, hfetch⟩, state, hresult⟩ := executed?_eq_some_iff.1 h
  rw [cycle_of_fetch hrun hfetch] at hresult ⊢
  cases heffect : m.effect? i with
  | ok m' => exact ⟨rfl, rfl⟩
  | error f =>
    rw [heffect] at hresult
    cases hresult

/-- An executed instruction has operands that fit, and has followed its row of the table.
-/
theorem row_of_executed (h : m.executed? = some i) :
    m.view.pc ≤ 4094 ∧ i.Encodable ∧
      Row m.view i.encode.toNat m.cycle.machine.view := by
  obtain ⟨hrun, ⟨w, hfetch⟩, state, hresult⟩ := executed?_eq_some_iff.1 h
  obtain ⟨hpc, ⟨hi, rfl⟩, hw⟩ := fetch?_eq_ok_iff_spells.1 hfetch
  obtain ⟨-, hrow⟩ := row_of_cycle hrun hresult
  exact ⟨hpc, hi, hw ▸ hrow⟩

/-! ### Cycles -/

/-- What a cycle can come to. -/
inductive CycleTurn (m : Machine) : Prop
  /-- An instruction is executed. -/
  | executes {i : Instruction} (hi : m.executed? = some i)
  /-- An instruction is refused or cannot be fetched, and the machine halts. -/
  | fails {f : Fault} (hresult : m.cycle.result = .error f)
    (hmachine : m.cycle.machine = { m with state := .halted, fault := some f })
  /-- The machine is halted, or it waits and no press is pending. -/
  | stays (hcycle : m.cycle = ⟨.ok m.state, m, #[]⟩)
  /-- The machine takes the press that it waited for. -/
  | takes {r key : UInt8} (hr : r.toNat < registerCount)
    (hcycle : m.cycle =
      ⟨.ok .running,
        { m with
          keypad := m.keypad.clearPending
          registers :=
            { m.registers with
              data := m.registers.data.set r.toNat key
              pc := m.registers.pc + 2 }
          state := .running }, #[.resumed key]⟩)
  /-- The machine takes the press, but waited for a register that does not exist. -/
  | loses {key : UInt8} {f : Fault}
    (hcycle : m.cycle =
      ⟨.error f, { m with keypad := m.keypad.clearPending }, #[.resumed key]⟩)

/-- Every cycle comes to one of these. -/
theorem cycleTurn (m : Machine) : m.CycleTurn := by
  cases hstate : m.state with
  | halted => exact .stays (by rw [cycle, hstate])
  | running =>
    cases hresult : m.cycle.result with
    | error f => exact .fails hresult (cycle_refused hstate hresult)
    | ok state =>
      obtain ⟨i, hi⟩ := exists_executed hstate hresult
      exact .executes hi
  | waiting r =>
    have hcycle : m.cycle = m.poll r := by rw [cycle, hstate]
    rw [poll] at hcycle
    cases hpending : m.keypad.pending with
    | none =>
      rw [hpending] at hcycle
      exact .stays hcycle
    | some key =>
      by_cases hr : r.toNat < registerCount
      · simp only [hpending, Registers.set?_of_lt hr] at hcycle
        exact .takes hr hcycle
      · simp only [hpending, Registers.set?, dif_neg hr] at hcycle
        exact .loses hcycle

/-- A cycle does not look at the pacer. -/
@[simp] theorem pacer_cycle (m : Machine) : m.cycle.machine.pacer = m.pacer := by
  cases m.cycleTurn with
  | executes hi => exact (row_of_executed hi).2.2.keeps.pacer
  | fails _ hmachine => rw [hmachine]
  | stays hcycle | takes _ hcycle | loses hcycle => rw [hcycle]

/-- A tick moves the timers, if anything. -/
theorem tick_eq (m : Machine) :
    m.tick = { m with delay := m.tick.delay, sound := m.tick.sound } := by
  rw [tick]
  split <;> rfl

/-- A tick takes no time from the pacer. -/
@[simp] theorem pacer_tick (m : Machine) : m.tick.pacer = m.pacer := by
  rw [tick_eq]

/-! ### Loaded programs -/

/-- A load that fits succeeds. -/
theorem load_of_fits {program : List UInt8} (h : program.length ≤ programLimit) :
    m.load program =
      ⟨.ok (), { m with memory := ⟨overlay m.memory.cells programStart.toNat program⟩, program },
        #[.loaded program.length]⟩ := by
  rw [load, Memory.load?_eq_ok h]

/-- The cells from the start of the program on hold the program. -/
theorem cell_load {program : List UInt8} (hfits : program.length ≤ programLimit) {k : Nat}
    (hk : k < program.length) :
    (m.load program).machine.view.cell (programStart.toNat + k) = program[k].toNat := by
  have hin : programStart.toNat + program.length ≤ memorySize :=
    Nat.add_le_of_le_sub' (by decide) hfits
  rw [load_of_fits hfits]
  change (Memory.mk (overlay m.memory.cells _ program)).value _ = _
  rw [Memory.value_overlay _ _ _ hin, if_pos ⟨Nat.le_add_right _ _, by simpa using hk⟩]
  simp [hk]

section Load

variable {n : Machine} (program : List UInt8) (hfits : program.length ≤ programLimit)
  (hmemory : n.memory = (m.load program).machine.memory) {k : Nat}
  (hk : k + 1 < program.length) (hpc : n.view.pc = programStart.toNat + k)

include hfits hmemory hpc

/-- A machine whose memory is that of a loaded program is about to execute what is in the
program, two bytes at a time. -/
theorem word_load :
    n.view.pc ≤ 4094 ∧
      n.view.word = 0x100 * program[k].toNat + program[k + 1].toNat := by
  have hcell : n.view.cell = (m.load program).machine.view.cell := congrArg Memory.value hmemory
  have hin : programStart.toNat + programLimit = 4096 := by decide
  refine ⟨by omega, ?_⟩
  rw [View.word, hpc, hcell, cell_load hfits (Nat.lt_of_succ_lt hk)]
  exact congrArg (_ + ·) (cell_load hfits hk)

/-- If it is an instruction, that is what it fetches. -/
theorem fetch?_load (hi : i.Encodable)
    (hword : i.encode.toNat = 0x100 * program[k].toNat + program[k + 1].toNat) :
    n.fetch? = .ok (i.encode, i) := by
  obtain ⟨hpc, hat⟩ := word_load program hfits hmemory hk hpc
  exact fetch?_eq_ok_iff_spells.2 ⟨hpc, ⟨hi, rfl⟩, hword.trans hat.symm⟩

end Load

end Machine

/-- Runs from reachable machines end in reachable machines. -/
theorem Reachable.afterAll {m : Machine} (h : Reachable m) (ops : List Operation) :
    Reachable (m.afterAll ops) := by
  induction ops generalizing m with
  | nil => exact h
  | cons o ops ih => exact ih (h.after o)

end Chip8
