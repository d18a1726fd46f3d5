import Chip8.Proofs.Intervention

/-!
# Independence of the random bytes

Two machines that differ in nothing but the stream of their random bytes can be told apart by
`CXNN` alone. As long as it is not executed, whatever is done with one of them is answered as
it is by the other, with the same events, and they still differ in nothing else.

`Machine.executedThrough` lists the instructions that a run executes. Those of a slice of time
are found by going through its cycles in the way in which `Machine.slice` does.

## Main statements

* `Machine.cycle_withRandom`: a cycle that does not execute `CXNN`.
* `Machine.slice_withRandom`: the cycles of a slice of time.
* `Machine.intervene_withRandom`: all that can be done with a machine from outside.
* `Machine.through_withRandom`: a run.
-/

namespace Chip8

/-- The machine with another stream of random bytes. -/
def Machine.withRandom (m : Machine) (random : ByteStream) : Machine :=
  { m with random }

/-- The outcome with another stream of random bytes. -/
def Outcome.withRandom {α : Type} (o : Outcome α) (random : ByteStream) : Outcome α :=
  { o with machine := o.machine.withRandom random }

/-- The instruction takes no random byte. -/
def Instruction.IsSteady (i : Instruction) : Prop :=
  ∀ x nn, i ≠ .random x nn

namespace Machine

variable {m : Machine} {i : Instruction} {r : ByteStream} {a : Intervention}
  {acts : List Intervention}

@[simp] theorem registers_withRandom : (m.withRandom r).registers = m.registers := rfl

@[simp] theorem memory_withRandom : (m.withRandom r).memory = m.memory := rfl

@[simp] theorem keypad_withRandom : (m.withRandom r).keypad = m.keypad := rfl

@[simp] theorem state_withRandom : (m.withRandom r).state = m.state := rfl

/-- The stream that was given is the stream of the machine. -/
@[simp] theorem random_withRandom : (m.withRandom r).random = r := rfl

/-- Of two streams that are given the second counts. -/
@[simp] theorem withRandom_withRandom (r' : ByteStream) :
    (m.withRandom r).withRandom r' = m.withRandom r' := rfl

/-- To switch a machine on with a stream is to switch it on and give it that stream. -/
theorem powerOn_withRandom (pacer : Pacer) (random random' : ByteStream) :
    (powerOn pacer random).withRandom random' = powerOn pacer random' := rfl

/-! ### Executed instructions -/

/-- The instructions that the last `left` cycles of a slice execute with success, when
`ticked` ticks of it have been made. -/
def executedInSlice (due : Due) : (left ticked : Nat) → Machine → List Instruction
  | 0, _, _ => []
  | left + 1, ticked, m =>
    let owed := due.owed (due.cycles - left)
    m.executed?.toList ++
      if m.cycle.result = .ok .running then
        executedInSlice due left (max ticked owed)
          (m.cycle.machine.afterAll (.replicate (owed - ticked) .tick))
      else []

/-- The instructions that an intervention executes. -/
def executedIn (m : Machine) : Intervention → List Instruction
  | .execute i => [i]
  | .ask .cycle => m.executed?.toList
  | .ask (.advance nanos) =>
    if m.keypad.quit then []
    else executedInSlice (m.pacer.due nanos) (m.pacer.due nanos).cycles 0 (m.paced nanos)
  | _ => []

/-- The instructions that some interventions execute. -/
def executedThrough : Machine → List Intervention → List Instruction
  | _, [] => []
  | m, a :: rest => m.executedIn a ++ (m.intervene a).machine.executedThrough rest

/-! ### Cycles and ticks -/

/-- An instruction that takes no random byte does the same with any of them. -/
theorem effect?_withRandom (hi : i.IsSteady) :
    (m.withRandom r).effect? i = (m.effect? i).map (withRandom · r) := by
  cases i with
  | random x nn => exact absurd rfl (hi x nn)
  | skipIf c =>
    -- no condition asks about a random byte
    have hholds : (m.withRandom r).holds? c = m.holds? c := by cases c <;> rfl
    simp only [effect?, hholds, map_bind]
    rfl
  | _ =>
    simp only [effect?, map_bind]
    rfl

/-- Asked for directly, such an instruction does the same with any stream, also if it is refused. -/
theorem execute_withRandom (hi : i.IsSteady) :
    (m.withRandom r).execute i = (m.execute i).withRandom r := by
  have hrefused : ∀ m : Machine, m.afterRefusal i = m := by
    intro m
    rcases m.afterRefusal_cases i with ⟨⟨x, nn, hrandom⟩, -⟩ | ⟨-, hafter⟩
    · exact absurd hrandom (hi x nn)
    · exact hafter
  rw [execute_eq, execute_eq, effect?_withRandom hi, hrefused, hrefused]
  cases m.effect? i <;> rfl

/-- To look for the awaited key takes no random byte. -/
theorem poll_withRandom (x : UInt8) : (m.withRandom r).poll x = (m.poll x).withRandom r := by
  simp only [poll, keypad_withRandom, registers_withRandom, state_withRandom]
  cases m.keypad.pending with
  | none => rfl
  | some key =>
    dsimp only
    cases m.registers.set? x key <;> rfl

/-- If `CXNN` is read from memory, it is executed. -/
theorem isSteady_of_fetch {w : Opcode} (hrun : m.state = .running)
    (hfetch : m.fetch? = .ok (w, i)) (hblind : ∀ i ∈ m.executed?, i.IsSteady) : i.IsSteady := by
  rintro x nn rfl
  obtain ⟨-, ⟨hx, -⟩, -⟩ := fetch?_eq_ok_iff_spells.1 hfetch
  cases heffect : m.effect? (.random x nn) with
  | ok m' => exact hblind _ (executed?_of_effect hrun hfetch heffect) x nn rfl
  | error f => exact not_lt_of_effect?_random heffect (toNat_lt_registerCount hx)

/-- A cycle that does not execute `CXNN`. -/
theorem cycle_withRandom (hblind : ∀ i ∈ m.executed?, i.IsSteady) :
    (m.withRandom r).cycle = m.cycle.withRandom r := by
  rw [cycle, cycle, state_withRandom]
  cases hstate : m.state with
  | halted => rfl
  | waiting x => exact poll_withRandom x
  | running =>
    have hfetch : (m.withRandom r).fetch? = m.fetch? := rfl
    simp only [step, hfetch, registers_withRandom]
    cases hf : m.fetch? with
    | error f => rfl
    | ok p =>
      dsimp only
      rw [execute_withRandom (isSteady_of_fetch hstate hf hblind)]
      cases hresult : (m.execute p.2).result <;>
        simp only [Outcome.withRandom, hresult] <;> rfl

/-- Neither does a tick. -/
theorem tick_withRandom (m : Machine) (r : ByteStream) :
    (m.withRandom r).tick = m.tick.withRandom r := by
  rw [tick, tick, apply_ite (withRandom · r)]
  rfl

/-- What a tick reports depends on the sound alone. -/
theorem tickLog_withRandom (m : Machine) (r : ByteStream) :
    (m.withRandom r).tickLog = m.tickLog := rfl

/-- Several ticks do the same with any stream. -/
theorem ticks_withRandom (k : Nat) (m : Machine) (r : ByteStream) (log : Log) :
    ticks k (m.withRandom r) log = ((ticks k m log).1.withRandom r, (ticks k m log).2) := by
  induction k generalizing m log with
  | zero => rfl
  | succ k ih => rw [ticks, tick_withRandom, ih, tickLog_withRandom, ticks]

/-! ### Slices of time -/

/-- The cycles of a slice that do not execute `CXNN`. -/
theorem slice_withRandom (due : Due) (left ticked : Nat) {m : Machine} (log : Log)
    (hblind : ∀ i ∈ executedInSlice due left ticked m, i.IsSteady) :
    slice due left ticked (m.withRandom r) log =
      (slice due left ticked m log).withRandom r := by
  induction left generalizing ticked m log with
  | zero =>
    simp only [slice, ticks_withRandom]
    rfl
  | succ left ih =>
    rw [executedInSlice, List.forall_mem_append] at hblind
    obtain ⟨hfirst, hrest⟩ := hblind
    have hcycle : (m.withRandom r).cycle = m.cycle.withRandom r :=
      cycle_withRandom fun i hi => hfirst i (Option.mem_toList.2 hi)
    simp only [slice, hcycle, Outcome.withRandom, tickUntil_eq]
    cases hresult : m.cycle.result with
    | error f => rfl
    | ok state =>
      simp only [ticks_withRandom]
      by_cases hrun : state = .running
      · rw [if_pos (by rw [hresult, hrun])] at hrest
        simp only [if_pos hrun]
        refine ih _ _ ?_
        rwa [ticks_eq]
      · simp only [if_neg hrun]

/-- A slice of time in which `CXNN` is not executed. -/
theorem advance_withRandom {nanos : Nat}
    (hblind : ∀ i ∈ m.executedIn (.ask (.advance nanos)), i.IsSteady) :
    (m.withRandom r).advance nanos = (m.advance nanos).withRandom r := by
  cases hquit : m.keypad.quit with
  | true =>
    have hquit' : (m.withRandom r).keypad.quit = true := hquit
    rw [advance_of_quit hquit, advance_of_quit hquit']
    rfl
  | false =>
    have hquit' : (m.withRandom r).keypad.quit = false := hquit
    rw [executedIn, if_neg (ne_true_of_eq_false hquit)] at hblind
    rw [advance_of_not_quit hquit, advance_of_not_quit hquit']
    exact slice_withRandom _ _ _ _ hblind

/-! ### Everything else -/

/-- A load does the same with any stream. -/
theorem load_withRandom (program : List UInt8) :
    (m.withRandom r).load program = (m.load program).withRandom r := by
  rw [load, load, memory_withRandom]
  cases m.memory.load? program <;> rfl

/-- A reset keeps the stream that it finds. -/
theorem reset_withRandom : (m.withRandom r).reset = m.reset.withRandom r := by
  have hload := load_withRandom (m := powerOn m.pacer.restart m.random) (r := r) m.program
  exact congrArg (Outcome.after #[.resetting]) hload

/-- To step over an instruction does the same with any stream. -/
theorem skip_withRandom : (m.withRandom r).skip = m.skip.withRandom r := by
  rw [skip, skip, apply_ite (Outcome.withRandom · r)]
  rfl

/-- So does a report about a key. -/
theorem reportKey_withRandom (k : Except Fault Keypad) :
    (m.withRandom r).reportKey k = (m.reportKey k).withRandom r := by
  cases k <;> rfl

/-! ### Interventions -/

/-- An intervention that does not execute `CXNN`. -/
theorem intervene_withRandom (hblind : ∀ i ∈ m.executedIn a, i.IsSteady) :
    (m.withRandom r).intervene a = (m.intervene a).withRandom r := by
  cases a with
  | execute i =>
    rw [intervene, execute_withRandom (hblind i (List.mem_singleton_self i))]
    rfl
  | setMemory memory | setRegisters registers | setKeypad keypad | setDelay delay
  | setSound sound => rfl
  | ask o =>
    rw [intervene]
    cases o with
    | cycle =>
      rw [answer, after, report, cycle_withRandom fun i hi => hblind i (Option.mem_toList.2 hi)]
      rfl
    | advance nanos =>
      rw [answer, after, report, advance_withRandom hblind]
      rfl
    | load program =>
      rw [answer, after, report, load_withRandom]
      rfl
    | reset =>
      rw [answer, after, report, reset_withRandom]
      rfl
    | skip =>
      rw [answer, after, report, skip_withRandom]
      rfl
    | tick =>
      rw [after, tick_withRandom]
      rfl
    | keyDown key | keyUp key =>
      rw [after, reportKey_withRandom]
      rfl
    | halt | clearPending | requestQuit | releaseKeys => rfl

/-- Runs that do not execute `CXNN`. -/
theorem through_withRandom (hblind : ∀ i ∈ m.executedThrough acts, i.IsSteady) :
    (m.withRandom r).through acts = (m.through acts).withRandom r ∧
      (m.withRandom r).responses acts = m.responses acts := by
  induction acts generalizing m with
  | nil => exact ⟨rfl, rfl⟩
  | cons a acts ih =>
    rw [executedThrough, List.forall_mem_append] at hblind
    obtain ⟨hfirst, hrest⟩ := hblind
    obtain ⟨hthrough, hresponses⟩ := ih hrest
    simp only [through_cons, responses, intervene_withRandom hfirst, Outcome.withRandom]
    exact ⟨hthrough, congrArg _ hresponses⟩

end Machine

end Chip8
