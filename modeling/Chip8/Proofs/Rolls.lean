import Chip8.Proofs.RandomBytes

/-!
# One random byte for each roll

A *roll* is an execution of `CXNN`: one that is asked for directly, one by a cycle, and one by a
cycle in the middle of a slice of time. It counts as a roll also if it is refused, because the
byte is taken before there is known to be a register for it.

Each roll takes the next byte of the stream, and nothing else touches the stream: no other
instruction, no failure, no wait and no reset. So the place in the stream is the number of rolls
that have ever been made. `Rolled s rolls s'` says that some rolls, in order, have led from one
place to another.

## Main statements

* `Machine.takes_execute`: what a roll takes from the stream, and what it leaves in its register.
* `Machine.rolled_intervene`: what can be done with a machine rolls as often as it executes
  `CXNN`.
* `Machine.rolled_through`: the rolls of a run.
* `Machine.one_byte_per_roll`: the bytes that they have taken.
-/

namespace Chip8

/-- The stream after `k` bytes have been drawn from it. -/
def ByteStream.after (s : ByteStream) (k : Nat) : ByteStream :=
  { s with drawn := s.drawn + k }

/-! ### Rolls -/

/-- An execution of `CXNN`, with its operands. -/
structure Roll where
  before : Machine
  after : Machine
  x : UInt8
  nn : UInt8

/-- The roll takes the first byte of a stream. If its register exists, it holds the byte
afterwards, with only the bits of `nn` kept. -/
structure Roll.Takes (r : Roll) (s : ByteStream) : Prop where
  before : r.before.random = s
  after : r.after.random = s.tail
  kept : r.x ≤ 15 → r.after.registers.get? r.x = .ok (s.head &&& r.nn)

/-- Some rolls, in order, take one byte each and lead from one place of the stream to another.
-/
inductive Rolled : ByteStream → List Roll → ByteStream → Prop
  | nil {s : ByteStream} : Rolled s [] s
  | cons {s s' : ByteStream} {r : Roll} {rest : List Roll} (h : r.Takes s)
    (hrest : Rolled s.tail rest s') : Rolled s (r :: rest) s'

namespace Rolled

variable {s s' s'' : ByteStream} {rolls rolls' : List Roll} {r : Roll}

/-- One roll takes the stream one byte further. -/
theorem single (h : r.Takes s) : Rolled s [r] s.tail :=
  cons h nil

/-- Rolls that go on where others have ended are one row of rolls. -/
theorem append (h : Rolled s rolls s') (h' : Rolled s' rolls' s'') :
    Rolled s (rolls ++ rolls') s'' := by
  induction h with
  | nil => exact h'
  | cons htakes _ ih => exact cons htakes (ih h')

/-- The rolls are counted by the place to which they lead. -/
theorem eq_after (h : Rolled s rolls s') : s' = s.after rolls.length := by
  induction h with
  | nil => rfl
  | cons _ _ ih =>
    rw [ih, List.length_cons, ByteStream.after, ByteStream.after, ByteStream.tail]
    simp only [Nat.add_assoc, Nat.add_comm 1]

/-- Roll number `k` takes byte number `k`. -/
theorem takes (h : Rolled s rolls s') {k : Nat} (hk : rolls[k]? = some r) :
    r.Takes (s.after k) := by
  induction h generalizing k with
  | nil => cases hk
  | cons htakes _ ih =>
    cases k with
    | zero =>
      obtain rfl := Option.some.inj hk
      exact htakes
    | succ k =>
      have hrest := ih (k := k) hk
      rwa [ByteStream.after, ByteStream.tail, Nat.add_assoc, Nat.add_comm 1] at hrest

end Rolled

/-- The roll that an instruction is, if it is `CXNN`. -/
def Instruction.rolls (i : Instruction) (before after : Machine) : List Roll :=
  match i with
  | .random x nn => [⟨before, after, x, nn⟩]
  | _ => []

/-- An instruction that is not `CXNN` makes no roll. -/
theorem Instruction.rolls_of_isSteady {i : Instruction} (hi : i.IsSteady)
    (before after : Machine) : i.rolls before after = [] := by
  cases i with
  | random x nn => exact absurd rfl (hi x nn)
  | _ => rfl

namespace Machine

variable {m : Machine} {i : Instruction} {a : Intervention} {o : Operation}

/-- The roll that a cycle makes, if it executes `CXNN`. -/
def rollsInCycle (m : Machine) : List Roll :=
  match m.state, m.fetch? with
  | .running, .ok (_, i) => i.rolls m m.cycle.machine
  | _, _ => []

/-- The rolls that an intervention makes, in order. -/
def rollsIn (m : Machine) : Intervention → List Roll
  | .execute i => i.rolls m (m.execute i).machine
  | .ask o => (m.cyclesOf o).flatMap rollsInCycle
  | _ => []

/-- The rolls of a run, in order. -/
def rolls : Machine → List Intervention → List Roll
  | _, [] => []
  | m, a :: rest => m.rollsIn a ++ (m.intervene a).machine.rolls rest

/-! ### Instructions -/

/-- What does the same on any stream leaves the stream alone. -/
theorem random_of_withRandom {α : Type} {o : Outcome α} (h : o = o.withRandom m.random) :
    o.machine.random = m.random :=
  congrArg (fun o : Outcome α => o.machine.random) h

/-- An instruction that is not `CXNN` leaves the stream alone, be it that it is refused. -/
theorem random_execute (hi : i.IsSteady) : (m.execute i).machine.random = m.random :=
  random_of_withRandom (execute_withRandom (m := m) (r := m.random) hi)

/-- What a roll takes from the stream, and what it leaves in its register. -/
theorem takes_execute (m : Machine) (x nn : UInt8) :
    Roll.Takes ⟨m, (m.execute (.random x nn)).machine, x, nn⟩ m.random := by
  rw [execute_eq, effect?]
  by_cases hx : x.toNat < registerCount
  · rw [Registers.set?_of_lt hx]
    refine ⟨rfl, rfl, fun _ => ?_⟩
    refine (Registers.get?_of_lt hx).trans (congrArg Except.ok ?_)
    exact Vector.getElem_set_self hx
  · rw [Registers.set?, dif_neg hx]
    refine ⟨rfl, rfl, fun hle => absurd ?_ hx⟩
    exact Nat.lt_succ_of_le (UInt8.le_iff_toNat_le.1 hle)

/-! ### Cycles and ticks -/

/-- A cycle rolls once if it executes `CXNN`, and else leaves the stream where it is. -/
theorem rolled_cycle (m : Machine) : Rolled m.random m.rollsInCycle m.cycle.machine.random := by
  by_cases hroll : ∃ w x nn, m.state = .running ∧ m.fetch? = .ok (w, .random x nn)
  · obtain ⟨w, x, nn, hrun, hfetch⟩ := hroll
    obtain ⟨-, ⟨hx, -⟩, -⟩ := fetch?_eq_ok_iff_spells.1 hfetch
    have hrolls : m.rollsInCycle = [⟨m, m.cycle.machine, x, nn⟩] := by
      rw [rollsInCycle, hrun, hfetch]
      rfl
    have hcycle : m.cycle.machine = (m.execute (.random x nn)).machine := by
      rw [cycle_of_fetch hrun hfetch, execute_eq, effect?,
        Registers.set?_of_lt (toNat_lt_registerCount hx)]
      rfl
    have htakes := m.takes_execute x nn
    rw [hrolls, hcycle, htakes.after]
    exact .single htakes
  · have hrolls : m.rollsInCycle = [] := by
      rw [rollsInCycle]
      split
      · next w i hrun hfetch =>
        refine Instruction.rolls_of_isSteady ?_ _ _
        rintro x nn rfl
        exact hroll ⟨w, x, nn, hrun, hfetch⟩
      · rfl
    have hblind : ∀ i ∈ m.executed?, i.IsSteady := by
      rintro i hi x nn rfl
      obtain ⟨hrun, ⟨w, hfetch⟩, -⟩ := executed?_eq_some_iff.1 hi
      exact hroll ⟨w, x, nn, hrun, hfetch⟩
    have hkept : m.cycle.machine.random = m.random :=
      random_of_withRandom (cycle_withRandom (r := m.random) hblind)
    rw [hrolls, hkept]
    exact .nil

/-- Ticks leave the stream where it is. -/
theorem random_afterAll_ticks (m : Machine) (k : Nat) :
    (m.afterAll (.replicate k .tick)).random = m.random := by
  rw [afterAll_ticks_eq]

/-! ### Slices of time -/

/-- The loop of a slice rolls with its cycles alone. -/
theorem rolled_slice (due : Due) (left ticked : Nat) (m : Machine) (log : Log) :
    Rolled m.random ((cyclesInSlice due left ticked m).flatMap rollsInCycle)
      (slice due left ticked m log).machine.random := by
  induction left generalizing ticked m log with
  | zero =>
    rw [slice, ticks_eq]
    simp only [random_afterAll_ticks]
    exact .nil
  | succ left ih =>
    rw [cyclesInSlice, List.flatMap_cons]
    refine m.rolled_cycle.append ?_
    by_cases hrun : m.cycle.result = .ok .running
    · rw [if_pos hrun, slice_succ_of_running hrun,
        ← random_afterAll_ticks m.cycle.machine (due.owed (due.cycles - left) - ticked)]
      exact ih _ _ _
    · rw [if_neg hrun, slice_of_stop hrun]
      exact .nil

/-- A slice of time rolls with its cycles, in their order. -/
theorem rolled_advance (m : Machine) (nanos : Nat) :
    Rolled m.random ((m.cyclesOf (.advance nanos)).flatMap rollsInCycle)
      (m.advance nanos).machine.random := by
  cases hquit : m.keypad.quit with
  | true =>
    rw [cyclesOf, if_pos hquit, advance_of_quit hquit]
    exact .nil
  | false =>
    rw [cyclesOf, if_neg (ne_true_of_eq_false hquit), advance_of_not_quit hquit]
    exact rolled_slice _ _ _ (m.paced nanos) #[]

/-! ### Interventions -/

/-- What can be done with a machine rolls as often as it executes `CXNN`. -/
theorem rolled_intervene (m : Machine) (a : Intervention) :
    Rolled m.random (m.rollsIn a) (m.intervene a).machine.random := by
  have hidle : m.executedIn a = [] → (m.intervene a).machine.random = m.random := by
    intro hnone
    refine random_of_withRandom (intervene_withRandom (m := m) (r := m.random) ?_)
    rw [hnone]
    exact List.forall_mem_nil _
  cases a with
  | execute i =>
    change Rolled _ (i.rolls m (m.execute i).machine) (m.execute i).machine.random
    by_cases hi : i.IsSteady
    · rw [i.rolls_of_isSteady hi, random_execute hi]
      exact .nil
    · obtain ⟨x, nn, rfl⟩ : ∃ x nn, i = .random x nn := by
        simpa [Instruction.IsSteady] using hi
      have htakes := m.takes_execute x nn
      rw [htakes.after]
      exact .single htakes
  | setMemory memory | setRegisters registers | setKeypad keypad | setDelay delay
  | setSound sound => exact .nil
  | ask o =>
    cases o with
    | cycle =>
      rw [rollsIn, cyclesOf, List.flatMap_singleton]
      exact m.rolled_cycle
    | advance nanos => exact m.rolled_advance nanos
    | _ =>
      rw [hidle rfl]
      exact .nil

/-! ### Runs -/

/-- A run leads from one place of the stream to another by its rolls. -/
theorem rolled_through (m : Machine) (acts : List Intervention) :
    Rolled m.random (m.rolls acts) (m.through acts).random := by
  induction acts generalizing m with
  | nil => exact .nil
  | cons a acts ih => exact (m.rolled_intervene a).append (ih _)

/-- One random byte for each roll, in order.

Whatever has been done with a machine that was switched on with a generator and a seed, the place
in its stream is the number of rolls that it has made. Roll number `k` takes byte number `k` of
what the generator makes of that seed, be it that the roll is refused for its register, and
otherwise the byte ends in that register, with only the bits of `nn` kept. No other instruction
touches the stream, whatever its operands, and neither does anything else that makes no roll. -/
theorem one_byte_per_roll (generator : Generator) (settings : Settings) (seed : UInt64)
    (acts : List Intervention) :
    let start := withSeed generator settings seed
    let bytes := ByteStream.ofSeed generator seed
    (start.through acts).random = bytes.after (start.rolls acts).length ∧
    (∀ k r, (start.rolls acts)[k]? = some r →
      r.before.random = bytes.after k ∧ r.after.random = bytes.after (k + 1) ∧
        (r.x ≤ 15 → r.after.registers.get? r.x = .ok (generator seed k &&& r.nn))) ∧
    (∀ (m : Machine) (i : Instruction), (∀ x nn, i ≠ .random x nn) →
      (m.execute i).machine.random = m.random) ∧
    ∀ (m : Machine) (a : Intervention), m.rollsIn a = [] →
      (m.intervene a).machine.random = m.random := by
  intro start bytes
  have hrolled : Rolled bytes (start.rolls acts) (start.through acts).random :=
    start.rolled_through acts
  refine ⟨hrolled.eq_after, fun k r hk => ?_, fun m i hi => random_execute hi,
    fun m a hnone => ?_⟩
  · obtain ⟨hbefore, hafter, hkept⟩ := hrolled.takes hk
    have hhead : (bytes.after k).head = generator seed k := by
      change generator seed (0 + k) = generator seed k
      rw [Nat.zero_add]
    rw [hhead] at hkept
    exact ⟨hbefore, hafter, hkept⟩
  · have hnothing := m.rolled_intervene a
    rw [hnone] at hnothing
    exact hnothing.eq_after

/-- A roll for a register that does not exist, a reset, and a roll for one that does. -/
def rolling : List Intervention :=
  [.execute (.random 16 0xFF), .ask .reset, .execute (.random 3 0x0F)]

/-- It makes two rolls, one on each side of the reset. -/
theorem rolls_rolling (m : Machine) :
    m.rolls rolling =
      [⟨m, (m.execute (.random 16 0xFF)).machine, 16, 0xFF⟩,
        ⟨(m.execute (.random 16 0xFF)).machine.reset.machine, m.through rolling, 3, 0x0F⟩] := rfl

/-- A generator that counts, from the seed on. -/
def counting : Generator :=
  fun seed k => seed.toUInt8 + UInt8.ofNat k

/-- The refused roll has taken the first byte, and the reset has not put it back. So the next one
takes the byte `0x18`. -/
theorem one_byte_per_roll_rolling :
    let m := (withSeed counting .standard 0x17).through rolling
    m.random = (ByteStream.ofSeed counting 0x17).after 2 ∧ m.registers.get? 3 = .ok 0x08 := by
  intro m
  obtain ⟨hplace, hbytes, -, -⟩ := one_byte_per_roll counting .standard 0x17 rolling
  rw [rolls_rolling] at hplace hbytes
  obtain ⟨-, -, hkept⟩ := hbytes 1 _ rfl
  exact ⟨hplace, hkept (by decide)⟩

end Machine

end Chip8
