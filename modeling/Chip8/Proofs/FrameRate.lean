import Chip8.Proofs.Schedule
import Mathlib.Algebra.GroupWithZero.Nat

/-!
# Independence of the frame rate

Somebody who lets time go by in many short slices gets the same machine as somebody who
lets it go by in a few long ones, as long as the program does not look at the delay timer.
There are two reasons. The pacer keeps what a slice leaves over, so that the number of
cycles depends on the time alone. And where the ticks fall between the cycles is seen by
nothing but the instruction that reads the delay timer: a machine without its timers and
its pacer (`Machine.timeless`) takes the same course under any interleaving.

## Main statements

* `Machine.effect?_timeless`: an instruction that does not read the delay timer does the
  same at any time.
* `Machine.timeless_rounds`: so the rounds of a slice are as good as its cycles alone.
* `Machine.RunThrough.timeless`: the cycles of several slices are those of their sum.
* `Machine.frame_rate_independence`: the two runs.
-/

namespace Chip8

/-! ### Counts that fit -/

namespace Pacer

/-- Less than a beat is left over of both rates, as it is of every pacer that was started
or advanced. -/
structure Settled (p : Pacer) : Prop where
  cycles : p.cycles.remainder < nanosPerSecond
  ticks : p.ticks.remainder < nanosPerSecond

/-- The cycles and ticks that a slice is worth, and their product, are counted in 64 bits.
-/
structure Fits (p : Pacer) (nanos : Nat) : Prop where
  cycles : p.cycles.beats nanos < countRange
  ticks : p.ticks.beats nanos < countRange
  product : p.cycles.beats nanos * p.ticks.beats nanos < countRange

/-- A pacer that has just been started has nothing left over. -/
theorem settled_start (cycleRate tickRate : Nat) : (start cycleRate tickRate).Settled :=
  ⟨Nat.succ_pos _, Nat.succ_pos _⟩

/-- After a slice less than a beat of each rate is left over. -/
theorem settled_advance (p : Pacer) (nanos : Nat) : (p.advance nanos).Settled :=
  ⟨p.cycles.remainder_advance_lt nanos, p.ticks.remainder_advance_lt nanos⟩

/-- The cycles that are reported for such a slice are those that it is worth, not reduced. -/
theorem Fits.due_cycles {p : Pacer} {nanos : Nat} (h : p.Fits nanos) :
    (p.due nanos).cycles = p.cycles.beats nanos :=
  Nat.mod_eq_of_lt h.cycles

/-- For the pacer, two slices in a row are one of their total length. -/
theorem advance_add (p : Pacer) (a b : Nat) : p.advance (a + b) = (p.advance a).advance b := by
  rw [advance, Metronome.advance_add, Metronome.advance_add]
  rfl

/-- A slice of no length takes nothing from it. -/
theorem Settled.advance_zero {p : Pacer} (h : p.Settled) : p.advance 0 = p := by
  rw [advance, Metronome.advance_zero h.cycles, Metronome.advance_zero h.ticks]

end Pacer

namespace Machine

variable {m n : Machine} {i : Instruction} {due : Due}

/-! ### Machines without time -/

/-- The machine with nothing on its timers and with a pacer that stands still. -/
def timeless (m : Machine) : Machine :=
  { m with delay := .zero, sound := .zero, pacer := ⟨⟨0, 0⟩, ⟨0, 0⟩⟩ }

/-- Machines that differ in time alone have the same of everything else. -/
theorem eq_of_timeless (h : m.timeless = n.timeless) :
    n = { m with delay := n.delay, sound := n.sound, pacer := n.pacer } := by
  obtain ⟨memory, registers, grid, keypad, delay, sound, state, fault, pacer, random,
    program⟩ := m
  obtain ⟨memory', registers', grid', keypad', delay', sound', state', fault', pacer',
    random', program'⟩ := n
  simp only [timeless, Machine.mk.injEq] at h
  obtain ⟨rfl, rfl, rfl, rfl, -, -, rfl, rfl, -, rfl, rfl⟩ := h
  rfl

/-- Ticks do not show on a machine without time. -/
@[simp] theorem timeless_afterAll_ticks (m : Machine) (k : Nat) :
    (m.afterAll (.replicate k .tick)).timeless = m.timeless := by
  rw [afterAll_ticks_eq]
  rfl

/-! ### Instructions -/

/-- An instruction that does not read the delay timer does the same at any time. -/
theorem effect?_timeless (h : m.timeless = n.timeless) (hi : ∀ x, i ≠ .readDelay x) :
    (n.effect? i).map timeless = (m.effect? i).map timeless := by
  rw [eq_of_timeless h]
  generalize n.delay = delay
  generalize n.sound = sound
  generalize n.pacer = pacer
  cases i with
  | readDelay x => exact absurd rfl (hi x)
  | skipIf c =>
    -- no condition asks about a timer
    have hholds : { m with delay, sound, pacer }.holds? c = m.holds? c := by cases c <;> rfl
    simp only [effect?, hholds, map_bind]
    rfl
  | _ =>
    simp only [effect?, map_bind]
    rfl

/-! ### Cycles -/

/-- A running machine whose cycle does not read the delay timer makes the same cycle at any
time. -/
theorem cycle_timeless (h : m.timeless = n.timeless) (hrun : m.state = .running)
    {state : RunState} (hresult : m.cycle.result = .ok state)
    (hblind : ∀ x, m.executed? ≠ some (.readDelay x)) :
    n.cycle.result = .ok state ∧ n.cycle.machine.timeless = m.cycle.machine.timeless := by
  obtain ⟨i, hi⟩ := exists_executed hrun hresult
  obtain ⟨-, ⟨w, hfetch⟩, -⟩ := executed?_eq_some_iff.1 hi
  obtain ⟨heffect, hstate⟩ := effect?_of_executed hi
  have hne : ∀ x, i ≠ .readDelay x := fun x hx => hblind x (hx ▸ hi)
  have hrun' : n.state = .running := by rwa [eq_of_timeless h]
  have hfetch' : n.fetch? = .ok (w, i) := by rwa [eq_of_timeless h]
  have hmap := effect?_timeless h hne
  rw [heffect] at hmap
  cases heffect' : n.effect? i with
  | error f =>
    rw [heffect'] at hmap
    cases hmap
  | ok n' =>
    rw [heffect'] at hmap
    have htimeless : n'.timeless = m.cycle.machine.timeless := Except.ok.inj hmap
    have hstate' : n'.timeless.state = m.cycle.machine.timeless.state :=
      congrArg Machine.state htimeless
    rw [cycle_of_fetch hrun' hfetch', heffect']
    rw [hresult] at hstate
    exact ⟨(congrArg Except.ok hstate').trans hstate.symm, htimeless⟩

/-- Rounds that do not read the delay timer are as good as their cycles alone. -/
theorem timeless_rounds (h : m.timeless = n.timeless) (hrun : m.state = .running) {j : Nat}
    (hcycles : ∀ k < j, (m.afterAll (due.rounds k)).cycle.result = .ok .running)
    (hblind : ∀ k < j, ∀ x, (m.afterAll (due.rounds k)).executed? ≠ some (.readDelay x)) :
    (n.afterAll (.replicate j .cycle)).timeless = (m.afterAll (due.rounds j)).timeless := by
  induction j with
  | zero => exact h.symm
  | succ j ih =>
    have hbefore : ∀ k < j, (m.afterAll (due.rounds k)).cycle.result = .ok .running :=
      fun k hk => hcycles k (Nat.lt_succ_of_lt hk)
    -- both sides have made `j` cycles, one of them with ticks in between
    have hsame := ih hbefore fun k hk => hblind k (Nat.lt_succ_of_lt hk)
    obtain ⟨-, hcycle⟩ := cycle_timeless hsame.symm (state_afterAll_rounds hrun hbefore)
      (hcycles j (Nat.lt_succ_self j)) (hblind j (Nat.lt_succ_self j))
    rw [Due.rounds, List.replicate_succ', afterAll_append, afterAll_append, afterAll_cons,
      afterAll_cons, timeless_afterAll_ticks]
    exact hcycle

/-! ### Slices in a row -/

/-- The machine runs on through a slice of time, and no cycle of it reads the delay timer.
-/
structure RunsBlindly (m : Machine) (nanos : Nat) : Prop where
  fits : m.pacer.Fits nanos
  running : (m.advance nanos).result = .ok .running
  blind : ∀ k < (m.pacer.due nanos).cycles, ∀ x,
    ((m.paced nanos).afterAll ((m.pacer.due nanos).rounds k)).executed? ≠
      some (.readDelay x)

/-- So it does through several slices in a row. -/
def RunThrough : Machine → List Nat → Prop
  | _, [] => True
  | m, nanos :: rest => m.RunsBlindly nanos ∧ (m.advance nanos).machine.RunThrough rest

/-- After a slice of time the machine still runs, its pacer has taken the time, and it has
made the cycles that the slice is worth. -/
theorem RunsBlindly.timeless {nanos : Nat} (hslice : m.RunsBlindly nanos)
    (h : m.timeless = n.timeless) (hrun : m.state = .running) :
    (m.advance nanos).machine.state = .running ∧
      (m.advance nanos).machine.pacer = m.pacer.advance nanos ∧
      (n.afterAll (.replicate (m.pacer.cycles.beats nanos) .cycle)).timeless =
        (m.advance nanos).machine.timeless := by
  obtain ⟨hcycles, hmachine⟩ := advance_running hslice.running
  have hrun' : (m.paced nanos).state = .running := hrun
  have hpaced : (m.paced nanos).timeless = n.timeless := h
  have hpacer : ((m.paced nanos).afterAll (m.pacer.due nanos).schedule).pacer =
      m.pacer.advance nanos :=
    afterAll_schedule_preserves (P := fun m' => m'.pacer = m.pacer.advance nanos)
      (fun m' h => m'.pacer_cycle.trans h) (fun m' h => m'.pacer_tick.trans h) rfl
  rw [hmachine, ← hslice.fits.due_cycles]
  refine ⟨?_, hpacer, ?_⟩
  · rw [state_afterAll_schedule]
    exact state_afterAll_rounds hrun' hcycles
  · rw [Due.schedule, afterAll_append, timeless_afterAll_ticks]
    exact timeless_rounds hpaced hrun' hcycles hslice.blind

/-- Slices in a row are one: the cycles that have been made in them and the state of the
pacer depend on their total length alone. -/
theorem RunThrough.timeless {slices : List Nat} (hslices : m.RunThrough slices)
    (h : m.timeless = n.timeless) (hrun : m.state = .running) (hsettled : m.pacer.Settled) :
    (m.afterAll (slices.map .advance)).pacer = m.pacer.advance slices.sum ∧
      (n.afterAll (.replicate (m.pacer.cycles.beats slices.sum) .cycle)).timeless =
        (m.afterAll (slices.map .advance)).timeless := by
  induction slices generalizing m n with
  | nil =>
    rw [List.sum_nil, hsettled.advance_zero, Metronome.beats_zero hsettled.cycles]
    exact ⟨rfl, h.symm⟩
  | cons nanos rest ih =>
    obtain ⟨hslice, hrest⟩ := hslices
    obtain ⟨hrun', hpacer, htimeless⟩ := hslice.timeless h hrun
    have hsettled' : (m.advance nanos).machine.pacer.Settled :=
      hpacer ▸ m.pacer.settled_advance nanos
    -- the cycles of the rest go on where those of the first slice have ended
    obtain ⟨hpacer', htimeless'⟩ := ih hrest htimeless.symm hrun' hsettled'
    rw [hpacer] at hpacer' htimeless'
    have hcycles : m.pacer.cycles.beats (nanos + rest.sum) =
        m.pacer.cycles.beats nanos + (m.pacer.advance nanos).cycles.beats rest.sum :=
      m.pacer.cycles.beats_add nanos rest.sum
    rw [List.sum_cons, Pacer.advance_add, hcycles, List.replicate_add, afterAll_append]
    exact ⟨hpacer', htimeless'⟩

/-- Two ways to let the same time go by lead to machines that differ in their timers alone,
if no cycle in them reads the delay timer. -/
theorem frame_rate_independence {slices slices' : List Nat} (hrun : m.state = .running)
    (hsettled : m.pacer.Settled) (h : m.RunThrough slices) (h' : m.RunThrough slices')
    (hsum : slices.sum = slices'.sum) :
    let final := m.afterAll (slices.map .advance)
    let final' := m.afterAll (slices'.map .advance)
    final' = { final with delay := final'.delay, sound := final'.sound } := by
  intro final final'
  obtain ⟨hpacer, htimeless⟩ := h.timeless rfl hrun hsettled
  obtain ⟨hpacer', htimeless'⟩ := h'.timeless rfl hrun hsettled
  rw [hsum] at hpacer htimeless
  have hsame : final.timeless = final'.timeless := htimeless.symm.trans htimeless'
  have hclock : final'.pacer = final.pacer := hpacer'.trans hpacer.symm
  rw [← hclock]
  exact eq_of_timeless hsame

/-! ### Slices of a machine that idles -/

/-- A machine that idles reads no timer. -/
theorem Idles.runsBlindly (h : m.Idles) (hquit : m.keypad.quit = false) {nanos : Nat}
    (hfits : m.pacer.Fits nanos) : m.RunsBlindly nanos where
  fits := hfits
  running := by
    rw [advance_of_running hquit fun n _ => ((h.paced nanos).rounds _ n).cycle.1, h.state]
    exact congrArg Except.ok (ite_self _)
  blind k _ x hread := by
    have hidles := (h.paced nanos).rounds (m.pacer.due nanos) k
    have hjump := executed?_eq_some_iff.2 ⟨hidles.state, ⟨_, hidles.fetch⟩, _, hidles.cycle.1⟩
    cases hjump.symm.trans hread

/-- A slice of idling leaves everything as it was, but for the timers and the pacer. -/
theorem Idles.advance (h : m.Idles) {nanos : Nat} (hslice : m.RunsBlindly nanos) :
    (m.advance nanos).machine.Idles ∧
      (m.advance nanos).machine.keypad = m.keypad := by
  rw [(advance_running hslice.running).2]
  refine afterAll_schedule_preserves (P := fun m' => m'.Idles ∧ m'.keypad = m.keypad) ?_ ?_
    ⟨h.paced nanos, rfl⟩
  · rintro m' ⟨hidles, hkeypad⟩
    rw [hidles.cycle.2]
    exact ⟨hidles, hkeypad⟩
  · rintro m' ⟨hidles, hkeypad⟩
    refine ⟨hidles.tick, ?_⟩
    rw [Machine.tick, if_pos hidles.state]
    exact hkeypad

/-- A second, and the same second in two halves, of which the first is worth one cycle and
two of the five ticks. -/
theorem frame_rate_independence_idling :
    let final := idling.afterAll ([nanosPerSecond].map .advance)
    let final' := idling.afterAll ([nanosPerSecond / 2, nanosPerSecond / 2].map .advance)
    final' = { final with delay := final'.delay, sound := final'.sound } := by
  have hquit : idling.keypad.quit = false := rfl
  have hwhole : idling.RunsBlindly nanosPerSecond :=
    idles_idling.runsBlindly hquit ⟨by decide, by decide, by decide⟩
  have hfirst : idling.RunsBlindly (nanosPerSecond / 2) :=
    idles_idling.runsBlindly hquit ⟨by decide, by decide, by decide⟩
  obtain ⟨hidles, hkeypad⟩ := idles_idling.advance hfirst
  obtain ⟨-, hpacer, -⟩ := hfirst.timeless rfl idles_idling.state
  have hsecond : (idling.advance (nanosPerSecond / 2)).machine.RunsBlindly
      (nanosPerSecond / 2) := by
    refine hidles.runsBlindly ((congrArg Keypad.quit hkeypad).trans hquit) ?_
    rw [hpacer]
    exact ⟨by decide, by decide, by decide⟩
  exact frame_rate_independence idles_idling.state (Pacer.settled_start 2 5)
    ⟨hwhole, trivial⟩ ⟨hfirst, hsecond, trivial⟩ (by decide)

end Machine

end Chip8
