import Chip8.Proofs.Run
import Mathlib.Algebra.Group.Nat.Defs
import Mathlib.Data.Nat.Find

/-!
# The schedule of a slice of time

A slice of time is worth some cycles and some ticks, and the ticks are spread evenly over
the cycles. The schedule of a slice is that interleaving, written down as a list of
operations: one *round* for each cycle, which is the cycle and the ticks that have fallen
due by then, and after the rounds the ticks that are still missing. `Machine.advance` makes
them one after the other, in a loop that keeps no list and that ends early when a cycle fails
or stops the machine. This module shows that it makes exactly the operations of the schedule,
up to the cycle that ends it.

The loop reckons in 64 bits. As long as the product of the cycles and the ticks of the slice
can be counted, what is owed is the share of the ticks that is to be made by then, and after
the rounds no tick is missing.

## Main statements

* `Due.countP_isTick_rounds`: after `n` of `C` rounds, `T * n / C` of the `T` ticks have
  been made, if `C * T` can be counted.
* `Machine.slice_of_running`: the loop has made the rounds that it has left behind.
* `Machine.advance_of_running`, `Machine.advance_of_stop`: a slice that is made as a whole,
  and one that ends with a cycle.
* `Machine.advance_follows_schedule`: both together, with the request to quit.
-/

namespace Chip8

namespace Due

/-- The first `n` rounds of a slice. A round is one cycle, and then as many ticks as bring
the ticks of the slice up to those that are owed. -/
def rounds (due : Due) : Nat → List Operation
  | 0 => []
  | n + 1 =>
    due.rounds n ++ .cycle ::
      .replicate (due.owed (n + 1) - (due.rounds n).countP Operation.isTick) .tick

/-- What a slice is worth, in order: a round for each cycle, and the ticks that are missing
after them. A slice that is not worth a cycle is ticks alone. -/
def schedule (due : Due) : List Operation :=
  due.rounds due.cycles ++
    .replicate (due.ticks - (due.rounds due.cycles).countP Operation.isTick) .tick

variable {due : Due} {n : Nat}

/-! ### Counting -/

/-- A round is one cycle. -/
theorem countP_isCycle_rounds (due : Due) (n : Nat) :
    (due.rounds n).countP Operation.isCycle = n := by
  induction n with
  | zero => rfl
  | succ n ih =>
    simp only [rounds, List.countP_append, List.countP_cons, List.countP_replicate, ih,
      Operation.isCycle, if_true, Bool.false_eq_true, if_false, Nat.zero_add]

/-- A round brings the ticks up to those that are owed. -/
theorem countP_isTick_rounds_succ (due : Due) (n : Nat) :
    (due.rounds (n + 1)).countP Operation.isTick =
      max ((due.rounds n).countP Operation.isTick) (due.owed (n + 1)) := by
  simp only [rounds, List.countP_append, List.countP_cons, List.countP_replicate,
    Operation.isTick, if_true, Bool.false_eq_true, if_false, Nat.add_zero]
  omega

/-- No more ticks are owed than the slice has. -/
theorem owed_le (hn : n ≤ due.cycles) : due.owed n ≤ due.ticks := by
  refine Nat.div_le_of_le_mul ?_
  calc due.ticks * n % Pacer.countRange ≤ due.ticks * n := Nat.mod_le _ _
    _ ≤ due.ticks * due.cycles := Nat.mul_le_mul_left _ hn
    _ = due.cycles * due.ticks := Nat.mul_comm _ _

/-- The rounds of a slice never make more ticks than it is worth. -/
theorem countP_isTick_rounds_le (hn : n ≤ due.cycles) :
    (due.rounds n).countP Operation.isTick ≤ due.ticks := by
  induction n with
  | zero => exact Nat.zero_le _
  | succ n ih =>
    rw [countP_isTick_rounds_succ]
    exact Nat.max_le.2 ⟨ih (Nat.le_of_succ_le hn), owed_le hn⟩

/-- If the product can be counted, what is owed is the even share. -/
theorem owed_eq (hfits : due.cycles * due.ticks < 2 ^ 64) (hn : n ≤ due.cycles) :
    due.owed n = due.ticks * n / due.cycles := by
  have hcounted : due.ticks * n < Pacer.countRange :=
    calc due.ticks * n ≤ due.ticks * due.cycles := Nat.mul_le_mul_left _ hn
      _ = due.cycles * due.ticks := Nat.mul_comm _ _
      _ < 2 ^ 64 := hfits
  rw [owed, Nat.mod_eq_of_lt hcounted]

/-- The ticks are spread evenly. -/
theorem countP_isTick_rounds (hfits : due.cycles * due.ticks < 2 ^ 64) (hn : n ≤ due.cycles) :
    (due.rounds n).countP Operation.isTick = due.ticks * n / due.cycles := by
  induction n with
  | zero => simp [rounds]
  | succ n ih =>
    have hmono : due.ticks * n / due.cycles ≤ due.ticks * (n + 1) / due.cycles :=
      Nat.div_le_div_right (Nat.mul_le_mul_left _ (Nat.le_succ n))
    rw [countP_isTick_rounds_succ, ih (Nat.le_of_succ_le hn), owed_eq hfits hn,
      Nat.max_eq_right hmono]

/-- The schedule has a cycle for each that the slice is worth. -/
theorem countP_isCycle_schedule (due : Due) :
    due.schedule.countP Operation.isCycle = due.cycles := by
  rw [schedule, List.countP_append, countP_isCycle_rounds, List.countP_replicate]
  rfl

/-- In the end all ticks have been made, because the last of them are made up for. -/
theorem countP_isTick_schedule (due : Due) :
    due.schedule.countP Operation.isTick = due.ticks := by
  have hmade : (due.rounds due.cycles).countP Operation.isTick ≤ due.ticks :=
    countP_isTick_rounds_le (Nat.le_refl _)
  simp only [schedule, List.countP_append, List.countP_replicate, Operation.isTick, if_true]
  omega

/-- If the product can be counted, no tick is missing after the rounds. -/
theorem schedule_eq_rounds (hfits : due.cycles * due.ticks < 2 ^ 64) (hcycles : due.cycles ≠ 0) :
    due.schedule = due.rounds due.cycles := by
  rw [schedule, countP_isTick_rounds hfits (Nat.le_refl _),
    Nat.mul_div_cancel _ (Nat.pos_of_ne_zero hcycles), Nat.sub_self]
  exact List.append_nil _

/-- A slice without a cycle is its ticks. -/
theorem schedule_of_no_cycle (hcycles : due.cycles = 0) :
    due.schedule = .replicate due.ticks .tick := by
  rw [schedule, hcycles]
  rfl

/-! ### Beginnings -/

/-- Fewer rounds are a beginning of more rounds. -/
theorem rounds_prefix (due : Due) {n n' : Nat} (h : n ≤ n') :
    due.rounds n <+: due.rounds n' := by
  induction h with
  | refl => exact List.prefix_rfl
  | step _ ih => exact ih.trans (List.prefix_append _ _)

/-- A slice that is worth a cycle begins with one. -/
theorem cycle_prefix_rounds (due : Due) (hn : n ≠ 0) : [.cycle] <+: due.rounds n := by
  have hfirst : [.cycle] <+: due.rounds 1 := List.prefix_append [Operation.cycle] _
  exact hfirst.trans (due.rounds_prefix (Nat.one_le_iff_ne_zero.2 hn))

/-- The rounds of a slice are the beginning of its schedule. -/
theorem rounds_prefix_schedule (hn : n ≤ due.cycles) : due.rounds n <+: due.schedule :=
  (due.rounds_prefix hn).trans (List.prefix_append _ _)

end Due

namespace Machine

variable {m : Machine} {due : Due} {n : Nat}

section Preserves

variable {P : Machine → Prop}

/-- What one tick preserves, several preserve. -/
theorem afterAll_ticks_preserves (htick : ∀ m, P m → P m.tick) (k : Nat) (h : P m) :
    P (m.afterAll (.replicate k .tick)) := by
  induction k generalizing m with
  | zero => exact h
  | succ k ih => exact ih (htick _ h)

/-- What cycles and ticks preserve, rounds preserve. -/
theorem afterAll_rounds_preserves (hcycle : ∀ m, P m → P m.cycle.machine)
    (htick : ∀ m, P m → P m.tick) (n : Nat) (h : P m) : P (m.afterAll (due.rounds n)) := by
  induction n with
  | zero => exact h
  | succ n ih =>
    rw [Due.rounds, afterAll_append]
    exact afterAll_ticks_preserves htick _ (hcycle _ ih)

/-- What cycles and ticks preserve, a schedule preserves. -/
theorem afterAll_schedule_preserves (hcycle : ∀ m, P m → P m.cycle.machine)
    (htick : ∀ m, P m → P m.tick) (h : P m) : P (m.afterAll due.schedule) := by
  rw [Due.schedule, afterAll_append]
  exact afterAll_ticks_preserves htick _ (afterAll_rounds_preserves hcycle htick _ h)

end Preserves

/-- However many ticks there are, they move the timers alone. -/
theorem afterAll_ticks_eq (m : Machine) (k : Nat) :
    m.afterAll (.replicate k .tick) =
      { m with
        delay := (m.afterAll (.replicate k .tick)).delay
        sound := (m.afterAll (.replicate k .tick)).sound } :=
  afterAll_ticks_preserves (P := fun n => n = { m with delay := n.delay, sound := n.sound })
    (fun n h => n.tick_eq.trans
      (congrArg (fun l => { l with delay := n.tick.delay, sound := n.tick.sound }) h)) k rfl

/-! ### States -/

/-- The result of a cycle that succeeds is the state of the machine afterwards. -/
theorem state_of_cycle {state : RunState} (h : m.cycle.result = .ok state) :
    m.cycle.machine.state = state := by
  cases m.cycleTurn with
  | executes hi =>
    rw [(effect?_of_executed hi).2] at h
    exact Except.ok.inj h
  | fails hresult =>
    rw [hresult] at h
    cases h
  | stays hcycle =>
    rw [hcycle] at h ⊢
    exact Except.ok.inj h
  | takes _ hcycle =>
    rw [hcycle] at h ⊢
    exact Except.ok.inj h
  | loses hcycle =>
    rw [hcycle] at h
    cases h

/-- A tick does not stop the machine and does not wake it. -/
@[simp] theorem state_tick (m : Machine) : m.tick.state = m.state := by
  rw [tick_eq]

/-- Neither do several. -/
@[simp] theorem state_afterAll_ticks (m : Machine) (k : Nat) :
    (m.afterAll (.replicate k .tick)).state = m.state := by
  rw [afterAll_ticks_eq]

/-- Rounds whose cycles leave the machine running leave it running. -/
theorem state_afterAll_rounds (hrun : m.state = .running) {j : Nat}
    (hcycles : ∀ k < j, (m.afterAll (due.rounds k)).cycle.result = .ok .running) :
    (m.afterAll (due.rounds j)).state = .running := by
  cases j with
  | zero => exact hrun
  | succ j =>
    rw [Due.rounds, afterAll_append, afterAll_cons, state_afterAll_ticks]
    exact state_of_cycle (hcycles j (Nat.lt_succ_self j))

/-- The ticks after the last round change no state. -/
theorem state_afterAll_schedule (m : Machine) (due : Due) :
    (m.afterAll due.schedule).state = (m.afterAll (due.rounds due.cycles)).state := by
  rw [Due.schedule, afterAll_append, state_afterAll_ticks]

/-- Ticks of a machine that does not run are ignored. -/
theorem tick_of_not_running (h : m.state ≠ .running) : m.tick = m :=
  if_neg h

/-- So are several ticks, and they report nothing. -/
theorem ticks_of_not_running (h : m.state ≠ .running) (k : Nat) (log : Log) :
    ticks k m log = (m, log) := by
  induction k with
  | zero => rfl
  | succ k ih =>
    have hlog : m.tickLog = #[] := if_neg fun hboth => h hboth.1
    rw [ticks, tick_of_not_running h, hlog, Array.append_empty, ih]

/-! ### The loop -/

/-- A cycle that leaves the machine running is followed by the ticks that are missing by then, and
by the rest of the loop. -/
theorem slice_succ_of_running {left ticked : Nat} {log : Log}
    (hrun : m.cycle.result = .ok .running) :
    slice due (left + 1) ticked m log =
      slice due left (max ticked (due.owed (due.cycles - left)))
        (m.cycle.machine.afterAll (.replicate (due.owed (due.cycles - left) - ticked) .tick))
        (log ++ m.cycle.log ++
          m.cycle.machine.reports (.replicate (due.owed (due.cycles - left) - ticked) .tick)) := by
  rw [slice]
  simp only [hrun, tickUntil_eq, ticks_eq, if_true]

/-- The loop ends with a cycle that fails, or after which the machine does not run. -/
theorem slice_of_stop {left ticked : Nat} {log : Log}
    (hstop : m.cycle.result ≠ .ok .running) :
    slice due (left + 1) ticked m log =
      ⟨m.cycle.result, m.cycle.machine, log ++ m.cycle.log⟩ := by
  rw [slice]
  cases hresult : m.cycle.result with
  | error f => rfl
  | ok state =>
    have hstate : state ≠ .running := fun h => hstop (h ▸ hresult)
    -- the loop still makes the ticks of this round, but they are ignored
    have hhalt : m.cycle.machine.state ≠ .running := by
      rw [state_of_cycle hresult]
      exact hstate
    simp only [tickUntil_eq, ticks_of_not_running hhalt, if_neg hstate]

/-- As long as each cycle leaves the machine running, the loop makes rounds: what it has
still to do after `n` of them, it does on the machine after `n` of them. -/
theorem slice_of_running (hn : n ≤ due.cycles)
    (hrun : ∀ k < n, (m.afterAll (due.rounds k)).cycle.result = .ok .running) :
    runDue due m =
      slice due (due.cycles - n) ((due.rounds n).countP Operation.isTick)
        (m.afterAll (due.rounds n)) (m.reports (due.rounds n)) := by
  induction n with
  | zero => rfl
  | succ n ih =>
    -- the loop counts what is left, so its round is the one with number `due.cycles - left`
    have hleft : due.cycles - n = due.cycles - (n + 1) + 1 := by omega
    have hround : due.cycles - (due.cycles - (n + 1)) = n + 1 := by omega
    rw [ih (Nat.le_of_succ_le hn) fun k hk => hrun k (Nat.lt_succ_of_lt hk), hleft,
      slice_succ_of_running (hrun n (Nat.lt_succ_self n)), hround, Due.countP_isTick_rounds_succ,
      Due.rounds, afterAll_append, reports_append, afterAll_cons, reports, ← Array.append_assoc]
    rfl

/-- A loop in which each cycle leaves the machine running makes the whole schedule. -/
theorem runDue_of_running
    (hrun : ∀ k < due.cycles, (m.afterAll (due.rounds k)).cycle.result = .ok .running) :
    runDue due m =
      ⟨.ok (m.afterAll due.schedule).state, m.afterAll due.schedule,
        m.reports due.schedule⟩ := by
  rw [slice_of_running (Nat.le_refl _) hrun, Nat.sub_self, slice, ticks_eq, Due.schedule,
    afterAll_append, reports_append]

/-- Either every cycle of a slice leaves the machine running, or there is a first one that
does not. -/
theorem running_or_stop (m : Machine) (due : Due) :
    (∀ n < due.cycles, (m.afterAll (due.rounds n)).cycle.result = .ok .running) ∨
      ∃ n < due.cycles, (∀ k < n, (m.afterAll (due.rounds k)).cycle.result = .ok .running) ∧
        (m.afterAll (due.rounds n)).cycle.result ≠ .ok .running := by
  classical
  by_cases hrun : ∀ n < due.cycles, (m.afterAll (due.rounds n)).cycle.result = .ok .running
  · exact .inl hrun
  · -- the first of the cycles that do not leave it running
    simp only [not_forall, exists_prop] at hrun
    obtain ⟨hn, hstop⟩ := Nat.find_spec hrun
    refine .inr ⟨_, hn, fun k hk => ?_, hstop⟩
    exact not_not.1 fun hne => Nat.find_min hrun hk ⟨Nat.lt_trans hk hn, hne⟩

/-! ### Slices -/

section Advance

variable {nanos : Nat}

/-- The machine when its pacer has taken a slice of time, before anything else. -/
def paced (m : Machine) (nanos : Nat) : Machine :=
  { m with pacer := m.pacer.advance nanos }

/-- A slice that sees the request to quit halts the machine and makes nothing else. -/
theorem advance_of_quit (hquit : m.keypad.quit = true) (nanos : Nat) :
    m.advance nanos = ⟨.ok .halted, m.halt, #[.quitting] ++ m.haltLog⟩ :=
  if_pos hquit

/-- Any other slice takes its time from the pacer and makes what it is worth. -/
theorem advance_of_not_quit (hquit : m.keypad.quit = false) :
    m.advance nanos = runDue (m.pacer.due nanos) (m.paced nanos) :=
  if_neg (ne_true_of_eq_false hquit)

/-- A slice in which every cycle leaves the machine running is made as a whole. -/
theorem advance_of_running (hquit : m.keypad.quit = false)
    (hrun : ∀ n < (m.pacer.due nanos).cycles,
      ((m.paced nanos).afterAll ((m.pacer.due nanos).rounds n)).cycle.result = .ok .running) :
    m.advance nanos =
      ⟨.ok (if (m.pacer.due nanos).cycles = 0 then m.state else .running),
        (m.paced nanos).afterAll (m.pacer.due nanos).schedule,
        (m.paced nanos).reports (m.pacer.due nanos).schedule⟩ := by
  rw [advance_of_not_quit hquit, runDue_of_running hrun]
  refine congrArg (Outcome.mk · _ _) (congrArg Except.ok ?_)
  rw [state_afterAll_schedule]
  split
  · next hcycles =>
    rw [hcycles]
    rfl
  · next hcycles =>
    obtain ⟨n, hn⟩ := Nat.exists_eq_succ_of_ne_zero hcycles
    have hlast : n < (m.pacer.due nanos).cycles := by omega
    rw [hn, Due.rounds, afterAll_append, afterAll_cons, state_afterAll_ticks]
    exact state_of_cycle (hrun n hlast)

/-- A slice with a cycle that fails, or after which the machine does not run, ends with
that cycle. -/
theorem advance_of_stop (hquit : m.keypad.quit = false) (hn : n < (m.pacer.due nanos).cycles)
    (hrun : ∀ k < n,
      ((m.paced nanos).afterAll ((m.pacer.due nanos).rounds k)).cycle.result = .ok .running)
    (hstop :
      ((m.paced nanos).afterAll ((m.pacer.due nanos).rounds n)).cycle.result ≠ .ok .running) :
    m.advance nanos =
      ⟨((m.paced nanos).afterAll ((m.pacer.due nanos).rounds n)).cycle.result,
        (m.paced nanos).afterAll ((m.pacer.due nanos).rounds n ++ [.cycle]),
        (m.paced nanos).reports ((m.pacer.due nanos).rounds n ++ [.cycle])⟩ := by
  have hleft : (m.pacer.due nanos).cycles - n = (m.pacer.due nanos).cycles - (n + 1) + 1 := by
    omega
  rw [advance_of_not_quit hquit, slice_of_running (Nat.le_of_lt hn) hrun, hleft,
    slice_of_stop hstop, afterAll_append, reports_append]
  rfl

/-- A machine that does not run, and whose cycles do nothing, lets time go by. -/
theorem advance_of_still (hquit : m.keypad.quit = false) (hstate : m.state ≠ .running)
    (hcycle : (m.pacer.due nanos).cycles ≠ 0 →
      (m.paced nanos).cycle = ⟨.ok m.state, m.paced nanos, #[]⟩) :
    m.advance nanos = ⟨.ok m.state, m.paced nanos, #[]⟩ := by
  by_cases hcycles : (m.pacer.due nanos).cycles = 0
  · have hstill : (m.paced nanos).state ≠ .running := hstate
    rw [advance_of_not_quit hquit, runDue, hcycles, slice, ticks_of_not_running hstill]
    rfl
  · -- the first cycle ends the slice
    have hbefore : ∀ k < 0, ((m.paced nanos).afterAll
        ((m.pacer.due nanos).rounds k)).cycle.result = .ok .running :=
      fun k hk => absurd hk k.not_lt_zero
    have hstop := advance_of_stop hquit (Nat.pos_of_ne_zero hcycles) hbefore (by
      change (m.paced nanos).cycle.result ≠ _
      rw [hcycle hcycles]
      exact fun h => hstate (Except.ok.inj h))
    rw [hstop]
    change (⟨(m.paced nanos).cycle.result, (m.paced nanos).cycle.machine,
      (m.paced nanos).cycle.log ++ #[]⟩ : Outcome RunState) = _
    rw [hcycle hcycles]
    rfl

/-- A slice that leaves the machine running was made as a whole. -/
theorem advance_running (h : (m.advance nanos).result = .ok .running) :
    (∀ n < (m.pacer.due nanos).cycles,
        ((m.paced nanos).afterAll ((m.pacer.due nanos).rounds n)).cycle.result =
          .ok .running) ∧
      (m.advance nanos).machine = (m.paced nanos).afterAll (m.pacer.due nanos).schedule := by
  have hquit : m.keypad.quit = false := by
    rw [← Bool.not_eq_true]
    intro hquit
    rw [advance_of_quit hquit] at h
    cases h
  rcases (m.paced nanos).running_or_stop (m.pacer.due nanos) with
    hrun | ⟨n, hn, hbefore, hstop⟩
  · exact ⟨hrun, by rw [advance_of_running hquit hrun]⟩
  · rw [advance_of_stop hquit hn hbefore hstop] at h
    exact absurd h hstop

/-- Whatever happens in a slice, what is made of it is a beginning of its schedule, with at
least one cycle if it has one. -/
theorem exists_made (hquit : m.keypad.quit = false) (nanos : Nat) :
    ∃ made, made <+: (m.pacer.due nanos).schedule ∧
      ((m.pacer.due nanos).cycles ≠ 0 → [.cycle] <+: made) ∧
      (m.advance nanos).machine = (m.paced nanos).afterAll made := by
  rcases (m.paced nanos).running_or_stop (m.pacer.due nanos) with
    hrun | ⟨n, hn, hbefore, hstop⟩
  · refine ⟨_, List.prefix_rfl, fun hcycles => ?_, by rw [advance_of_running hquit hrun]⟩
    exact (Due.cycle_prefix_rounds _ hcycles).trans (Due.rounds_prefix_schedule (Nat.le_refl _))
  · have hround : (m.pacer.due nanos).rounds n ++ [.cycle] <+:
        (m.pacer.due nanos).rounds (n + 1) :=
      (List.prefix_append_right_inj _).2 (List.prefix_append [Operation.cycle] _)
    refine ⟨_, ?_, fun _ => ?_, by rw [advance_of_stop hquit hn hbefore hstop]⟩
    · exact hround.trans (Due.rounds_prefix_schedule hn)
    · cases n with
      | zero => exact List.prefix_rfl
      | succ n =>
        exact (Due.cycle_prefix_rounds _ n.succ_ne_zero).trans (List.prefix_append _ _)

/-! ### The cycles that are made -/

/-- The machines on which the last `left` cycles of a slice begin, when `ticked` ticks of it
have been made. -/
def cyclesInSlice (due : Due) : (left ticked : Nat) → Machine → List Machine
  | 0, _, _ => []
  | left + 1, ticked, m =>
    let owed := due.owed (due.cycles - left)
    m :: if m.cycle.result = .ok .running then
      cyclesInSlice due left (max ticked owed)
        (m.cycle.machine.afterAll (.replicate (owed - ticked) .tick))
    else []

/-- The machines on which the cycles of an operation begin. -/
def cyclesOf (m : Machine) : Operation → List Machine
  | .cycle => [m]
  | .advance nanos =>
    if m.keypad.quit then []
    else cyclesInSlice (m.pacer.due nanos) (m.pacer.due nanos).cycles 0 (m.paced nanos)
  | _ => []

/-! ### Ticks that count -/

/-- How many of the ticks among some operations are made while the machine runs, so that
they count its timers down. -/
def effectiveTicks : Machine → List Operation → Nat
  | _, [] => 0
  | m, o :: rest =>
    (if o.isTick ∧ m.state = .running then 1 else 0) + (m.after o).effectiveTicks rest

/-- The ticks that count in a run are those that count in its parts. -/
theorem effectiveTicks_append (m : Machine) (ops ops' : List Operation) :
    m.effectiveTicks (ops ++ ops') =
      m.effectiveTicks ops + (m.afterAll ops).effectiveTicks ops' := by
  induction ops generalizing m with
  | nil => simp [effectiveTicks]
  | cons o ops ih => simp [effectiveTicks, ih, Nat.add_assoc]

/-- While the machine runs, every tick counts. -/
theorem effectiveTicks_ticks (h : m.state = .running) (k : Nat) :
    m.effectiveTicks (.replicate k .tick) = k := by
  induction k generalizing m with
  | zero => rfl
  | succ k ih =>
    have htick : (m.after .tick).state = .running := m.state_tick.trans h
    rw [List.replicate_succ, effectiveTicks, ih htick, if_pos ⟨rfl, h⟩, Nat.add_comm]

/-- In rounds whose cycles leave the machine running, all ticks count. -/
theorem effectiveTicks_rounds
    (hrun : ∀ k < n, (m.afterAll (due.rounds k)).cycle.result = .ok .running) :
    m.effectiveTicks (due.rounds n) = (due.rounds n).countP Operation.isTick := by
  induction n with
  | zero => rfl
  | succ n ih =>
    have hcycle : ((m.afterAll (due.rounds n)).after .cycle).state = .running :=
      state_of_cycle (hrun n (Nat.lt_succ_self n))
    rw [Due.rounds, effectiveTicks_append, ih fun k hk => hrun k (Nat.lt_succ_of_lt hk),
      effectiveTicks, effectiveTicks_ticks hcycle]
    simp [Operation.isTick, List.countP_replicate]

end Advance

/-! ### A machine that idles -/

/-- The machine runs and is about to jump to where it is. -/
structure Idles (m : Machine) : Prop where
  fetch : m.fetch? = .ok (0x1200, .jump 0x200)
  pc : m.registers.pc = 0x200
  state : m.state = .running

/-- A cycle of a machine that idles leads back to the same machine. -/
theorem Idles.cycle (h : m.Idles) :
    m.cycle.result = .ok .running ∧ m.cycle.machine = m := by
  have hback : m.follow (.jump 0x200) = m := by
    rw [follow, withRegisters, Registers.follow, Registers.jump, ← h.pc]
  rw [cycle_of_fetch h.state h.fetch, effect?, hback]
  exact ⟨congrArg Except.ok h.state, rfl⟩

/-- A tick moves the timers, and the machine idles on. -/
theorem Idles.tick (h : m.Idles) : m.tick.Idles := by
  rw [Machine.tick, if_pos h.state]
  exact ⟨h.fetch, h.pc, h.state⟩

/-- It does not matter to it what the pacer has taken. -/
theorem Idles.paced (h : m.Idles) (nanos : Nat) : (m.paced nanos).Idles :=
  ⟨h.fetch, h.pc, h.state⟩

/-- A machine that idles goes on idling. -/
theorem Idles.rounds (h : m.Idles) (due : Due) (n : Nat) :
    (m.afterAll (due.rounds n)).Idles := by
  refine afterAll_rounds_preserves ?_ ?_ n h
  · intro m h
    rw [h.cycle.2]
    exact h
  · exact fun _ => Idles.tick

/-- A machine with the program `1200`, a jump to itself, that makes two cycles and five
ticks a second. -/
def idling : Machine :=
  ((powerOn (.start 2 5) .zeros).load [0x12, 0x00]).machine

/-- The program `1200` is a jump to its own address. -/
theorem idles_idling : idling.Idles where
  fetch := fetch?_load [0x12, 0x00] (i := .jump 0x200) (by decide) rfl (k := 0)
    (by decide) rfl (by rw [Instruction.Encodable]; decide) rfl
  pc := rfl
  state := rfl

/-! ### The schedule is followed -/

/-- The passing of time follows the schedule of its slice, which has one cycle in each round
and all the ticks that the slice is worth. If the product of the cycles `C` and the ticks `T`
can be counted in 64 bits, then `T * n / C` of the ticks have been made after `n` of the
rounds, and the schedule is its rounds, or ticks alone if there is no round.

If every cycle leaves the machine running, the whole schedule is made. If there is no cycle
at all, the machine stays in the state that it was in. A cycle that fails, or after which
the machine does not run, is the last, and the ticks that have counted are those of the
rounds before it. A request to quit halts the machine, and no time goes by. -/
theorem advance_follows_schedule (m : Machine) (nanos : Nat) :
    let due := m.pacer.due nanos
    (∀ n, (due.rounds n).countP Operation.isCycle = n) ∧
    (due.cycles * due.ticks < 2 ^ 64 →
      (∀ n ≤ due.cycles,
        (due.rounds n).countP Operation.isTick = due.ticks * n / due.cycles) ∧
      due.schedule =
        if due.cycles = 0 then .replicate due.ticks .tick else due.rounds due.cycles) ∧
    due.schedule.countP Operation.isCycle = due.cycles ∧
    due.schedule.countP Operation.isTick = due.ticks ∧
    (m.keypad.quit = false →
      ((∀ n < due.cycles,
          ((m.paced nanos).afterAll (due.rounds n)).cycle.result = .ok .running) →
        m.advance nanos =
          ⟨.ok (if due.cycles = 0 then m.state else .running),
            (m.paced nanos).afterAll due.schedule, (m.paced nanos).reports due.schedule⟩) ∧
      ∀ n < due.cycles,
        (∀ k < n, ((m.paced nanos).afterAll (due.rounds k)).cycle.result = .ok .running) →
        ((m.paced nanos).afterAll (due.rounds n)).cycle.result ≠ .ok .running →
        m.advance nanos =
          ⟨((m.paced nanos).afterAll (due.rounds n)).cycle.result,
            (m.paced nanos).afterAll (due.rounds n ++ [.cycle]),
            (m.paced nanos).reports (due.rounds n ++ [.cycle])⟩ ∧
        (due.cycles * due.ticks < 2 ^ 64 →
          (m.paced nanos).effectiveTicks (due.rounds n ++ [.cycle]) =
            due.ticks * n / due.cycles)) ∧
    (m.keypad.quit = true →
      m.advance nanos =
        ⟨.ok .halted, { m with state := .halted, fault := none }, #[.quitting] ++ m.haltLog⟩) := by
  intro due
  refine ⟨due.countP_isCycle_rounds,
    fun hfits => ⟨fun n => Due.countP_isTick_rounds hfits, ?_⟩,
    due.countP_isCycle_schedule, due.countP_isTick_schedule,
    fun hquit => ⟨advance_of_running hquit, fun n hn hrun hstop =>
      ⟨advance_of_stop hquit hn hrun hstop, fun hfits => ?_⟩⟩,
    fun hquit => if_pos hquit⟩
  · split
    · next hcycles => exact Due.schedule_of_no_cycle hcycles
    · next hcycles => exact Due.schedule_eq_rounds hfits hcycles
  · rw [effectiveTicks_append, effectiveTicks_rounds hrun,
      Due.countP_isTick_rounds hfits (Nat.le_of_lt hn)]
    rfl

/-- In a second the machine goes through two rounds. A machine without a program ends the
slice with its first cycle, and one that is asked to quit makes none. -/
theorem advance_follows_schedule_idling :
    (idling.advance nanosPerSecond).result = .ok .running ∧
      (idling.advance nanosPerSecond).machine = (idling.paced nanosPerSecond).afterAll
        [.cycle, .tick, .tick, .cycle, .tick, .tick, .tick] ∧
      (withoutProgram.advance nanosPerSecond).machine =
        (withoutProgram.paced nanosPerSecond).afterAll [.cycle] ∧
      (withoutProgram.paced nanosPerSecond).effectiveTicks [.cycle] = 0 ∧
      ({ idling with keypad := idling.keypad.requestQuit }.advance 5).result =
        .ok .halted := by
  have hdue : idling.pacer.due nanosPerSecond = ⟨2, 5⟩ := by decide
  have hdue' : withoutProgram.pacer.due nanosPerSecond = ⟨700, 60⟩ := by decide
  have hschedule : Due.schedule ⟨2, 5⟩ =
      [.cycle, .tick, .tick, .cycle, .tick, .tick, .tick] := rfl
  obtain ⟨-, -, -, -, hgo, -⟩ := advance_follows_schedule idling nanosPerSecond
  obtain ⟨-, -, -, -, hgo', -⟩ := advance_follows_schedule withoutProgram nanosPerSecond
  obtain ⟨-, -, -, -, -, hquit⟩ :=
    advance_follows_schedule { idling with keypad := idling.keypad.requestQuit } 5
  obtain ⟨hwhole, -⟩ := hgo rfl
  obtain ⟨-, hstop⟩ := hgo' rfl
  have hmade := hwhole fun n _ => ((idles_idling.paced _).rounds _ n).cycle.1
  have hfails : (withoutProgram.paced nanosPerSecond).cycle.result =
      .error (.unknownOpcode 0) := by
    have hfetch : (withoutProgram.paced nanosPerSecond).fetch? = .error (.unknownOpcode 0) :=
      fetch?_withoutProgram
    rw [cycle_of_fetch_error rfl hfetch]
  rw [hdue, hschedule] at hmade
  rw [hdue'] at hstop
  obtain ⟨hended, hticks⟩ := hstop 0 (by decide) nofun fun h => by
    cases hfails.symm.trans h
  rw [hmade, hended, hquit rfl]
  exact ⟨rfl, by dsimp only, by dsimp only; rfl, hticks (by decide), rfl⟩

/-- A machine that has just been switched on and halted. -/
def switchedOff : Machine :=
  (powerOn (.start 700 60) .zeros).halt

/-- A slice without a cycle does not set a halted machine running, although each of its
cycles, of which there are none, leaves it so. -/
theorem advance_without_cycle_not_running :
    ¬∀ (m : Machine) (nanos : Nat), m.keypad.quit = false →
      (m.pacer.due nanos).cycles * (m.pacer.due nanos).ticks < 2 ^ 64 →
      (∀ n < (m.pacer.due nanos).cycles,
        ((m.paced nanos).afterAll ((m.pacer.due nanos).rounds n)).cycle.result =
          .ok .running) →
      (m.advance nanos).result = .ok .running := by
  intro h
  have hdue : switchedOff.pacer.due 0 = ⟨0, 0⟩ := by decide
  have hresult : (switchedOff.advance 0).result = .ok .halted := rfl
  have hrunning := h switchedOff 0 rfl (by rw [hdue]; decide) fun n hn => by
    rw [hdue] at hn
    exact absurd hn (Nat.not_lt_zero n)
  rw [hresult] at hrunning
  cases hrunning

end Machine

end Chip8
