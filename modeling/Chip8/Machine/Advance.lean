import Chip8.Machine.Control
import Chip8.Machine.Cycle

/-!
# Running in time

`Machine.advance` makes the cycles and ticks that a slice of time is worth. The ticks are
spread evenly over the cycles: after `n` of `C` cycles, `T * n / C` of the `T` ticks are
owed, and as many are made as are missing. A slice that stops partway, on a fault or on a
wait, has made the ticks for the part that ran, and a slice that is too short for a cycle
makes its ticks all the same.

`Machine.run` makes cycles without regard to time.
-/

namespace Chip8

/-- The ticks that are owed after `n` of the cycles of a slice. The product is a number of
64 bits, as the counts are. -/
def Due.owed (due : Due) (n : Nat) : Nat :=
  due.ticks * n % Pacer.countRange / due.cycles

namespace Machine

/-- Ticks until `owed` of them have been made, of which `ticked` have been made before. The
number that have been made by then comes back. -/
def tickUntil (owed ticked : Nat) (m : Machine) (log : Log) : Nat × Machine × Log :=
  if ticked < owed then tickUntil owed (ticked + 1) m.tick (log ++ m.tickLog)
  else (ticked, m, log)
termination_by owed - ticked

/-- The ticks that are missing are made, and ticks that were made too early stay made. -/
theorem tickUntil_eq (owed ticked : Nat) (m : Machine) (log : Log) :
    tickUntil owed ticked m log = (max ticked owed, ticks (owed - ticked) m log) := by
  induction hmissing : owed - ticked generalizing ticked m log with
  | zero =>
    rw [tickUntil, if_neg (by omega), Nat.max_eq_left (by omega)]
    rfl
  | succ missing ih =>
    rw [tickUntil, if_pos (by omega), ih _ _ _ (by omega), Nat.max_eq_right (by omega),
      Nat.max_eq_right (by omega), ticks]

/-- The last `left` cycles of a slice of which `ticked` ticks have been made, each with the
ticks that are owed by then, and after them the ticks that are still missing. The first cycle
that fails, or after which the machine is no longer running, is the last. -/
def slice (due : Due) : (left ticked : Nat) → Machine → Log → Outcome RunState
  | 0, ticked, m, log =>
    let (m', log) := ticks (due.ticks - ticked) m log
    ⟨.ok m'.state, m', log⟩
  | left + 1, ticked, m, log =>
    let o := m.cycle
    let log := log ++ o.log
    match o.result with
    | .error f => ⟨.error f, o.machine, log⟩
    | .ok state =>
      let (ticked, m', log) := tickUntil (due.owed (due.cycles - left)) ticked o.machine log
      if state = .running then slice due left ticked m' log else ⟨.ok state, m', log⟩

/-- Makes what is due. -/
def runDue (due : Due) (m : Machine) : Outcome RunState :=
  slice due due.cycles 0 m #[]

/-- Lets `nanos` nanoseconds go by. A request to quit halts the machine instead, and then no
time is taken from the pacer. -/
def advance (m : Machine) (nanos : Nat) : Outcome RunState :=
  if m.keypad.quit then ⟨.ok .halted, m.halt, #[.quitting] ++ m.haltLog⟩
  else runDue (m.pacer.due nanos) { m with pacer := m.pacer.advance nanos }

/-- Up to `left` cycles, ending with the first that fails. The count of cycles that
succeeded goes on from `done`. -/
def runFrom : Nat → Machine → Log → (done : Nat) → Nat × Outcome RunState
  | 0, m, log, done => (done, ⟨.ok m.state, m, log⟩)
  | left + 1, m, log, done =>
    let o := m.cycle
    let log := log ++ o.log
    match o.result with
    | .error f => (done, ⟨.error f, o.machine, log⟩)
    | .ok _ => runFrom left o.machine log (done + 1)

/-- Makes `n` cycles, or as many as succeed. The outcome is that of the last cycle, with the
events of all of them, and the number before it tells how many cycles succeeded. -/
def run (m : Machine) (n : Nat) : Nat × Outcome RunState :=
  runFrom n m #[] 0

end Machine

end Chip8
