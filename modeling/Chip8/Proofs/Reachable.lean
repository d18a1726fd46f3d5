import Chip8.Machine.Advance

/-!
# Reachable machines

The machine has an owner, who switches it on and then asks things of it in any order: to
load a program, to make a cycle, to let time go by, and so on. The owner can also report
what happens to the keys. `Reachable` collects the machines that come about in this way.
Executing an instruction that is not in memory, and writing registers or cells from
outside, are not among the things that can be asked.

## Main statements

* `Machine.advance_preserves`: what holds through single cycles and ticks holds through
  the passing of time.
-/

namespace Chip8

/-- What the owner of a machine can ask of it. -/
inductive Operation where
  | load (program : List UInt8)
  | reset
  | cycle
  | tick
  | advance (nanos : Nat)
  | halt
  | skip
  | keyDown (key : UInt8)
  | keyUp (key : UInt8)
  | clearPending
  | requestQuit
  | releaseKeys

namespace Machine

/-- The machine with the keypad that a report about a key leads to. A report about a key
that does not exist is refused. -/
def reportKey (m : Machine) : Except Fault Keypad → Machine
  | .ok keypad => { m with keypad }
  | .error _ => m

/-- The machine after an operation, be it that the operation failed. -/
def after (m : Machine) : Operation → Machine
  | .load program => (m.load program).machine
  | .reset => m.reset.machine
  | .cycle => m.cycle.machine
  | .tick => m.tick
  | .advance nanos => (m.advance nanos).machine
  | .halt => m.halt
  | .skip => m.skip.machine
  | .keyDown key => m.reportKey (m.keypad.keyDown? key)
  | .keyUp key => m.reportKey (m.keypad.keyUp? key)
  | .clearPending => { m with keypad := m.keypad.clearPending }
  | .requestQuit => { m with keypad := m.keypad.requestQuit }
  | .releaseKeys => { m with keypad := .idle }

end Machine

/-- The machines that an owner can come by. -/
inductive Reachable : Machine → Prop
  | powerOn (cycleRate tickRate : Nat) (random : ByteStream) :
    Reachable (.powerOn (.start cycleRate tickRate) random)
  | after {m : Machine} (h : Reachable m) (o : Operation) : Reachable (m.after o)
  /-- An advance begins by taking its time from the pacer. The machines between its
  cycles and ticks are reached from there. -/
  | pace {m : Machine} (h : Reachable m) (nanos : Nat) :
    Reachable { m with pacer := m.pacer.advance nanos }

namespace Machine

/-! ### The passing of time -/

section Preserves

variable {P : Machine → Prop}

/-- What one tick preserves, several preserve. -/
theorem ticks_preserves (htick : ∀ m, P m → P m.tick) (k : Nat) {m : Machine} (log : Log)
    (h : P m) : P (ticks k m log).1 := by
  induction k generalizing m log with
  | zero => exact h
  | succ k ih => exact ih _ (htick m h)

/-- What cycles and ticks preserve, the loop of a slice preserves, wherever it ends. -/
theorem slice_preserves (hcycle : ∀ m, P m → P m.cycle.machine) (htick : ∀ m, P m → P m.tick)
    (due : Due) (left ticked : Nat) {m : Machine} (log : Log) (h : P m) :
    P (slice due left ticked m log).machine := by
  induction left generalizing ticked m log with
  | zero => exact ticks_preserves htick _ log h
  | succ left ih =>
    have hticks : ∀ log',
        P (ticks (due.owed (due.cycles - left) - ticked) m.cycle.machine log').1 :=
      fun log' => ticks_preserves htick _ log' (hcycle m h)
    simp only [slice, tickUntil_eq]
    cases m.cycle.result with
    | error f => exact hcycle m h
    | ok state =>
      dsimp only
      split
      · exact ih _ _ (hticks _)
      · exact hticks _

/-- What a halt, the pacer, cycles and ticks preserve, the passing of time preserves. -/
theorem advance_preserves (hhalt : ∀ m, P m → P m.halt)
    (hpace : ∀ m nanos, P m → P { m with pacer := m.pacer.advance nanos })
    (hcycle : ∀ m, P m → P m.cycle.machine) (htick : ∀ m, P m → P m.tick)
    {m : Machine} (nanos : Nat) (h : P m) : P (m.advance nanos).machine := by
  rw [advance]
  split
  · exact hhalt m h
  · exact slice_preserves hcycle htick _ _ _ _ (hpace m nanos h)

end Preserves

end Machine

end Chip8
