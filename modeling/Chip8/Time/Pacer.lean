import Chip8.Time.Metronome

/-!
# The pacer

The machine executes instructions at one rate and ticks its timers at another. A pacer holds
a metronome for each and says what a slice of time is worth. Counts are reported as 64-bit
numbers, modulo 2^64.
-/

namespace Chip8

/-- What a slice of time is worth. -/
structure Due where
  /-- Instructions to execute. -/
  cycles : Nat
  /-- Ticks of the two timers. -/
  ticks : Nat
deriving DecidableEq, Repr

/-- The two rates of the machine and what is left over of each. -/
structure Pacer where
  cycles : Metronome
  ticks : Metronome
deriving DecidableEq, Repr

namespace Pacer

/-- The range of a reported count. -/
def countRange : Nat := UInt64.size

/-- A pacer at these rates, in beats per second. -/
def start (cycleRate tickRate : Nat) : Pacer :=
  ⟨.start cycleRate, .start tickRate⟩

/-- Forgets what is left over of both rates. -/
def restart (p : Pacer) : Pacer :=
  ⟨p.cycles.restart, p.ticks.restart⟩

/-- What a slice of `nanos` nanoseconds is worth. -/
def due (p : Pacer) (nanos : Nat) : Due :=
  ⟨p.cycles.beats nanos % countRange, p.ticks.beats nanos % countRange⟩

/-- The pacer after a slice of `nanos` nanoseconds. -/
def advance (p : Pacer) (nanos : Nat) : Pacer :=
  ⟨p.cycles.advance nanos, p.ticks.advance nanos⟩

end Pacer

end Chip8
