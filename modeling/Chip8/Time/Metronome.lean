/-!
# Metronomes

A metronome turns elapsed time into beats at a fixed rate. Time comes in nanoseconds and in
pieces of any size; what a piece leaves over is kept as a remainder, in billionths of a beat,
and counts towards the next one. So beats are neither lost nor invented, however the time is
cut up. The remainder stays below one beat.
-/

namespace Chip8

/-- The number of nanoseconds in a second. -/
def nanosPerSecond : Nat := 1000000000

/-- A fixed rate, and the part of a beat that has already gone by. -/
structure Metronome where
  /-- Beats per second. -/
  rate : Nat
  /-- Billionths of a beat. -/
  remainder : Nat
deriving DecidableEq, Repr

namespace Metronome

/-- A metronome that is about to begin a beat. A rate of zero counts as one. -/
def start (rate : Nat) : Metronome :=
  ⟨max rate 1, 0⟩

/-- Forgets the beat that has begun. -/
def restart (m : Metronome) : Metronome :=
  { m with remainder := 0 }

/-- The billionths of a beat that have gone by when `nanos` nanoseconds have. -/
def elapsed (m : Metronome) (nanos : Nat) : Nat :=
  m.remainder + nanos * m.rate

/-- The beats that are complete after `nanos` nanoseconds. -/
def beats (m : Metronome) (nanos : Nat) : Nat :=
  m.elapsed nanos / nanosPerSecond

/-- The metronome after `nanos` nanoseconds. -/
def advance (m : Metronome) (nanos : Nat) : Metronome :=
  { m with remainder := m.elapsed nanos % nanosPerSecond }

/-- Time is kept: the beats and the new remainder are what has gone by. -/
theorem beats_advance (m : Metronome) (nanos : Nat) :
    m.beats nanos * nanosPerSecond + (m.advance nanos).remainder =
      m.remainder + nanos * m.rate :=
  Nat.div_add_mod' _ _

/-- The beats of a piece of time are those of its parts. -/
theorem beats_add (m : Metronome) (a b : Nat) :
    m.beats (a + b) = m.beats a + (m.advance a).beats b := by
  have hsplit : m.elapsed (a + b) = (m.advance a).elapsed b + m.beats a * nanosPerSecond := by
    have hkept := m.beats_advance a
    have hrate : (m.advance a).rate = m.rate := rfl
    rw [elapsed, elapsed, hrate, Nat.add_mul]
    omega
  rw [beats, hsplit, Nat.add_mul_div_right _ _ (by decide), Nat.add_comm]
  rfl

/-- Two pieces of time in a row are one. -/
theorem advance_add (m : Metronome) (a b : Nat) :
    m.advance (a + b) = (m.advance a).advance b := by
  simp only [advance, elapsed, Nat.add_mul, ← Nat.add_assoc, Nat.mod_add_mod]

/-- Less than a beat is left over. -/
theorem remainder_advance_lt (m : Metronome) (nanos : Nat) :
    (m.advance nanos).remainder < nanosPerSecond :=
  Nat.mod_lt _ (by decide)

/-- No time is worth no beat. -/
theorem beats_zero {m : Metronome} (h : m.remainder < nanosPerSecond) : m.beats 0 = 0 := by
  rw [beats, elapsed, Nat.zero_mul, Nat.add_zero, Nat.div_eq_of_lt h]

/-- No time changes nothing. -/
theorem advance_zero {m : Metronome} (h : m.remainder < nanosPerSecond) :
    m.advance 0 = m := by
  rw [advance, elapsed, Nat.zero_mul, Nat.add_zero, Nat.mod_eq_of_lt h]

end Metronome

end Chip8
