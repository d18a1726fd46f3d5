/-!
# Settings

What a machine and its window are set up with.
-/

namespace Chip8

/-- The choices of the user. -/
structure Settings where
  /-- Instructions per second. -/
  cycleRate : Nat
  /-- Ticks of the timers per second. -/
  tickRate : Nat
  /-- Pixels of the window per pixel of the picture. -/
  scale : Nat
  /-- The file that holds the program. -/
  program : Option String
deriving DecidableEq, Repr

namespace Settings

/-- 700 instructions and 60 ticks per second, at sixteenfold size. -/
def standard : Settings where
  cycleRate := 700
  tickRate := 60
  scale := 16
  program := none

/-- Settings with a choice of rates and program, and the standard size. -/
def ofRates (cycleRate tickRate : Nat) (program : Option String) : Settings :=
  { standard with cycleRate, tickRate, program }

/-- The same settings at another size. -/
def withScale (s : Settings) (scale : Nat) : Settings :=
  { s with scale }

end Settings

end Chip8
