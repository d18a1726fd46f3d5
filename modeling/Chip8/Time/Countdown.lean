/-!
# Countdowns

A countdown is a byte that goes down by one at each tick and stays at zero. The delay timer
and the sound timer are countdowns.
-/

namespace Chip8

/-- A count that ticks down to zero. -/
structure Countdown where
  count : UInt8
deriving DecidableEq, Repr

namespace Countdown

/-- A countdown that is over. -/
def zero : Countdown := ⟨0⟩

/-- The count has not reached zero yet. -/
def isActive (t : Countdown) : Bool :=
  t.count ≠ 0

/-- The next tick is the one that reaches zero. -/
def isLast (t : Countdown) : Bool :=
  t.count = 1

/-- One tick. -/
def tick (t : Countdown) : Countdown :=
  if t.isActive then ⟨t.count - 1⟩ else t

/-- A tick takes one off the count, down to zero. -/
theorem toNat_count_tick (t : Countdown) : t.tick.count.toNat = t.count.toNat - 1 := by
  unfold tick isActive
  by_cases h : t.count = 0
  · simp [h]
  · have hpos : t.count.toNat ≠ 0 := fun h0 => h (UInt8.toNat_inj.1 h0)
    have hle : (1 : UInt8) ≤ t.count :=
      UInt8.le_iff_toNat_le.2 (Nat.one_le_iff_ne_zero.2 hpos)
    simp only [ne_eq, h, not_false_eq_true, decide_true, if_true]
    simp [UInt8.toNat_sub_of_le _ _ hle]

end Countdown

end Chip8
