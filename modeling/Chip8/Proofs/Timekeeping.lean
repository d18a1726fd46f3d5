import Chip8.Time.Pacer
import Mathlib.Algebra.BigOperators.Group.List.Basic
import Mathlib.Algebra.Order.Ring.Nat
import Mathlib.Data.Nat.ModEq

/-!
# Time is neither lost nor invented

A pacer is given time in slices. What it reports for them, taken together, is what the whole of
the time is worth, however it was cut: the part of a beat that a slice leaves over is kept for the
next one. A single report is a number of 64 bits, so the equation holds modulo 2^64, and as it
stands as long as no slice is worth more than that. The numbers in between fit into 128 bits for
every length of time that a clock can report.

## Main statements

* `Metronome.sum_beatsOf`: the beats of several slices are those of their sum.
* `Metronome.advanceAll_eq`: what is left over of several slices is what their sum leaves over.
* `Pacer.afterRestarts_start`: a restart leaves nothing of the time before it.
* `Pacer.keeps_time`: the reports of a pacer.
-/

namespace Chip8

/-- A length of time as a clock reports it: whole seconds, and nanoseconds below a second. -/
structure Duration where
  seconds : UInt64
  nanos : Nat
  nanos_lt : nanos < nanosPerSecond

/-- The length in nanoseconds. -/
def Duration.total (d : Duration) : Nat :=
  d.seconds.toNat * nanosPerSecond + d.nanos

/-- A clock reports less than 2^64 seconds. -/
theorem Duration.total_lt (d : Duration) : d.total < 2 ^ 64 * nanosPerSecond := by
  have hseconds := d.seconds.toNat_lt
  have hnanos := d.nanos_lt
  simp only [total, nanosPerSecond] at *
  omega

/-! ### One rate -/

namespace Metronome

variable {m : Metronome}

/-- The beats of several slices of time, one after the other. -/
def beatsOf : Metronome → List Nat → List Nat
  | _, [] => []
  | m, nanos :: rest => m.beats nanos :: (m.advance nanos).beatsOf rest

/-- The metronome after several slices of time. -/
def advanceAll (m : Metronome) (slices : List Nat) : Metronome :=
  slices.foldl advance m

/-- The beats of several slices are those of their sum. -/
theorem sum_beatsOf (h : m.remainder < nanosPerSecond) (slices : List Nat) :
    (m.beatsOf slices).sum = m.beats slices.sum := by
  induction slices generalizing m with
  | nil => exact (beats_zero h).symm
  | cons nanos rest ih =>
    rw [beatsOf, List.sum_cons, List.sum_cons, ih (m.remainder_advance_lt nanos), beats_add]

/-- What is left over of several slices is what their sum leaves over. -/
theorem advanceAll_eq (h : m.remainder < nanosPerSecond) (slices : List Nat) :
    m.advanceAll slices = m.advance slices.sum := by
  induction slices generalizing m with
  | nil => exact (advance_zero h).symm
  | cons nanos rest ih =>
    rw [List.sum_cons, advance_add, ← ih (m.remainder_advance_lt nanos)]
    rfl

/-- What `rate` beats a second come to over several slices of time: the counts `reported` for
them, each of which stands for a number of beats in `worth`, and the metronome `after` them. -/
structure Counts (rate : Nat) (slices reported worth : List Nat) (after : Metronome) : Prop where
  /-- The counts add up to the beats of the whole time, modulo the range of a count. -/
  total : reported.sum ≡ slices.sum * rate / nanosPerSecond [MOD 2 ^ 64]
  /-- If no slice is worth more than a count can say, they add up to these beats. -/
  exact_of_fits : (∀ b ∈ worth, b < 2 ^ 64) → reported.sum = slices.sum * rate / nanosPerSecond
  /-- What is left over is what the whole time leaves over, and less than a beat. -/
  remainder : after.remainder = slices.sum * rate % nanosPerSecond
  remainder_lt : after.remainder < nanosPerSecond
  /-- Another slice, of whatever length, makes no number of more than 128 bits. -/
  fits : ∀ d : Duration, d.total < 2 ^ 128 ∧ d.total * after.rate < 2 ^ 128 ∧
    after.elapsed d.total < 2 ^ 128

/-- Counts in the range of 64 bits add up to the beats, modulo that range. -/
theorem sum_counts_modEq (worth : List Nat) :
    (worth.map (· % Pacer.countRange)).sum ≡ worth.sum [MOD 2 ^ 64] :=
  (List.sum_nat_mod worth Pacer.countRange).symm

/-- If each of them fits into 64 bits, the counts are the beats themselves. -/
theorem sum_counts_of_fits {worth : List Nat} (h : ∀ b ∈ worth, b < 2 ^ 64) :
    (worth.map (· % Pacer.countRange)).sum = worth.sum := by
  have hmap : worth.map (· % Pacer.countRange) = worth.map id :=
    List.map_congr_left fun b hb => Nat.mod_eq_of_lt (h b hb)
  rw [hmap, List.map_id]

/-- The numbers that a slice makes, if the rate is a number of 32 bits. -/
theorem elapsed_lt (hrate : m.rate ≤ 2 ^ 32) (hremainder : m.remainder < nanosPerSecond)
    (d : Duration) :
    d.total < 2 ^ 128 ∧ d.total * m.rate < 2 ^ 128 ∧ m.elapsed d.total < 2 ^ 128 := by
  have htotal := d.total_lt
  have hproduct : d.total * m.rate ≤ 2 ^ 64 * nanosPerSecond * 2 ^ 32 :=
    Nat.mul_le_mul (Nat.le_of_lt htotal) hrate
  simp only [elapsed, nanosPerSecond] at *
  omega

/-- A metronome that was just started counts right. -/
theorem counts_start (rate : UInt32) (slices : List Nat) :
    Counts (max rate.toNat 1) slices
      (((start rate.toNat).beatsOf slices).map (· % Pacer.countRange))
      ((start rate.toNat).beatsOf slices) ((start rate.toNat).advanceAll slices) := by
  have hbegin : (start rate.toNat).remainder < nanosPerSecond := Nat.succ_pos _
  have hbeats : ((start rate.toNat).beatsOf slices).sum =
      slices.sum * max rate.toNat 1 / nanosPerSecond := by
    rw [sum_beatsOf hbegin, beats, elapsed, start, Nat.zero_add]
  have hafter : (start rate.toNat).advanceAll slices = (start rate.toNat).advance slices.sum :=
    advanceAll_eq hbegin slices
  have hrate : max rate.toNat 1 ≤ 2 ^ 32 :=
    Nat.max_le.2 ⟨Nat.le_of_lt rate.toNat_lt, Nat.one_le_two_pow⟩
  refine ⟨hbeats ▸ sum_counts_modEq _, fun hfits => (sum_counts_of_fits hfits).trans hbeats, ?_, ?_,
    ?_⟩
  · rw [hafter, advance, elapsed, start, Nat.zero_add]
  · rw [hafter]
    exact remainder_advance_lt _ _
  · rw [hafter]
    exact elapsed_lt hrate (remainder_advance_lt _ _)

end Metronome

/-! ### Both rates -/

namespace Pacer

/-- What several slices of time are worth, one after the other. -/
def dues : Pacer → List Nat → List Due
  | _, [] => []
  | p, nanos :: rest => p.due nanos :: (p.advance nanos).dues rest

/-- The pacer after several slices of time. -/
def advanceAll (p : Pacer) (slices : List Nat) : Pacer :=
  slices.foldl advance p

/-- The pacer after some restarts, each of which comes behind several slices of time. -/
def afterRestarts (p : Pacer) (earlier : List (List Nat)) : Pacer :=
  earlier.foldl (fun p slices => (p.advanceAll slices).restart) p

/-- The reports on the cycles are those of the metronome for the cycles, in 64 bits. -/
theorem map_cycles_dues (p : Pacer) (slices : List Nat) :
    (p.dues slices).map Due.cycles = (p.cycles.beatsOf slices).map (· % countRange) := by
  induction slices generalizing p with
  | nil => rfl
  | cons nanos rest ih =>
    rw [dues, List.map_cons, ih]
    rfl

/-- Likewise, the reports on the ticks. -/
theorem map_ticks_dues (p : Pacer) (slices : List Nat) :
    (p.dues slices).map Due.ticks = (p.ticks.beatsOf slices).map (· % countRange) := by
  induction slices generalizing p with
  | nil => rfl
  | cons nanos rest ih =>
    rw [dues, List.map_cons, ih]
    rfl

/-- The two rates go on side by side. -/
theorem advanceAll_eq (p : Pacer) (slices : List Nat) :
    p.advanceAll slices = ⟨p.cycles.advanceAll slices, p.ticks.advanceAll slices⟩ := by
  induction slices generalizing p with
  | nil => rfl
  | cons nanos rest ih => exact ih (p.advance nanos)

/-- A restart leaves nothing of the time before it. -/
theorem restart_advanceAll_start (cycleRate tickRate : Nat) (slices : List Nat) :
    ((start cycleRate tickRate).advanceAll slices).restart = start cycleRate tickRate := by
  rw [advanceAll_eq, Metronome.advanceAll_eq (Nat.succ_pos _),
    Metronome.advanceAll_eq (Nat.succ_pos _)]
  rfl

/-- However often it was restarted, a pacer is as it was at the start. -/
theorem afterRestarts_start (cycleRate tickRate : Nat) (earlier : List (List Nat)) :
    (start cycleRate tickRate).afterRestarts earlier = start cycleRate tickRate := by
  induction earlier with
  | nil => rfl
  | cons slices earlier ih =>
    rw [afterRestarts, List.foldl_cons, restart_advanceAll_start]
    exact ih

/-- The reports of a pacer, from its start or a restart on.

Whatever the rates are, of which zero counts as one, and whatever slices of time it was given
before, the counts for the slices from then on add up to what the whole of their time is worth at
each of the two rates, and the rest of it is left over: both depend on the sum of the slices
alone. The counts of the ticks do not depend on the rate of the cycles. -/
theorem keeps_time (cycleRate tickRate : UInt32) (earlier : List (List Duration))
    (slices : List Duration) :
    let p := (start cycleRate.toNat tickRate.toNat).afterRestarts
      (earlier.map (·.map Duration.total))
    let nanos := slices.map Duration.total
    Metronome.Counts (max cycleRate.toNat 1) nanos ((p.dues nanos).map Due.cycles)
        (p.cycles.beatsOf nanos) (p.advanceAll nanos).cycles ∧
      Metronome.Counts (max tickRate.toNat 1) nanos ((p.dues nanos).map Due.ticks)
        (p.ticks.beatsOf nanos) (p.advanceAll nanos).ticks ∧
      (∀ other : UInt32,
        ((start other.toNat tickRate.toNat).dues nanos).map Due.ticks =
          (p.dues nanos).map Due.ticks) ∧
      ∀ slices' : List Duration, (slices'.map Duration.total).sum = nanos.sum →
        ((p.dues (slices'.map Duration.total)).map Due.cycles).sum ≡
            ((p.dues nanos).map Due.cycles).sum [MOD 2 ^ 64] ∧
          ((p.dues (slices'.map Duration.total)).map Due.ticks).sum ≡
            ((p.dues nanos).map Due.ticks).sum [MOD 2 ^ 64] := by
  intro p nanos
  have hp : p = start cycleRate.toNat tickRate.toNat := afterRestarts_start _ _ _
  have hcycles : ∀ nanos : List Nat, Metronome.Counts (max cycleRate.toNat 1) nanos
      ((p.dues nanos).map Due.cycles) (p.cycles.beatsOf nanos) (p.advanceAll nanos).cycles := by
    intro nanos
    rw [hp, map_cycles_dues, advanceAll_eq]
    exact Metronome.counts_start cycleRate nanos
  have hticks : ∀ nanos : List Nat, Metronome.Counts (max tickRate.toNat 1) nanos
      ((p.dues nanos).map Due.ticks) (p.ticks.beatsOf nanos) (p.advanceAll nanos).ticks := by
    intro nanos
    rw [hp, map_ticks_dues, advanceAll_eq]
    exact Metronome.counts_start tickRate nanos
  refine ⟨hcycles nanos, hticks nanos, fun other => ?_, fun slices' hsum => ?_⟩
  · rw [hp, map_ticks_dues, map_ticks_dues]
    rfl
  · have hcycles' := (hcycles (slices'.map Duration.total)).total
    have hticks' := (hticks (slices'.map Duration.total)).total
    rw [hsum] at hcycles' hticks'
    exact ⟨hcycles'.trans (hcycles nanos).total.symm, hticks'.trans (hticks nanos).total.symm⟩

/-- A millisecond. -/
def millisecond : Duration := ⟨0, 1000000, by decide⟩

/-- At 700 cycles a second, two milliseconds in a row are worth one cycle and two fifths of
another, although neither of them is worth more than one, and whatever the pacer was given before
its restart. They are worth as much as two milliseconds at once. -/
theorem keeps_time_milliseconds :
    let p := (start (700 : UInt32).toNat (60 : UInt32).toNat).afterRestarts
      ([[⟨12, 345, by decide⟩]].map (·.map Duration.total))
    ((p.dues [1000000, 1000000]).map Due.cycles).sum = 1 ∧
      (p.advanceAll [1000000, 1000000]).cycles.remainder = 400000000 ∧
      ((p.dues [2000000]).map Due.cycles).sum ≡
        ((p.dues [1000000, 1000000]).map Due.cycles).sum [MOD 2 ^ 64] := by
  intro p
  obtain ⟨hcycles, -, -, hsplit⟩ :=
    keeps_time 700 60 [[⟨12, 345, by decide⟩]] [millisecond, millisecond]
  obtain ⟨hsame, -⟩ := hsplit [⟨0, 2000000, by decide⟩] (by decide)
  exact ⟨hcycles.exact_of_fits (by decide), hcycles.remainder, hsame⟩

end Pacer

end Chip8
