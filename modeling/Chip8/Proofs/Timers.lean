import Chip8.Proofs.Intervention
import Chip8.Proofs.Moves

/-!
# The two timers

The delay timer and the sound timer count down with the ticks of a running machine. A program sets
them by `FX15` and by `FX18`, a reset takes them back to zero, and nothing else touches them. So
once a timer is set, its count is a matter of counting ticks, however they are mixed with cycles,
waits and halts, and whether they are made one by one or in slices of time.

The machine sounds as long as the sound timer is not at zero. The tick that takes it there reports
the end of the sound, and no other tick does, however long the timer stays at zero.

## Main statements

* `Event.line_eq_iff`: the line that reports the end of the sound is that of no other event.
* `Timer.turn`: the four things that a move can do to a timer.
* `Timer.count_makeAll`: what some moves leave of a count.
* `Moment.expiries_log`, `Machine.expiries_told`: what is reported by a move, and by some of them.
* `Machine.countP_expires`: the sound ends once.
* `Machine.timers_lawful`: both timers in every run.
-/

namespace Chip8

/-! ### The line of the log -/

namespace Event

/-- A text begins with its first part. -/
theorem prefix_of_append_eq {a b c : String} (h : a ++ b = c) : a.toList <+: c.toList := by
  rw [← h, String.toList_append]
  exact List.prefix_append _ _

/-- The line that reports the end of the sound is that of no other event. -/
theorem line_eq_iff {e : Event} : e.line = "DEBUG sound timer expired" ↔ e = .soundExpired := by
  refine ⟨fun h => ?_, fun h => h ▸ by decide⟩
  have hlevel : (e.level.name ++ " ").toList <+: "DEBUG sound timer expired".toList :=
    prefix_of_append_eq h
  have hmessage (hdebug : e.level = .debug) : e.message = "sound timer expired" := by
    have hsplit : "DEBUG sound timer expired" = Level.debug.name ++ " " ++ "sound timer expired" :=
      by decide
    rw [line, hdebug, hsplit] at h
    exact (String.append_right_inj _).1 h
  -- the others differ in their level, or else in the first word of their message
  cases e with
  | soundExpired => rfl
  | executing => exact absurd hlevel (by decide : ¬(Level.trace.name ++ " ").toList <+: _)
  | failed => exact absurd hlevel (by decide : ¬(Level.error.name ++ " ").toList <+: _)
  | loaded | resetting | quitting =>
    exact absurd hlevel (by decide : ¬(Level.info.name ++ " ").toList <+: _)
  | skipping => exact absurd hlevel (by decide : ¬(Level.warn.name ++ " ").toList <+: _)
  | halting pc =>
    have hstart : "halting at ".toList <+: "sound timer expired".toList :=
      prefix_of_append_eq (hmessage rfl)
    exact absurd hstart (by decide)
  | waiting r =>
    have hstart : "waiting for key into V".toList <+: "sound timer expired".toList :=
      prefix_of_append_eq (hmessage rfl)
    exact absurd hstart (by decide)
  | resumed key =>
    have hstart : "key ".toList <+: "sound timer expired".toList :=
      prefix_of_append_eq ((String.append_assoc ..).symm.trans (hmessage rfl))
    exact absurd hstart (by decide)

/-- How often the end of the sound is reported by some events. -/
def expiries (events : List Event) : Nat :=
  (events.map line).count "DEBUG sound timer expired"

/-- The ends that are reported one after the other add up. -/
theorem expiries_append (events events' : List Event) :
    expiries (events ++ events') = expiries events + expiries events' := by
  rw [expiries, List.map_append, List.count_append]
  rfl

/-- Other events do not report the end, as none of them is written as the same line. -/
theorem expiries_eq_zero {events : List Event} (h : .soundExpired ∉ events) :
    expiries events = 0 := by
  refine List.count_eq_zero.2 fun hmem => ?_
  obtain ⟨e, he, hline⟩ := List.mem_map.1 hmem
  exact h (line_eq_iff.1 hline ▸ he)

end Event

/-! ### What a move does to a timer -/

/-- A timer of the machine. -/
inductive Timer where
  | delay
  | sound

namespace Timer

/-- The timer as it stands. -/
def countdown : Timer → Machine → Countdown
  | delay, m => m.delay
  | sound, m => m.sound

/-- What is left of its count. -/
def count (t : Timer) (m : Machine) : Nat :=
  (t.countdown m).count.toNat

/-- The instruction that sets the timer to a register. -/
def setter : Timer → UInt8 → Instruction
  | delay, x => .setDelay x
  | sound, x => .setSound x

/-- The move sets the timer: it executes the instruction for it, or it is a reset. -/
def Sets (t : Timer) (p : Moment) : Prop :=
  p.move = .ask .reset ∨ ∃ x, p.Executes (t.setter x)

end Timer

namespace Moment

/-- The move is a tick that counts, as the machine is running. -/
def counts (p : Moment) : Bool :=
  match p.move, p.before.state with
  | .ask .tick, .running => true
  | _, _ => false

/-- The move is the tick that ends the sound: it counts, and the count is at one. -/
def expires (p : Moment) : Bool :=
  p.counts && p.before.sound.isLast

variable {p : Moment}

/-- A move counts if it is a tick of a running machine. -/
theorem counts_eq_true_iff :
    p.counts = true ↔ p.move = .ask .tick ∧ p.before.state = .running := by
  rw [counts]
  constructor
  · intro h
    split at h
    · next hmove hstate => exact ⟨hmove, hstate⟩
    · cases h
  · rintro ⟨hmove, hstate⟩
    rw [hmove, hstate]

/-- The sound is ended by the tick that counts when one is left. -/
theorem expires_eq_true_iff :
    p.expires = true ↔ p.counts = true ∧ Timer.sound.count p.before = 1 := by
  rw [expires, Bool.and_eq_true, Countdown.isLast, decide_eq_true_iff, ← UInt8.toNat_inj]
  rfl

end Moment

namespace Timer

variable {t : Timer} {m m' : Machine} {i : Instruction} {x : UInt8} {p : Moment}
  {moves : List Move}

/-- What a move can do to a timer. -/
inductive Turn (t : Timer) (p : Moment) : Prop
  | keeps (hcounts : p.counts = false) (h : t.count p.after = t.count p.before)
  | counts (hcounts : p.counts = true) (h : t.count p.after = t.count p.before - 1)
  | sets {x v : UInt8} (hcounts : p.counts = false) (hexec : p.Executes (t.setter x))
    (hv : p.before.registers.get? x = .ok v) (h : t.count p.after = v.toNat)
  | resets (hcounts : p.counts = false) (hreset : p.move = .ask .reset) (h : t.count p.after = 0)

/-- The instruction for a timer sets it to its register. -/
theorem count_of_setter (h : m.effect? (t.setter x) = .ok m') :
    ∃ v, m.registers.get? x = .ok v ∧ t.count m' = v.toNat := by
  cases t with
  | delay | sound =>
    obtain ⟨v, hv, h⟩ := bind_eq_ok_iff.1 h
    obtain rfl := Except.ok.inj h
    exact ⟨v, hv, rfl⟩

/-- No other instruction touches it. -/
theorem count_of_touches (h : m.Touches i m') (hi : ∀ x, i ≠ t.setter x) :
    t.count m' = t.count m := by
  cases t with
  | delay =>
    cases h with
    | setDelay x => exact absurd rfl (hi x)
    | _ => rfl
  | sound =>
    cases h with
    | setSound x => exact absurd rfl (hi x)
    | _ => rfl

/-- A tick of a running machine takes one off, and nothing off zero. -/
theorem count_tick (t : Timer) (hrun : m.state = .running) : t.count m.tick = t.count m - 1 := by
  rw [Machine.tick, if_pos hrun]
  cases t <;> exact Countdown.toNat_count_tick _

/-- A program is loaded beside the timers. -/
theorem count_load (t : Timer) (m : Machine) (program : List UInt8) :
    t.count (m.load program).machine = t.count m := by
  rw [Machine.load]
  cases m.memory.load? program <;> cases t <;> rfl

/-- A reset stops both timers. -/
theorem count_reset (t : Timer) (m : Machine) : t.count m.reset.machine = 0 := by
  rw [Machine.reset_eq, Outcome.machine_after, count_load]
  cases t <;> rfl

/-- To skip an instruction does not take time. -/
theorem count_skip (t : Timer) (m : Machine) : t.count m.skip.machine = t.count m := by
  rw [Machine.skip]
  split <;> cases t <;> rfl

/-- A report about a key does not touch the timers, refused or not. -/
theorem count_reportKey (t : Timer) (m : Machine) (k : Except Fault Keypad) :
    t.count (m.reportKey k) = t.count m := by
  cases k <;> cases t <;> rfl

/-- A cycle sets the timer if it executes the instruction for it. The others that touch a timer
set the other one. -/
theorem turn_cycle (t : Timer) (m : Machine) : t.Turn ⟨m, .ask .cycle⟩ := by
  cases m.cycleTurn with
  | @executes i hi =>
    obtain ⟨heffect, -⟩ := Machine.effect?_of_executed hi
    by_cases hset : ∃ x, i = t.setter x
    · obtain ⟨x, rfl⟩ := hset
      obtain ⟨v, hv, h⟩ := count_of_setter heffect
      exact .sets rfl ⟨rfl, hi⟩ hv h
    · exact .keeps rfl (count_of_touches (Machine.effect?_touches heffect) (not_exists.1 hset))
  | fails _ hmachine =>
    refine .keeps rfl ((congrArg t.count hmachine).trans ?_)
    cases t <;> rfl
  | stays hcycle | takes _ hcycle | loses hcycle =>
    refine .keeps rfl ((congrArg (t.count ·.machine) hcycle).trans ?_)
    cases t <;> rfl

/-- What a move does to a timer. -/
theorem turn (t : Timer) (hp : p.move.IsSingle) : t.Turn p := by
  obtain ⟨m, a⟩ := p
  cases a with
  | pace nanos | notice => exact .keeps rfl (by cases t <;> rfl)
  | ask o =>
    cases o with
    | advance nanos => exact hp.elim
    | cycle => exact t.turn_cycle m
    | tick =>
      by_cases hrun : m.state = .running
      · exact .counts (Moment.counts_eq_true_iff.2 ⟨rfl, hrun⟩) (t.count_tick hrun)
      · have hcounts : ¬Moment.counts ⟨m, .ask .tick⟩ = true := fun h =>
          hrun (Moment.counts_eq_true_iff.1 h).2
        exact .keeps (Bool.not_eq_true _ ▸ hcounts)
          (congrArg t.count (Machine.tick_of_not_running hrun))
    | reset => exact .resets rfl rfl (t.count_reset m)
    | load program => exact .keeps rfl (t.count_load m program)
    | skip => exact .keeps rfl (t.count_skip m)
    | keyDown key | keyUp key => exact .keeps rfl (t.count_reportKey m _)
    | halt | clearPending | requestQuit | releaseKeys => exact .keeps rfl (by cases t <;> rfl)

/-- The count of a timer that is not set, after some moves. -/
theorem count_makeAll (hsingle : ∀ a ∈ moves, a.IsSingle)
    (hset : ∀ p ∈ m.moments moves, ¬t.Sets p) :
    t.count (m.makeAll moves) = t.count m - (m.moments moves).countP Moment.counts := by
  induction moves generalizing m with
  | nil => rfl
  | cons a moves ih =>
    obtain ⟨ha, hsingle⟩ := List.forall_mem_cons.1 hsingle
    obtain ⟨hfirst, hset⟩ := List.forall_mem_cons.1 hset
    rw [Machine.moments, List.countP_cons]
    refine (ih hsingle hset).trans ?_
    cases t.turn (p := ⟨m, a⟩) ha with
    | keeps hcounts h => rw [h, hcounts, if_neg Bool.false_ne_true, Nat.add_zero]
    | counts hcounts h => rw [h, hcounts, if_pos rfl, Nat.sub_sub, Nat.add_comm 1]
    | sets _ hexec => exact absurd (.inr ⟨_, hexec⟩) hfirst
    | resets _ hreset => exact absurd (.inl hreset) hfirst

end Timer

/-! ### The report of the end -/

namespace Machine

/-- A cycle does not report the end of the sound, also if it stops it. -/
theorem soundExpired_notMem_cycle (m : Machine) : .soundExpired ∉ m.cycle.log.toList := by
  cases hstate : m.state with
  | halted =>
    rw [cycle, hstate]
    exact List.not_mem_nil
  | waiting r =>
    rw [cycle, hstate]
    simp only [poll]
    cases m.keypad.pending with
    | none => exact List.not_mem_nil
    | some key =>
      dsimp only
      cases m.registers.set? r key <;> simp
  | running =>
    cases hfetch : m.fetch? with
    | error f =>
      rw [cycle_of_fetch_error hstate hfetch]
      simp
    | ok q =>
      obtain ⟨word, i⟩ := q
      rw [cycle_of_fetch hstate hfetch]
      cases m.effect? i with
      | error f => simp
      | ok m' => cases i <;> simp [eventsOf]

/-- To load a program does not report the end of the sound. -/
theorem soundExpired_notMem_load (m : Machine) (program : List UInt8) :
    .soundExpired ∉ (m.load program).log.toList := by
  rw [load]
  cases m.memory.load? program <;> simp

/-- A reset does not report the end of the sound, although it stops it. -/
theorem soundExpired_notMem_reset (m : Machine) : .soundExpired ∉ m.reset.log.toList := by
  rw [reset_eq, Outcome.log_after, Array.toList_append, List.mem_append, not_or]
  exact ⟨by simp, soundExpired_notMem_load _ _⟩

/-- A halt does not report the end of the sound. -/
theorem soundExpired_notMem_halt (m : Machine) : .soundExpired ∉ m.haltLog.toList := by
  rw [haltLog]
  split <;> simp

/-- To skip an instruction does not report the end of the sound. -/
theorem soundExpired_notMem_skip (m : Machine) : .soundExpired ∉ m.skip.log.toList := by
  rw [skip]
  split <;> simp

end Machine

namespace Moment

variable {p : Moment}

/-- The end of the sound is reported by the tick that makes it, and by nothing else. -/
theorem expiries_log (hp : p.move.IsSingle) :
    Event.expiries p.log.toList = if p.expires then 1 else 0 := by
  obtain ⟨m, a⟩ := p
  cases a with
  | pace nanos => rfl
  | notice => exact Event.expiries_eq_zero (by simp [log])
  | ask o =>
    cases o with
    | advance nanos => exact hp.elim
    | cycle => exact Event.expiries_eq_zero m.soundExpired_notMem_cycle
    | load program => exact Event.expiries_eq_zero (m.soundExpired_notMem_load program)
    | reset => exact Event.expiries_eq_zero m.soundExpired_notMem_reset
    | halt => exact Event.expiries_eq_zero m.soundExpired_notMem_halt
    | skip => exact Event.expiries_eq_zero m.soundExpired_notMem_skip
    | keyDown key | keyUp key | clearPending | requestQuit | releaseKeys => rfl
    | tick =>
      change Event.expiries m.tickLog.toList = _
      have hexpires : expires ⟨m, .ask .tick⟩ = true ↔
          m.state = .running ∧ m.sound.isLast = true := by
        rw [expires, Bool.and_eq_true, counts_eq_true_iff, and_iff_right rfl]
      rw [Machine.tickLog, if_congr hexpires.symm rfl rfl]
      split
      · decide
      · rfl

end Moment

namespace Machine

variable {m : Machine} {moves : List Move} {p : Moment}

/-- How often the end of the sound is reported is how often it ends. -/
theorem expiries_told (hsingle : ∀ a ∈ moves, a.IsSingle) :
    Event.expiries (Moment.told (m.moments moves)) =
      (m.moments moves).countP Moment.expires := by
  induction moves generalizing m with
  | nil => rfl
  | cons a moves ih =>
    obtain ⟨ha, hsingle⟩ := List.forall_mem_cons.1 hsingle
    rw [moments, Moment.told, List.flatMap_cons, Event.expiries_append, List.countP_cons,
      Moment.expiries_log ha, Nat.add_comm]
    exact congrArg (· + _) (ih hsingle)

/-- The sound ends once, if there are enough ticks. -/
theorem countP_expires (hsingle : ∀ a ∈ moves, a.IsSingle)
    (hset : ∀ p ∈ m.moments moves, ¬Timer.sound.Sets p) :
    (m.moments moves).countP Moment.expires =
      if 0 < Timer.sound.count m ∧
        Timer.sound.count m ≤ (m.moments moves).countP Moment.counts then 1 else 0 := by
  induction moves generalizing m with
  | nil =>
    refine (if_neg ?_).symm
    rintro ⟨hpos, hle⟩
    exact absurd hle (Nat.not_le_of_lt hpos)
  | cons a moves ih =>
    obtain ⟨ha, hsingle⟩ := List.forall_mem_cons.1 hsingle
    obtain ⟨hfirst, hset⟩ := List.forall_mem_cons.1 hset
    have hexpires := Moment.expires_eq_true_iff (p := ⟨m, a⟩)
    rw [moments, List.countP_cons, List.countP_cons, ih hsingle hset]
    cases Timer.sound.turn (p := ⟨m, a⟩) ha with
    | keeps hcounts h =>
      have hnot : ¬Moment.expires ⟨m, a⟩ = true := fun hlast =>
        Bool.false_ne_true (hcounts.symm.trans (hexpires.1 hlast).1)
      rw [h, hcounts, if_neg hnot, if_neg Bool.false_ne_true, Nat.add_zero, Nat.add_zero]
    | counts hcounts h =>
      have hlast : Moment.expires ⟨m, a⟩ = true ↔ Timer.sound.count m = 1 :=
        hexpires.trans (and_iff_right hcounts)
      have hless : Timer.sound.count (Moment.after ⟨m, a⟩) = Timer.sound.count m - 1 := h
      rw [hless, if_congr hlast rfl rfl, if_pos hcounts]
      split_ifs <;> omega
    | sets _ hexec => exact absurd (.inr ⟨_, hexec⟩) hfirst
    | resets _ hreset => exact absurd (.inl hreset) hfirst

/-! ### Edges -/

/-- The machine sounds while something is left of the sound timer. -/
theorem isSounding_iff (m : Machine) : m.isSounding = true ↔ 0 < Timer.sound.count m := by
  rw [isSounding, Countdown.isActive, decide_eq_true_iff, Nat.pos_iff_ne_zero, ne_eq, ne_eq,
    ← UInt8.toNat_inj]
  rfl

/-- It is silent once nothing is. -/
theorem isSounding_eq_false_iff (m : Machine) :
    m.isSounding = false ↔ Timer.sound.count m = 0 := by
  rw [← Bool.not_eq_true, isSounding_iff, Nat.pos_iff_ne_zero, not_not]

end Machine

namespace Moment

/-- The edges of the sound at a move, and what is reported of them. -/
structure HasLawfulEdges (p : Moment) : Prop where
  rises : p.before.isSounding = false → p.after.isSounding = true →
    ∃ x v, p.Executes (.setSound x) ∧ p.before.registers.get? x = .ok v ∧ v ≠ 0
  falls : p.before.isSounding = true → p.after.isSounding = false →
    (∃ x, p.Executes (.setSound x) ∧ p.before.registers.get? x = .ok 0) ∨
      p.move = .ask .reset ∨ p.expires = true
  ends : p.expires = true → p.before.isSounding = true ∧ p.after.isSounding = false
  reports : Event.expiries p.log.toList = if p.expires then 1 else 0
  /-- A tick of a machine that does not run is no edge at all. -/
  ignored : p.move = .ask .tick → p.before.state ≠ .running → p.after = p.before

variable {p : Moment}

/-- The edges of a single move, from the turn that it is for the sound timer. -/
theorem hasLawfulEdges (hp : p.move.IsSingle) : p.HasLawfulEdges where
  rises hbefore hafter := by
    rw [Machine.isSounding_eq_false_iff] at hbefore
    rw [Machine.isSounding_iff] at hafter
    cases Timer.sound.turn hp with
    | keeps _ h | counts _ h | resets _ _ h => omega
    | @sets x v _ hexec hv h =>
      refine ⟨x, v, hexec, hv, ?_⟩
      rintro rfl
      exact absurd h (Nat.ne_of_gt hafter)
  falls hbefore hafter := by
    rw [Machine.isSounding_iff] at hbefore
    rw [Machine.isSounding_eq_false_iff] at hafter
    cases Timer.sound.turn hp with
    | keeps _ h => omega
    | counts hcounts h => exact .inr (.inr (expires_eq_true_iff.2 ⟨hcounts, by omega⟩))
    | @sets x v _ hexec hv h =>
      obtain rfl : v = 0 := UInt8.toNat_inj.1 (h.symm.trans hafter)
      exact .inl ⟨x, hexec, hv⟩
    | resets _ hreset => exact .inr (.inl hreset)
  ends hexpires := by
    obtain ⟨hcounts, hlast⟩ := expires_eq_true_iff.1 hexpires
    rw [Machine.isSounding_iff, Machine.isSounding_eq_false_iff]
    cases Timer.sound.turn hp with
    | counts _ h => omega
    | keeps hnot | sets hnot | resets hnot => cases hcounts.symm.trans hnot
  reports := expiries_log hp
  ignored htick hstate := by
    obtain ⟨m, a⟩ := p
    obtain rfl : a = _ := htick
    exact Machine.tick_of_not_running hstate

end Moment

/-! ### All of it -/

namespace Machine

variable {m : Machine} {x : UInt8} {moves before behind : List Move} {a : Move}

/-- The sound ends at the tick whose number is the count. -/
theorem expires_iff (hsingle : ∀ a ∈ moves, a.IsSingle)
    (hset : ∀ p ∈ m.moments moves, ¬Timer.sound.Sets p) (hsplit : moves = before ++ a :: behind) :
    Moment.expires ⟨m.makeAll before, a⟩ = true ↔
      Moment.counts ⟨m.makeAll before, a⟩ = true ∧
        (m.moments before).countP Moment.counts + 1 = Timer.sound.count m := by
  subst hsplit
  rw [moments_append] at hset
  rw [Moment.expires_eq_true_iff,
    Timer.count_makeAll (fun b hb => hsingle b (List.mem_append_left _ hb))
      fun p hp => hset p (List.mem_append_left _ hp)]
  refine and_congr_right fun _ => ?_
  omega

/-- The cycle that executes the instruction for a timer sets it. -/
theorem executed?_setter {t : Timer} (h : m.executed? = some (t.setter x)) :
    ∃ v, m.registers.get? x = .ok v ∧ t.count m.cycle.machine = v.toNat :=
  Timer.count_of_setter (effect?_of_executed h).1

/-- The two timers of a machine.

A run comes to single moves, which lead to the same machine and tell the same events. The sound
begins at no move but an `FX18` that sets the timer to a count above zero, and ends at no move but
an `FX18` that sets it to zero, a reset, or a tick that counts and finds the timer at one. That tick
logs the line for the end of the sound, and no other move does. A tick of a machine that waits or is
halted changes nothing.

After an `FX15` or an `FX18`, and any single moves behind it, none of which sets the timer again,
the count of the timer is what it was set to, less the ticks that have counted since. If it is the
sound timer, the line has been logged once, if there have been enough ticks to end the sound and if
there was one, and the tick that logged it is the one whose number is the count. -/
theorem timers_lawful :
    (∀ (m : Machine) (ops : List Operation),
      let moves := m.movesThrough ops
      (∀ a ∈ moves, a.IsSingle) ∧ m.makeAll moves = m.afterAll ops ∧
      Moment.told (m.moments moves) = (m.reports ops).toList) ∧
    (∀ p : Moment, p.move.IsSingle → p.HasLawfulEdges) ∧
    (∀ e : Event, e.line = "DEBUG sound timer expired" ↔ e = .soundExpired) ∧
    ∀ (t : Timer) (m : Machine) (x : UInt8), m.executed? = some (t.setter x) →
      let n := m.cycle.machine
      ∃ v, m.registers.get? x = .ok v ∧
        ∀ moves, (∀ a ∈ moves, a.IsSingle) → (∀ p ∈ n.moments moves, ¬t.Sets p) →
          let ticks := (n.moments moves).countP Moment.counts
          t.count (n.makeAll moves) = v.toNat - ticks ∧
          (t = .sound →
            Event.expiries (Moment.told (n.moments moves)) =
              (if 0 < v.toNat ∧ v.toNat ≤ ticks then 1 else 0) ∧
            ∀ before a behind, moves = before ++ a :: behind →
              (Moment.expires ⟨n.makeAll before, a⟩ = true ↔
                Moment.counts ⟨n.makeAll before, a⟩ = true ∧
                  (n.moments before).countP Moment.counts + 1 = v.toNat)) := by
  refine ⟨fun m ops => ⟨fun a => isSingle_of_mem_movesThrough, m.makeAll_movesThrough ops⟩,
    fun p => Moment.hasLawfulEdges, fun e => Event.line_eq_iff, ?_⟩
  intro t m x hexec n
  obtain ⟨v, hv, hcount⟩ := executed?_setter hexec
  refine ⟨v, hv, ?_⟩
  intro moves hsingle hset ticks
  constructor
  · rw [Timer.count_makeAll hsingle hset, hcount]
  · rintro rfl
    refine ⟨?_, fun before a behind hsplit => ?_⟩
    · rw [expiries_told hsingle, countP_expires hsingle hset, hcount]
    · rw [expires_iff hsingle hset hsplit, hcount]

/-- A machine with a 2 in each register that is about to execute `F018`. -/
def sounding : Machine :=
  { ((powerOn (.start 700 60) .zeros).load [0xF0, 0x18]).machine with
    registers := { Registers.powerOn with data := Vector.replicate registerCount 2 } }

/-- Its next cycle sets the sound timer from register 0. -/
theorem executed?_sounding : sounding.executed? = some (.setSound 0) := by
  have hfetch : sounding.fetch? = .ok _ :=
    fetch?_load [0xF0, 0x18] (i := .setSound 0) (by decide) rfl (k := 0)
      (by decide) rfl (by rw [Instruction.Encodable]; decide) (by decide)
  exact executed?_of_effect rfl hfetch rfl

/-- The second tick ends the sound, and the one behind the halt does nothing more. -/
theorem timers_lawful_sounding :
    let moves : List Move := [.ask .tick, .pace 5, .ask .tick, .ask .halt, .ask .tick]
    Timer.sound.count (sounding.cycle.machine.makeAll moves) = 0 ∧
      Event.expiries (Moment.told (sounding.cycle.machine.moments moves)) = 1 ∧
      Moment.expires ⟨sounding.cycle.machine.makeAll [.ask .tick, .pace 5], .ask .tick⟩ = true := by
  intro moves
  obtain ⟨-, -, -, hlaw⟩ := timers_lawful
  obtain ⟨v, hv, hruns⟩ := hlaw .sound sounding 0 executed?_sounding
  obtain rfl : 2 = v := Except.ok.inj hv
  have hrun : sounding.cycle.machine.state = .running := by
    rcases (effect?_keeps (effect?_of_executed executed?_sounding).1).2 with h | ⟨x, hx, -⟩
    · rw [h]
      rfl
    · cases hx
  -- from here on it does not matter which machine it is
  obtain ⟨n, hn⟩ : ∃ n, n = sounding.cycle.machine := ⟨_, rfl⟩
  rw [← hn] at hrun hruns ⊢
  have hsingle : ∀ a ∈ moves, a.IsSingle := by simp [moves, Move.IsSingle]
  have hset : ∀ p ∈ n.moments moves, ¬Timer.sound.Sets p := by
    simp [moves, moments, Timer.Sets, Moment.Executes]
  have hfirst : Moment.counts ⟨n, .ask .tick⟩ = true :=
    Moment.counts_eq_true_iff.2 ⟨rfl, hrun⟩
  have hsecond : Moment.counts ⟨n.tick.paced 5, .ask .tick⟩ = true :=
    Moment.counts_eq_true_iff.2 ⟨rfl, n.state_tick.trans hrun⟩
  have hticks : (n.moments moves).countP Moment.counts = 2 :=
    (List.countP_cons_of_pos hfirst).trans
      (congrArg (· + 1) (List.countP_cons_of_pos hsecond))
  have hone : (n.moments [.ask .tick, .pace 5]).countP Moment.counts = 1 :=
    List.countP_cons_of_pos hfirst
  obtain ⟨hcount, hsound⟩ := hruns moves hsingle hset
  obtain ⟨hexpiries, hlast⟩ := hsound rfl
  refine ⟨hcount.trans (by rw [hticks]; rfl), hexpiries.trans (by rw [hticks]; rfl), ?_⟩
  have hsplit := hlast [.ask .tick, .pace 5] (.ask .tick) [.ask .halt, .ask .tick] rfl
  exact hsplit.2 ⟨hsecond, by rw [hone]; rfl⟩

end Machine

end Chip8
