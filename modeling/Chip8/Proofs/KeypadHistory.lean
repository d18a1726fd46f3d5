import Chip8.Proofs.KeyWait
import Mathlib.Data.List.DropRight
import Mathlib.Data.List.Forall2
import Mathlib.Data.List.Induction
import Mathlib.Data.List.ReduceOption

/-!
# The history of a keypad

A keypad keeps little of what it is told: which keys are held, at most one press, and whether
somebody has asked to quit. Here all of what it is told is written down, and what it keeps is
read off the history. A key is held if the latest report about it says so. The press that waits
to be taken is the first since a press was last taken or forgotten. A press is made when a key goes
down that was up, and whether it was up is again a matter of history.

What an event does to the keypad is put beside what it does to each part of the history, and so
each law is shown by induction on the history from its end.

## Main statements

* `KeypadSession.isPressed_afterAll`, `KeypadSession.pending_afterAll`,
  `KeypadSession.quit_afterAll`: what a keypad keeps.
* `KeypadSession.taken_afterAll`, `KeypadSession.snapshots_afterAll`: what is had from it.
* `KeypadSession.reduceOption_taken_sublist`: no press is taken twice.
* `KeypadSession.told_by_history`: all of this together.
-/

namespace Chip8

/-- What can happen to a keypad. -/
inductive KeypadEvent where
  | down (key : UInt8)
  | up (key : UInt8)
  /-- The pending press is taken. -/
  | take
  /-- The pending press is forgotten. -/
  | clear
  | quit
  | reset
  /-- Which keys are held is copied, and the copy is kept. -/
  | snapshot
deriving DecidableEq

namespace KeypadEvent

/-- The event reports that the key is down, or that it is up. -/
def reports (key : UInt8) : KeypadEvent → Bool
  | .down key' | .up key' => key' = key
  | _ => false

/-- Whatever press was pending, none is after the event. -/
def consumes : KeypadEvent → Bool
  | .take | .clear | .reset => true
  | _ => false

/-! ### Histories -/

/-- Some events, each with those before it. -/
def history : List KeypadEvent → List (List KeypadEvent × KeypadEvent)
  | [] => []
  | e :: rest => ([], e) :: (history rest).map fun s => (e :: s.1, s.2)

/-- The events since the last reset. -/
def sinceReset (events : List KeypadEvent) : List KeypadEvent :=
  events.rtakeWhile (· ≠ .reset)

/-- The latest report about a key since the last reset. -/
def lastReport? (events : List KeypadEvent) (key : UInt8) : Option KeypadEvent :=
  ((sinceReset events).filter (·.reports key)).getLast?

/-- A key is held after some events: it exists, and the latest that was reported about it is that
it is down. -/
def Holds (events : List KeypadEvent) (key : UInt8) : Prop :=
  key.toNat < 16 ∧ lastReport? events key = some (.down key)

/-- The history is finite, so the latest report can be looked up. -/
instance (events : List KeypadEvent) (key : UInt8) : Decidable (Holds events key) :=
  inferInstanceAs (Decidable (_ ∧ _))

/-- The key that is pressed by an event after some others. It goes down, exists and was up. -/
def pressed? : List KeypadEvent × KeypadEvent → Option UInt8
  | (before, .down key) => if key.toNat < 16 ∧ ¬Holds before key then some key else none
  | _ => none

/-- The keys that are pressed by some events, in order. -/
def presses (events : List KeypadEvent) : List UInt8 :=
  (history events).filterMap pressed?

/-- The first key that is pressed since the last event that left no press pending. -/
def firstPress? (events : List KeypadEvent) : Option UInt8 :=
  (((history events).rtakeWhile (!·.2.consumes)).filterMap pressed?).head?

/-- The last event has all the others before it. -/
theorem history_concat (events : List KeypadEvent) (e : KeypadEvent) :
    history (events ++ [e]) = history events ++ [(events, e)] := by
  induction events with
  | nil => rfl
  | cons e' events ih =>
    rw [List.cons_append, history, ih, List.map_append]
    rfl

/-- A reset forgets everything, and another event is one more since the last. -/
theorem sinceReset_concat (events : List KeypadEvent) (e : KeypadEvent) :
    sinceReset (events ++ [e]) = if e = .reset then [] else sinceReset events ++ [e] := by
  rw [sinceReset, List.rtakeWhile_concat]
  by_cases h : e = .reset <;> simp [h, sinceReset]

/-- A reset makes all reports about a key forgotten, and a report about it the others. -/
theorem lastReport?_concat (events : List KeypadEvent) (e : KeypadEvent) (key : UInt8) :
    lastReport? (events ++ [e]) key =
      if e = .reset then none else if e.reports key then some e else lastReport? events key := by
  rw [lastReport?, sinceReset_concat]
  by_cases hreset : e = .reset
  · rw [if_pos hreset, if_pos hreset]
    rfl
  · rw [if_neg hreset, if_neg hreset, List.filter_append]
    cases hreports : e.reports key <;> simp [hreports, lastReport?]

/-- The last event presses a key or it does not. -/
theorem presses_concat (events : List KeypadEvent) (e : KeypadEvent) :
    presses (events ++ [e]) = presses events ++ (pressed? (events, e)).toList := by
  rw [presses, history_concat, List.filterMap_append, presses]
  cases h : pressed? (events, e) <;> simp [h]

/-- A press that waits is not displaced by a later one. -/
theorem firstPress?_concat (events : List KeypadEvent) (e : KeypadEvent) :
    firstPress? (events ++ [e]) =
      if e.consumes then none else (firstPress? events).or (pressed? (events, e)) := by
  rw [firstPress?, history_concat, List.rtakeWhile_concat]
  cases hconsumes : e.consumes with
  | true => rfl
  | false =>
    rw [if_pos Bool.not_false, List.filterMap_append, List.head?_append, firstPress?]
    cases h : pressed? (events, e) <;> simp [h]

end KeypadEvent

open KeypadEvent

/-! ### One event -/

namespace Keypad

variable {k : Keypad} {key : UInt8}

/-- The keypad after an event, or why the event is refused. -/
def request? (k : Keypad) : KeypadEvent → Except Fault Keypad
  | .down key => k.keyDown? key
  | .up key => k.keyUp? key
  | .take | .clear => .ok k.clearPending
  | .quit => .ok k.requestQuit
  | .reset => .ok .idle
  | .snapshot => .ok k

/-- The keypad after an event, be it that the event is refused. -/
def after (k : Keypad) (e : KeypadEvent) : Keypad :=
  match k.request? e with
  | .ok k' => k'
  | .error _ => k

/-- Only a report about a key that does not exist is refused. -/
theorem request?_of_not_lt (hkey : ¬key.toNat < keyCount) :
    k.request? (.down key) = .error (.invalidIndex key) ∧
      k.request? (.up key) = .error (.invalidIndex key) :=
  ⟨dif_neg hkey, dif_neg hkey⟩

/-- A refused report leaves the keypad alone. -/
theorem after_of_not_lt (k : Keypad) (hkey : ¬key.toNat < keyCount) :
    k.after (.down key) = k ∧ k.after (.up key) = k := by
  obtain ⟨hdown, hup⟩ := request?_of_not_lt (k := k) hkey
  rw [after, hdown, after, hup]
  exact ⟨rfl, rfl⟩

/-- The key that an event presses at a keypad. -/
def press? (k : Keypad) : KeypadEvent → Option UInt8
  | .down key => if key.toNat < keyCount ∧ k.isPressed key = false then some key else none
  | _ => none

/-- A report that a key is down changes at most the held keys and the pending press. -/
theorem after_down (k : Keypad) (key : UInt8) :
    k.after (.down key) =
      { k with
        held := (k.after (.down key)).held
        pending := k.pending.or (k.press? (.down key)) } := by
  by_cases hkey : key.toNat < keyCount
  · rw [after, request?, keyDown?, dif_pos hkey]
    cases hpressed : k.isPressed key <;> simp [press?, hkey, hpressed]
  · rw [(after_of_not_lt k hkey).1]
    simp [press?, hkey]

/-- A report that a key is up changes at most the held keys. -/
theorem after_up (k : Keypad) (key : UInt8) :
    k.after (.up key) = { k with held := (k.after (.up key)).held } := by
  by_cases hkey : key.toNat < keyCount
  · rw [after, request?, keyUp?, dif_pos hkey]
  · rw [(after_of_not_lt k hkey).2]

/-- A press is pending if one was, or else the one that the event makes. -/
theorem pending_after (k : Keypad) (e : KeypadEvent) :
    (k.after e).pending = if e.consumes then none else k.pending.or (k.press? e) := by
  cases e with
  | down key => exact congrArg pending (k.after_down key)
  | up key => exact (congrArg pending (k.after_up key)).trans Option.or_none.symm
  | quit | snapshot => exact Option.or_none.symm
  | take | clear | reset => rfl

/-- A request to quit stays until the next reset. -/
theorem quit_after (k : Keypad) (e : KeypadEvent) :
    (k.after e).quit = if e = .reset then false else k.quit || e = .quit := by
  cases e with
  | down key => exact (congrArg quit (k.after_down key)).trans (Bool.or_false _).symm
  | up key => exact (congrArg quit (k.after_up key)).trans (Bool.or_false _).symm
  | take | clear | snapshot => exact (Bool.or_false _).symm
  | quit => exact (Bool.or_true _).symm
  | reset => rfl

/-- A key that does not exist is never pressed. -/
theorem isPressed_of_not_lt (k : Keypad) (hkey : ¬key.toNat < keyCount) :
    k.isPressed key = false :=
  Bool.eq_false_iff.2 fun h => hkey (lt_of_isPressed h)

/-- At a new keypad no key is pressed. -/
theorem isPressed_idle (key : UInt8) : idle.isPressed key = false := by
  by_cases hkey : key.toNat < keyCount
  · simp [isPressed, HeldKeys.contains, idle, hkey]
  · exact idle.isPressed_of_not_lt hkey

/-- Of the keys that exist, a report changes the one that it is about. -/
theorem isPressed_after_report (k : Keypad) (key' : UInt8) (hkey : key.toNat < keyCount) :
    (k.after (.down key')).isPressed key = (if key = key' then true else k.isPressed key) ∧
      (k.after (.up key')).isPressed key = (if key = key' then false else k.isPressed key) := by
  by_cases hkey' : key'.toNat < keyCount
  · rw [after, request?, keyDown?, dif_pos hkey', after, request?, keyUp?, dif_pos hkey']
    exact ⟨contains_set hkey' true key, contains_set hkey' false key⟩
  · obtain ⟨hdown, hup⟩ := k.after_of_not_lt hkey'
    have hne : key ≠ key' := fun heq => hkey' (heq ▸ hkey)
    rw [hdown, hup, if_neg hne, if_neg hne]
    exact ⟨rfl, rfl⟩

/-- A reset lets go of all keys, and else the latest report about a key decides. -/
theorem isPressed_after (k : Keypad) (e : KeypadEvent) (hkey : key.toNat < keyCount) :
    (k.after e).isPressed key =
      if e = .reset then false
      else if e.reports key then decide (e = .down key) else k.isPressed key := by
  cases e with
  | down key' =>
    rw [(k.isPressed_after_report key' hkey).1]
    by_cases heq : key = key' <;> simp [heq, eq_comm, reports]
  | up key' =>
    rw [(k.isPressed_after_report key' hkey).2]
    by_cases heq : key = key' <;> simp [heq, eq_comm, reports]
  | reset => exact isPressed_idle key
  | take | clear | quit | snapshot => rfl

end Keypad

/-! ### All events -/

/-- A keypad, and what has been had from it. -/
structure KeypadSession where
  keypad : Keypad
  /-- What those got who took the pending press, in order. -/
  taken : List (Option UInt8)
  /-- The copies of which keys were held, in order. -/
  snapshots : List HeldKeys

namespace KeypadSession

/-- A new keypad. -/
def start : KeypadSession where
  keypad := .idle
  taken := []
  snapshots := []

/-- What an event makes of a keypad, and what is had from it. -/
def after (s : KeypadSession) (e : KeypadEvent) : KeypadSession where
  keypad := s.keypad.after e
  taken := if e = .take then s.taken ++ [s.keypad.pending] else s.taken
  snapshots := if e = .snapshot then s.snapshots ++ [s.keypad.held] else s.snapshots

/-- What is had from a keypad does not affect it. -/
theorem keypad_after (s : KeypadSession) (e : KeypadEvent) :
    (s.after e).keypad = s.keypad.after e := rfl

/-- The pending press is had when it is taken, also if there is none. -/
theorem taken_after (s : KeypadSession) (e : KeypadEvent) :
    (s.after e).taken = if e = .take then s.taken ++ [s.keypad.pending] else s.taken := rfl

/-- A snapshot shows the keys that are held at that time. -/
theorem snapshots_after (s : KeypadSession) (e : KeypadEvent) :
    (s.after e).snapshots =
      if e = .snapshot then s.snapshots ++ [s.keypad.held] else s.snapshots := rfl

/-- The same for some events at a new keypad, in order. -/
def afterAll (events : List KeypadEvent) : KeypadSession :=
  events.foldl after start

/-- The last event comes to a keypad that has seen the others. -/
theorem afterAll_concat (events : List KeypadEvent) (e : KeypadEvent) :
    afterAll (events ++ [e]) = (afterAll events).after e :=
  List.foldl_concat ..

/-- The keys are held that the history says are held. -/
theorem isPressed_afterAll (events : List KeypadEvent) (key : UInt8) :
    (afterAll events).keypad.isPressed key = true ↔ Holds events key := by
  by_cases hkey : key.toNat < keyCount
  · refine Iff.trans ?_ (and_iff_right hkey).symm
    induction events using List.reverseRecOn with
    | nil => exact iff_of_false (ne_true_of_eq_false (Keypad.isPressed_idle key)) nofun
    | append_singleton events e ih =>
      rw [afterAll_concat, keypad_after, Keypad.isPressed_after _ _ hkey, lastReport?_concat]
      split
      · exact iff_of_false nofun nofun
      · split
        · rw [decide_eq_true_iff, Option.some.injEq]
        · exact ih
  · rw [Keypad.isPressed_of_not_lt _ hkey]
    exact iff_of_false nofun fun h => hkey h.1

/-- So an event presses a key at the keypad if the history says so. -/
theorem press?_afterAll (events : List KeypadEvent) (e : KeypadEvent) :
    (afterAll events).keypad.press? e = pressed? (events, e) := by
  cases e with
  | down key =>
    simp only [Keypad.press?, pressed?, ← isPressed_afterAll, Bool.not_eq_true]
    rfl
  | _ => rfl

/-- The pending press is the first that has not been taken or forgotten. -/
theorem pending_afterAll (events : List KeypadEvent) :
    (afterAll events).keypad.pending = firstPress? events := by
  induction events using List.reverseRecOn with
  | nil => rfl
  | append_singleton events e ih =>
    rw [afterAll_concat, keypad_after, Keypad.pending_after, firstPress?_concat, ih,
      press?_afterAll]

/-- Somebody has asked to quit if the history since the last reset says so. -/
theorem quit_afterAll (events : List KeypadEvent) :
    (afterAll events).keypad.quit = true ↔ .quit ∈ sinceReset events := by
  induction events using List.reverseRecOn with
  | nil => exact iff_of_false nofun nofun
  | append_singleton events e ih =>
    rw [afterAll_concat, keypad_after, Keypad.quit_after, sinceReset_concat]
    split
    · exact iff_of_false nofun nofun
    · rw [Bool.or_eq_true, decide_eq_true_iff, List.mem_append, List.mem_singleton, ih, eq_comm]

/-- Whoever takes the pending press gets the first since the last time. -/
theorem taken_afterAll (events : List KeypadEvent) :
    (afterAll events).taken =
      ((history events).filter (·.2 = .take)).map fun s => firstPress? s.1 := by
  induction events using List.reverseRecOn with
  | nil => rfl
  | append_singleton events e ih =>
    rw [afterAll_concat, taken_after, history_concat, List.filter_append, List.map_append, ← ih]
    by_cases htake : e = .take <;> simp [htake, pending_afterAll]

/-- Each copy shows what was held when it was made. -/
theorem snapshots_afterAll (events : List KeypadEvent) :
    List.Forall₂ (fun s held => ∀ key, HeldKeys.contains held key = true ↔ Holds s.1 key)
      ((history events).filter (·.2 = .snapshot)) (afterAll events).snapshots := by
  induction events using List.reverseRecOn with
  | nil => exact .nil
  | append_singleton events e ih =>
    rw [afterAll_concat, snapshots_after, history_concat, List.filter_append]
    by_cases hsnapshot : e = .snapshot
    · rw [if_pos hsnapshot, List.filter_singleton]
      simp only [hsnapshot, decide_true, cond_true]
      exact List.rel_append ih (.cons (isPressed_afterAll events) .nil)
    · simpa [hsnapshot] using ih

/-- The presses that have been taken, and the one that is pending, are some of those that were
made, each once and in order. -/
theorem reduceOption_taken_sublist (events : List KeypadEvent) :
    ((afterAll events).taken.reduceOption ++ (firstPress? events).toList).Sublist
      (presses events) := by
  induction events using List.reverseRecOn with
  | nil => exact .refl _
  | append_singleton events e ih =>
    rw [afterAll_concat, taken_after, presses_concat, firstPress?_concat]
    by_cases htake : e = .take
    · -- the pending press has moved to the taken ones
      subst htake
      rw [if_pos rfl, pending_afterAll, List.reduceOption_append]
      cases h : firstPress? events <;> simpa [h, consumes, pressed?, List.reduceOption] using ih
    · rw [if_neg htake]
      refine List.Sublist.trans ?_ (ih.append_right _)
      rw [List.append_assoc]
      refine .append_left ?_ _
      cases e.consumes with
      | true => exact List.nil_sublist _
      | false =>
        cases firstPress? events with
        | none => exact .refl _
        | some key => exact List.sublist_append_left _ _

/-- A copy that has been made is not changed by what happens later. -/
theorem snapshots_append (events later : List KeypadEvent) :
    (afterAll events).snapshots <+: (afterAll (events ++ later)).snapshots := by
  induction later using List.reverseRecOn with
  | nil => exact (List.append_nil events).symm ▸ List.prefix_rfl
  | append_singleton later e ih =>
    rw [← List.append_assoc, afterAll_concat, snapshots_after]
    split
    · exact ih.trans (List.prefix_append _ _)
    · exact ih

/-- **A keypad is told by its history.** After any events at a new keypad, a key is held if and
only if it exists and the latest report about it since the last reset is that it is down, and
somebody has asked to quit if and only if that was since the last reset. Whoever takes the pending
press gets the first key that went down, and was up, since a press was last taken or forgotten, or
nothing if there is no such key. No press is taken twice, and a key that is reported down while
it is held makes no press. A copy of which keys are held goes on showing what was held when it was
made.

A report about a key that does not exist is refused and changes nothing, whatever the keypad, and
no other report is refused. -/
theorem told_by_history :
    (∀ events : List KeypadEvent,
      let s := afterAll events
      (∀ key, s.keypad.isPressed key = true ↔
        key.toNat < 16 ∧ lastReport? events key = some (.down key)) ∧
      (s.keypad.quit = true ↔ .quit ∈ sinceReset events) ∧
      s.keypad.pending = firstPress? events ∧
      s.taken = ((history events).filter (·.2 = .take)).map (fun p => firstPress? p.1) ∧
      s.taken.reduceOption.Sublist (presses events) ∧
      List.Forall₂ (fun p held => ∀ key, HeldKeys.contains held key = true ↔ Holds p.1 key)
        ((history events).filter (·.2 = .snapshot)) s.snapshots ∧
      ∀ later, s.snapshots <+: (afterAll (events ++ later)).snapshots) ∧
    ∀ (s : KeypadSession) (code : UInt8),
      (code.toNat < 16 →
        (∃ k, s.keypad.keyDown? code = .ok k) ∧ ∃ k, s.keypad.keyUp? code = .ok k) ∧
      (16 ≤ code.toNat →
        s.keypad.keyDown? code = .error (.invalidIndex code) ∧
        s.keypad.keyUp? code = .error (.invalidIndex code) ∧
        s.after (.down code) = s ∧ s.after (.up code) = s ∧
        s.keypad.isPressed code = false) := by
  refine ⟨fun events => ⟨isPressed_afterAll events, quit_afterAll events,
    pending_afterAll events, taken_afterAll events, ?_, snapshots_afterAll events,
    snapshots_append events⟩, fun s code => ⟨fun hlt => ?_, fun hge => ?_⟩⟩
  · exact (List.sublist_append_left _ _).trans (reduceOption_taken_sublist events)
  · exact ⟨⟨_, dif_pos hlt⟩, ⟨_, dif_pos hlt⟩⟩
  · have hcode : ¬code.toNat < keyCount := Nat.not_lt.2 hge
    obtain ⟨hdown, hup⟩ := Keypad.request?_of_not_lt (k := s.keypad) hcode
    obtain ⟨hkept, hkept'⟩ := s.keypad.after_of_not_lt hcode
    refine ⟨hdown, hup, ?_, ?_, s.keypad.isPressed_of_not_lt hcode⟩
    · exact congrArg (fun k => { s with keypad := k }) hkept
    · exact congrArg (fun k => { s with keypad := k }) hkept'

/-- Of two keys that are held the first is taken, and once. A reported key that is held already
makes no press, and there is no key 16. -/
theorem told_by_history_twoKeys :
    let events : List KeypadEvent := [.down 7, .down 9, .take, .down 7, .take, .snapshot,
      .up 7, .down 16, .quit]
    let s := afterAll events
    s.keypad.isPressed 9 = true ∧ s.keypad.isPressed 7 = false ∧ s.keypad.isPressed 16 = false ∧
      s.keypad.quit = true ∧ s.taken = [some 7, none] ∧
      (∃ held, s.snapshots = [held] ∧ HeldKeys.contains held 7 = true) ∧
      s.keypad.keyDown? 16 = .error (.invalidIndex 16) := by
  intro events s
  obtain ⟨hrun, hcodes⟩ := told_by_history
  obtain ⟨hpressed, hquit, -, htaken, -, hsnapshots, -⟩ := hrun events
  obtain ⟨hrefused, -, -, -, hreleased⟩ := (hcodes s 16).2 (by decide)
  refine ⟨(hpressed 9).2 (by decide), ?_, hreleased, hquit.2 (by decide), htaken.trans (by decide),
    ?_, hrefused⟩
  · rw [← Bool.not_eq_true, hpressed 7]
    decide
  · have hone : (history events).filter (·.2 = .snapshot) =
        [([.down 7, .down 9, .take, .down 7, .take], .snapshot)] := by decide
    rw [hone] at hsnapshots
    obtain ⟨held, _, hshows, hnil, hheld⟩ := List.forall₂_cons_left_iff.1 hsnapshots
    rw [List.forall₂_nil_left_iff.1 hnil] at hheld
    exact ⟨held, hheld, (hshows 7).2 (by decide)⟩

end KeypadSession

end Chip8
