import Chip8.Host.Screen
import Chip8.Proofs.KeyIndependence
import Chip8.Proofs.KeyWait
import Mathlib.Data.List.Find
import Mathlib.Data.List.Induction
import Mathlib.Data.List.Nodup

/-!
# The keyboard of the host

A machine is played on at a window. From time to time the window is updated, and from then on it
answers which keys of the host are held. A poll passes the answers on to the keypad of the
machine, key by key, and in the meantime anything may be done with the machine. This module shows
that the keypad is a mirror of the keyboard after each poll, although each of the sixteen reports
of a poll works on what the others have left, and that the press that a poll makes is the one it
should be.

The window is any whose answers come from its latest updates, `LawfulHostWindow`. What the answers
are at a given moment is kept as `HostWindow.Answers`.

## Main statements

* `HostWindow.exists_mirrors`: what the reports about some keys come to.
* `HostWindow.exists_poll`: what a poll comes to.
* `Console.answers_afterAll`: the window answers from its last two updates.
* `Console.count_presses_le`: a key makes one press for each time that it is let go, and one more.
* `Console.keyboard_mirrored`: all of this, for every history of a window and a machine.
-/

namespace Chip8

/-! ### The keys of the map -/

namespace HostKey

/-- No key of the keypad is twice in the map. -/
theorem nodup_codes_keymap : (keymap.map Prod.snd).Nodup := by decide

/-- All keys of the map are keys that the keypad has. -/
theorem lt_of_mem_keymap : ∀ e ∈ keymap, e.2.toNat < keyCount := by decide

/-- No key of the keypad has two keys of the host. -/
theorem eq_of_mem_keymap {key key' : HostKey} {code : UInt8} (h : (key, code) ∈ keymap)
    (h' : (key', code) ∈ keymap) : key = key' :=
  congrArg Prod.fst (List.inj_on_of_nodup_map nodup_codes_keymap h h' rfl)

/-- Each key of the keypad has one key of the host. -/
theorem exists_unique_of_lt {code : UInt8} (h : code.toNat < keyCount) :
    ∃! key, (key, code) ∈ keymap := by
  have hcodes : ∀ n < keyCount, UInt8.ofNat n ∈ keymap.map Prod.snd := by decide
  have hmem := hcodes _ h
  rw [UInt8.ofNat_toNat] at hmem
  obtain ⟨⟨key, code'⟩, he, hcode⟩ := List.mem_map.1 hmem
  obtain rfl : code' = code := hcode
  exact ⟨key, he, fun key' he' => eq_of_mem_keymap he' he⟩

end HostKey

/-! ### Answers -/

namespace HostWindow

variable {W : Type} [HostWindow W] {w : W}

/-- What a window answers when its latest update has said which keys are held and whether it is
open, and the update before that these keys are held. -/
structure Answers (w : W) (held before : List HostKey) (opened : Bool) : Prop where
  isOpen : isOpen w = opened
  isDown : ∀ key, isDown w key = held.contains key
  isNewlyDown : ∀ key, isNewlyDown w key = (held.contains key && !before.contains key)

/-- A window that has just been opened answers as if it had been updated with no key held. -/
theorem answers_fresh [LawfulHostWindow W] : Answers (fresh : W) [] [] true where
  isOpen := LawfulHostWindow.isOpen_fresh
  isDown := LawfulHostWindow.isDown_fresh
  isNewlyDown := LawfulHostWindow.isNewlyDown_fresh

/-- At an update, what was held is what was held before. -/
theorem Answers.update [LawfulHostWindow W] {held before : List HostKey} {opened : Bool}
    (h : Answers w held before opened) (held' : List HostKey) (opened' : Bool) :
    Answers (HostWindow.update w held' opened') held' held opened' where
  isOpen := LawfulHostWindow.isOpen_update w held' opened'
  isDown := LawfulHostWindow.isDown_update w held' opened'
  isNewlyDown key := by rw [LawfulHostWindow.isNewlyDown_update, h.isDown]

/-! ### Polls -/

/-- What the reports about some keys of the host make of a keypad. The first of them that is
held, and was not pressed before, makes a press, unless one was pending. -/
structure Mirrors (w : W) (entries : List (HostKey × UInt8)) (k k' : Keypad) : Prop where
  quit : k'.quit = k.quit
  pending : k'.pending =
    k.pending.or ((entries.find? fun e => isDown w e.1 && !k.isPressed e.2).map Prod.snd)
  pressed : ∀ e ∈ entries, k'.isPressed e.2 = isDown w e.1
  others : ∀ code ∉ entries.map Prod.snd, k'.isPressed code = k.isPressed code

variable {k k₁ k' : Keypad} {e : HostKey × UInt8} {entries : List (HostKey × UInt8)}

/-- Without a report the keypad stays as it is. -/
theorem Mirrors.nil (w : W) (k : Keypad) : Mirrors w [] k k where
  quit := rfl
  pending := Option.or_none.symm
  pressed := List.forall_mem_nil _
  others _ _ := rfl

/-- The report about one key leaves the others alone. -/
theorem exists_pollKey (w : W) (k : Keypad) (h : e.2.toNat < keyCount) :
    ∃ k', pollKey? w k e = .ok k' ∧ Mirrors w [e] k k' := by
  obtain ⟨key, code⟩ := e
  have hothers : ∀ (b : Bool) (code'), code' ∉ [code] →
      HeldKeys.contains (k.held.set code.toNat b h) code' = k.isPressed code' := by
    intro b code' hne
    rw [Keypad.contains_set, if_neg fun heq => hne (List.mem_singleton.2 heq)]
    rfl
  cases hdown : isDown w key with
  | true =>
    have hpoll : pollKey? w k (key, code) = .ok
        { k with
          held := k.held.set code.toNat true h
          pending := if k.isPressed code then k.pending else k.pending.or (some code) } := by
      rw [pollKey?, if_pos hdown, Keypad.keyDown?, dif_pos h]
    refine ⟨_, hpoll, rfl, ?_, ?_, hothers true⟩
    · cases hpressed : k.isPressed code <;> simp [hdown, hpressed]
    · rw [List.forall_mem_singleton, hdown, Keypad.isPressed, Keypad.contains_set, if_pos rfl]
  | false =>
    have hpoll : pollKey? w k (key, code) = .ok
        { k with held := k.held.set code.toNat false h } := by
      rw [pollKey?, if_neg (ne_true_of_eq_false hdown), Keypad.keyUp?, dif_pos h]
    refine ⟨_, hpoll, rfl, ?_, ?_, hothers false⟩
    · simp [hdown]
    · rw [List.forall_mem_singleton, hdown, Keypad.isPressed, Keypad.contains_set, if_pos rfl]

/-- Reports about different keys do not disturb each other. -/
theorem Mirrors.cons (h : Mirrors w [e] k k₁) (hrest : Mirrors w entries k₁ k')
    (hnew : e.2 ∉ entries.map Prod.snd) : Mirrors w (e :: entries) k k' where
  quit := hrest.quit.trans h.quit
  pending := by
    have hsame : (entries.find? fun e => isDown w e.1 && !k₁.isPressed e.2) =
        entries.find? fun e => isDown w e.1 && !k.isPressed e.2 := by
      refine List.find?_congr fun e' he' => ?_
      have hne : e'.2 ∉ [e].map Prod.snd := by
        rintro hmem
        obtain heq := List.mem_singleton.1 hmem
        exact hnew (heq ▸ List.mem_map_of_mem he')
      rw [h.others _ hne]
    rw [hrest.pending, h.pending, hsame, Option.or_assoc]
    cases hfirst : isDown w e.1 && !k.isPressed e.2 <;> simp [hfirst]
  pressed := by
    intro e' he'
    rcases List.mem_cons.1 he' with rfl | hmem
    · rw [hrest.others _ hnew]
      exact h.pressed _ (List.mem_singleton_self _)
    · exact hrest.pressed e' hmem
  others := by
    intro code hcode
    rw [List.map_cons, List.mem_cons, not_or] at hcode
    obtain ⟨hne, hcode⟩ := hcode
    rw [hrest.others code hcode]
    exact h.others code fun hmem => hne (List.mem_singleton.1 hmem)

/-- The reports about some different keys succeed, and each key is mirrored. -/
theorem exists_mirrors (w : W) (k : Keypad) (hlt : ∀ e ∈ entries, e.2.toNat < keyCount)
    (hnodup : (entries.map Prod.snd).Nodup) :
    ∃ k', entries.foldlM (pollKey? w) k = .ok k' ∧ Mirrors w entries k k' := by
  induction entries generalizing k with
  | nil => exact ⟨k, rfl, .nil w k⟩
  | cons e entries ih =>
    obtain ⟨he, hlt⟩ := List.forall_mem_cons.1 hlt
    rw [List.map_cons, List.nodup_cons] at hnodup
    obtain ⟨hnew, hnodup⟩ := hnodup
    obtain ⟨k₁, hfirst, hmirrors⟩ := exists_pollKey w k he
    obtain ⟨k', hrest, hmirrors'⟩ := ih k₁ hlt hnodup
    refine ⟨k', ?_, hmirrors.cons hmirrors' hnew⟩
    rw [List.foldlM_cons, hfirst, ok_bind, hrest]

/-- What a poll comes to. -/
theorem exists_poll (w : W) (k : Keypad) :
    ∃ k', poll? w k = .ok k' ∧ k'.quit = (k.quit || wantsToQuit w) ∧
      k'.pending = k.pending.or
        ((HostKey.keymap.find? fun e => isDown w e.1 && !k.isPressed e.2).map Prod.snd) ∧
      ∀ key code, (key, code) ∈ HostKey.keymap → k'.isPressed code = isDown w key := by
  obtain ⟨k', hpoll, hmirrors⟩ :=
    exists_mirrors w (if wantsToQuit w then k.requestQuit else k) HostKey.lt_of_mem_keymap
      HostKey.nodup_codes_keymap
  refine ⟨k', hpoll, ?_, ?_, fun key code he => hmirrors.pressed (key, code) he⟩
  · rw [hmirrors.quit]
    cases wantsToQuit w <;> simp [Keypad.requestQuit]
  · rw [hmirrors.pending]
    cases wantsToQuit w <;> rfl

end HostWindow

/-! ### A window and a machine -/

/-- What happens at a window and a machine. -/
inductive HostEvent where
  /-- The window is updated: some keys are now held, and it is open or not. -/
  | update (held : List HostKey) (isOpen : Bool)
  /-- The keyboard is passed on to the keypad. -/
  | poll
  /-- Something is done with the machine. -/
  | act (a : Intervention)

namespace HostEvent

/-- What the window is updated with. -/
def update? : HostEvent → Option (List HostKey × Bool)
  | .update held isOpen => some (held, isOpen)
  | .poll | .act _ => none

end HostEvent

/-- The updates among some events, in order. -/
def updates (events : List HostEvent) : List (List HostKey × Bool) :=
  events.filterMap HostEvent.update?

/-- A key of the keypad is let go. Others than the keyboard can do so as well. -/
def Intervention.letsGo (code : UInt8) : Intervention → Bool
  | .ask (.keyUp key) => key = code
  | .ask .reset | .ask .releaseKeys => true
  | .setKeypad keypad => !keypad.isPressed code
  | _ => false

/-- A window and the machine that is played on at it. -/
structure Console (W : Type) where
  window : W
  machine : Machine

namespace Console

variable {W : Type} [HostWindow W]

/-- The window and the machine after an event. -/
def after (c : Console W) : HostEvent → Console W
  | .update held isOpen => { c with window := HostWindow.update c.window held isOpen }
  | .poll => { c with machine := c.machine.reportKey (HostWindow.poll? c.window c.machine.keypad) }
  | .act a => { c with machine := (c.machine.intervene a).machine }

/-- The window and the machine after some events, in order. -/
def afterAll (c : Console W) (events : List HostEvent) : Console W :=
  events.foldl after c

/-- Some events, each with the window and the machine that it happens at. -/
def history : Console W → List HostEvent → List (Console W × HostEvent)
  | _, [] => []
  | c, e :: rest => (c, e) :: (c.after e).history rest

/-- The press that a poll makes. -/
def press? (c : Console W) : HostEvent → Option UInt8
  | .poll =>
    if c.machine.keypad.pending = none then (c.after .poll).machine.keypad.pending else none
  | _ => none

/-- The presses that the polls among some events make, in order. -/
def presses (c : Console W) (events : List HostEvent) : List UInt8 :=
  (c.history events).filterMap fun s => s.1.press? s.2

/-- A key of the keypad is let go: a poll finds that its key of the host is not held, or somebody
else does it. -/
def letsGo (c : Console W) (key : HostKey) (code : UInt8) : HostEvent → Bool
  | .update .. => false
  | .poll => !HostWindow.isDown c.window key
  | .act a => a.letsGo code

/-- How often a key of the keypad is let go during some events. -/
def timesLetGo (c : Console W) (key : HostKey) (code : UInt8) (events : List HostEvent) : Nat :=
  (c.history events).countP fun s => s.1.letsGo key code s.2

/-- What a poll makes of a window and a machine, when the latest update of the window has said
which keys are held and whether it is open, and `before` is what the update before has said. -/
structure Mirrored (c c' : Console W) (held before : List HostKey) (isOpen : Bool) : Prop where
  ok : HostWindow.poll? c.window c.machine.keypad = .ok c'.machine.keypad
  rest : c' = { c with machine := { c.machine with keypad := c'.machine.keypad } }
  pressed : ∀ key code, (key, code) ∈ HostKey.keymap →
    (c'.machine.keypad.isPressed code = true ↔ key ∈ held)
  /-- A program finds the key pressed whose number is in a register if its key of the host is
  held. -/
  skips : ∀ x b, c'.machine.registers.get? x = .ok b →
    c'.machine.execute (.skipIf (.pressed x)) =
        ⟨.ok (), c'.machine.follow
          (if ∃ key ∈ held, (key, b) ∈ HostKey.keymap then .skip else .next), #[]⟩ ∧
      c'.machine.execute (.skipIf (.released x)) =
        ⟨.ok (), c'.machine.follow
          (if ∃ key ∈ held, (key, b) ∈ HostKey.keymap then .next else .skip), #[]⟩
  quit : c'.machine.keypad.quit = true ↔
    c.machine.keypad.quit = true ∨ isOpen = false ∨
      (HostKey.escape ∈ held ∧ HostKey.escape ∉ before)
  pending : c'.machine.keypad.pending =
    c.machine.keypad.pending.or
      ((HostKey.keymap.find? fun e =>
        held.contains e.1 && !c.machine.keypad.isPressed e.2).map Prod.snd)

end Console

/-! ### Keys that stay pressed -/

namespace Machine

variable {m m' : Machine} {i : Instruction} {a : Intervention} {code : UInt8} {nanos : Nat}

/-- No instruction moves a key. -/
theorem held_effect? (h : m.effect? i = .ok m') : m'.keypad.held = m.keypad.held := by
  cases effect?_touches h <;> rfl

/-- An instruction that is asked for directly moves no key either, be it refused or not. -/
theorem held_execute (m : Machine) (i : Instruction) :
    (m.execute i).machine.keypad.held = m.keypad.held := by
  rw [execute_eq]
  cases heffect : m.effect? i with
  | ok m' => exact held_effect? heffect
  | error f => cases i <;> rfl

/-- Neither does a cycle. -/
theorem held_cycle (m : Machine) : m.cycle.machine.keypad.held = m.keypad.held := by
  cases m.cycleTurn with
  | executes hi => exact held_effect? (effect?_of_executed hi).1
  | fails _ hmachine => rw [hmachine]
  | stays hcycle => rw [hcycle]
  | takes _ hcycle | loses hcycle =>
    rw [hcycle]
    rfl

/-- Neither does a slice of time. -/
theorem held_advance (m : Machine) (nanos : Nat) :
    (m.advance nanos).machine.keypad.held = m.keypad.held := by
  refine advance_preserves (P := fun n => n.keypad.held = m.keypad.held) (fun _ h => h)
    (fun _ _ h => h) (fun n h => n.held_cycle.trans h) (fun n h => ?_) nanos rfl
  rw [tick_eq]
  exact h

/-- What a program does that asks about a key. -/
theorem execute_skipIf {x b : UInt8} {p : Prop} [Decidable p]
    (hget : m.registers.get? x = .ok b) (hp : m.keypad.isPressed b = true ↔ p) :
    m.execute (.skipIf (.pressed x)) = ⟨.ok (), m.follow (if p then .skip else .next), #[]⟩ ∧
      m.execute (.skipIf (.released x)) =
        ⟨.ok (), m.follow (if p then .next else .skip), #[]⟩ := by
  rw [execute_eq, execute_eq, effect?, effect?, holds?, holds?, hget]
  simp only [ok_bind]
  cases hb : m.keypad.isPressed b with
  | true =>
    rw [if_pos (hp.1 hb), if_pos (hp.1 hb)]
    exact ⟨rfl, rfl⟩
  | false =>
    have hnot : ¬p := fun h => by cases hb.symm.trans (hp.2 h)
    rw [if_neg hnot, if_neg hnot]
    exact ⟨rfl, rfl⟩

/-- A key that is held stays held until somebody lets go of it. -/
theorem isPressed_intervene (hheld : m.keypad.isPressed code = true)
    (hgo : a.letsGo code = false) : (m.intervene a).machine.keypad.isPressed code = true := by
  have hkept : ∀ n : Machine, n.keypad.held = m.keypad.held →
      n.keypad.isPressed code = true := by
    intro n hn
    rwa [Keypad.isPressed, hn]
  cases a with
  | execute i => exact hkept _ (m.held_execute i)
  | setKeypad keypad => exact Bool.not_eq_eq_eq_not.1 hgo
  | setMemory | setRegisters | setDelay | setSound => exact hheld
  | ask o =>
    rw [intervene]
    cases o with
    | cycle => exact hkept _ m.held_cycle
    | advance nanos => exact hkept _ (m.held_advance nanos)
    | keyDown key => exact isPressed_after_keyDown hheld key
    | keyUp key => exact isPressed_after_keyUp hheld (of_decide_eq_false hgo)
    | load program =>
      rw [Machine.after, load]
      split <;> exact hheld
    | tick => exact hkept _ (congrArg (·.keypad.held) m.tick_eq)
    | skip =>
      rw [Machine.after, skip]
      split <;> exact hheld
    | halt | clearPending | requestQuit => exact hheld
    | reset | releaseKeys => cases hgo

end Machine

/-! ### Histories -/

namespace Console

variable {W : Type} [HostWindow W] {c : Console W} {key : HostKey} {code : UInt8} {e : HostEvent}
  {events later : List HostEvent}

/-- The last event comes last. -/
theorem afterAll_concat (c : Console W) (events : List HostEvent) (e : HostEvent) :
    c.afterAll (events ++ [e]) = (c.afterAll events).after e :=
  List.foldl_concat ..

/-- An event behind others adds its update, if it is one. -/
theorem updates_concat (events : List HostEvent) (e : HostEvent) :
    updates (events ++ [e]) = updates events ++ e.update?.toList := by
  rw [updates, List.filterMap_append]
  cases e <;> rfl

/-- The window answers from its last two updates, whatever else happens. -/
theorem answers_afterAll [LawfulHostWindow W] (m : Machine) (events : List HostEvent) :
    HostWindow.Answers ((Console.mk (HostWindow.fresh : W) m).afterAll events).window
      ((updates events).getLastD ([], true)).1
      ((updates events).dropLast.getLastD ([], true)).1
      ((updates events).getLastD ([], true)).2 := by
  induction events using List.reverseRecOn with
  | nil => exact HostWindow.answers_fresh
  | append_singleton events e ih =>
    rw [afterAll_concat, updates_concat]
    cases e with
    | poll | act a =>
      rw [HostEvent.update?, Option.toList_none, List.append_nil]
      exact ih
    | update held isOpen =>
      rw [HostEvent.update?, Option.toList_some, List.getLastD_concat, List.dropLast_concat]
      exact ih.update held isOpen

/-- A poll makes a press of a key only if it was not pressed and its key of the host is held. -/
theorem of_press? (hkey : (key, code) ∈ HostKey.keymap) (h : c.press? e = some code) :
    c.machine.keypad.isPressed code = false ∧ c.letsGo key code e = false := by
  cases e with
  | update | act => cases h
  | poll =>
    obtain ⟨k', hpoll, -, hpending, -⟩ := HostWindow.exists_poll c.window c.machine.keypad
    rw [press?, after, hpoll] at h
    split at h
    · next hnone =>
      change k'.pending = some code at h
      rw [hpending, hnone, Option.none_or] at h
      obtain ⟨⟨key', code'⟩, hfirst, hcode⟩ := Option.map_eq_some_iff.1 h
      obtain rfl : code' = code := hcode
      have hnew := List.find?_some hfirst
      rw [Bool.and_eq_true, Bool.not_eq_true'] at hnew
      obtain rfl := HostKey.eq_of_mem_keymap hkey (List.mem_of_find?_eq_some hfirst)
      exact ⟨hnew.2, Bool.not_eq_eq_eq_not.2 hnew.1⟩
    · cases h

/-- A key is pressed after an event that does not let go of it, if it was before or if the event
makes a press of it. -/
theorem isPressed_after (hkey : (key, code) ∈ HostKey.keymap)
    (hheld : c.machine.keypad.isPressed code = true ∨ c.press? e = some code)
    (hgo : c.letsGo key code e = false) :
    (c.after e).machine.keypad.isPressed code = true := by
  cases e with
  | poll =>
    obtain ⟨k', hpoll, -, -, hpressed⟩ := HostWindow.exists_poll c.window c.machine.keypad
    rw [after, hpoll]
    exact (hpressed key code hkey).trans (Bool.not_eq_eq_eq_not.1 hgo)
  | update held isOpen => exact hheld.resolve_right nofun
  | act a => exact Machine.isPressed_intervene (hheld.resolve_right nofun) hgo

/-- What a press of a key needs: that it was not pressed before, and afterwards it is. -/
theorem press_add_le (hkey : (key, code) ∈ HostKey.keymap) (c : Console W) (e : HostEvent) :
    (if c.press? e = some code then 1 else 0) +
        (!(c.after e).machine.keypad.isPressed code).toNat ≤
      (!c.machine.keypad.isPressed code).toNat + (c.letsGo key code e).toNat := by
  split
  · next hpress =>
    obtain ⟨hup, hgo⟩ := of_press? hkey hpress
    rw [isPressed_after hkey (.inr hpress) hgo, hup, hgo]
    exact Nat.le_refl 1
  · rw [Nat.zero_add]
    cases hgo : c.letsGo key code e with
    | true => exact Nat.le_add_left_of_le (Bool.toNat_le _)
    | false =>
      cases hheld : c.machine.keypad.isPressed code with
      | true =>
        rw [isPressed_after hkey (.inl hheld) hgo]
        exact Nat.le_refl 0
      | false => exact Bool.toNat_le _

/-- The presses of a key are that of the first event, if it makes one, and those of the rest. -/
theorem count_presses_cons (c : Console W) (e : HostEvent) (later : List HostEvent) :
    (c.presses (e :: later)).count code =
      (if c.press? e = some code then 1 else 0) + ((c.after e).presses later).count code := by
  rw [presses, presses, history, List.filterMap_cons]
  cases c.press? e with
  | none => simp
  | some code' => simp [List.count_cons, Nat.add_comm]

/-- A key is let go by the first event, or not, and then as often as by the rest. -/
theorem timesLetGo_cons (c : Console W) (e : HostEvent) (later : List HostEvent) :
    c.timesLetGo key code (e :: later) =
      (c.letsGo key code e).toNat + (c.after e).timesLetGo key code later := by
  rw [timesLetGo, timesLetGo, history, List.countP_cons, Nat.add_comm]
  cases c.letsGo key code e <;> rfl

/-- Each press of a key uses up that it was not pressed. -/
theorem count_presses_add_le (hkey : (key, code) ∈ HostKey.keymap) (c : Console W)
    (later : List HostEvent) :
    (c.presses later).count code + (!(c.afterAll later).machine.keypad.isPressed code).toNat ≤
      (!c.machine.keypad.isPressed code).toNat + c.timesLetGo key code later := by
  induction later generalizing c with
  | nil => simp [presses, timesLetGo, history, afterAll]
  | cons e rest ih =>
    have hstep := press_add_le hkey c e
    have hrest := ih (c.after e)
    rw [count_presses_cons, timesLetGo_cons]
    change _ + (!((c.after e).afterAll rest).machine.keypad.isPressed code).toNat ≤ _
    omega

/-- A key makes one press for each time that it is let go, and one more if it was not pressed at
the start. -/
theorem count_presses_le (hkey : (key, code) ∈ HostKey.keymap) (c : Console W)
    (later : List HostEvent) :
    (c.presses later).count code ≤ 1 + c.timesLetGo key code later := by
  have hadd := count_presses_add_le hkey c later
  have hone := Bool.toNat_le (!c.machine.keypad.isPressed code)
  omega

/-- What a poll comes to. -/
theorem mirrored_poll {held before : List HostKey} {opened : Bool}
    (h : HostWindow.Answers c.window held before opened) :
    c.Mirrored (c.after .poll) held before opened := by
  obtain ⟨k', hpoll, hquit, hpending, hpressed⟩ :=
    HostWindow.exists_poll c.window c.machine.keypad
  have hafter : c.after .poll = { c with machine := { c.machine with keypad := k' } } := by
    rw [after, hpoll]
    rfl
  rw [hafter]
  have hmirror : ∀ key code, (key, code) ∈ HostKey.keymap →
      (k'.isPressed code = true ↔ key ∈ held) := fun key code hkey => by
    rw [hpressed key code hkey, h.isDown, List.contains_iff_mem]
  have hasHeld : ∀ b, k'.isPressed b = true ↔
      ∃ key ∈ held, (key, b) ∈ HostKey.keymap := by
    intro b
    constructor
    · intro hb
      obtain ⟨key, hkey, -⟩ := HostKey.exists_unique_of_lt (Keypad.lt_of_isPressed hb)
      exact ⟨key, (hmirror key b hkey).1 hb, hkey⟩
    · rintro ⟨key, hheld, hkey⟩
      exact (hmirror key b hkey).2 hheld
  refine ⟨hpoll, rfl, hmirror, fun x b hget => Machine.execute_skipIf hget (hasHeld b), ?_, ?_⟩
  · rw [hquit, HostWindow.wantsToQuit, h.isOpen, h.isNewlyDown]
    simp
  · simpa only [h.isDown] using hpending

/-- The keypad mirrors the keyboard of the host, for every history of a machine and a window that
answers from its latest updates.

Each key of the keypad has one key of the host. Whatever the window has been updated with and
whatever has been done with the machine, a poll succeeds and has the keys of the keypad pressed
that have their keys of the host held. It asks to quit if the window is closed or the escape key
has just gone down, and does not take back an earlier request. If no press is pending, it makes
a press of the first key of the map that is held and was not pressed.

From there on, whatever happens, the polls make at most one press of a key, and one more for each
time that it is let go. In particular a key that is held over many polls, while nobody else lets
go of it, makes at most one press. -/
theorem keyboard_mirrored [LawfulHostWindow W] (m : Machine) (events : List HostEvent) :
    let c := (Console.mk (HostWindow.fresh : W) m).afterAll events
    let latest := (updates events).getLastD ([], true)
    let before := (updates events).dropLast.getLastD ([], true)
    (∀ code : UInt8, code.toNat < keyCount → ∃! key, (key, code) ∈ HostKey.keymap) ∧
      c.Mirrored (c.after .poll) latest.1 before.1 latest.2 ∧
      ∀ key code, (key, code) ∈ HostKey.keymap → ∀ later,
        (c.presses later).count code ≤ 1 + c.timesLetGo key code later := by
  intro c latest before
  exact ⟨fun _ => HostKey.exists_unique_of_lt, mirrored_poll (answers_afterAll m events),
    fun key code hkey later => count_presses_le hkey c later⟩

/-- The keys Q and escape go down. A poll presses key 4, latches it and asks to quit. While Q is
held, key 4 makes no second press, although the first is taken. -/
theorem keyboard_mirrored_holding :
    let m := Machine.powerOn (.start 700 60) .zeros
    let c := (Console.mk (HostWindow.fresh : Window) m).afterAll [.update [.q, .escape] true]
    let k' := (c.after .poll).machine.keypad
    k'.isPressed 4 = true ∧ k'.isPressed 5 = false ∧ k'.quit = true ∧ k'.pending = some 4 ∧
      (c.presses [.poll, .act (.ask .clearPending), .poll]).count 4 ≤ 1 := by
  intro m c k'
  obtain ⟨-, hmirrored, hcount⟩ :=
    keyboard_mirrored (W := Window) m [.update [.q, .escape] true]
  refine ⟨(hmirrored.pressed .q 4 (by decide)).2 (by decide), ?_, hmirrored.quit.2 ?_,
    hmirrored.pending.trans ?_, hcount .q 4 (by decide) [.poll, .act (.ask .clearPending), .poll]⟩
  · rw [← Bool.not_eq_true, hmirrored.pressed .w 5 (by decide)]
    decide
  · exact .inr (.inr (by decide))
  · decide

end Console

end Chip8
