import Chip8.Proofs.Schedule

/-!
# Waiting for a key

A machine that executes `FX0A` is suspended until somebody presses a key. Meanwhile its
owner goes on: keys go down and up, and cycles, ticks and time are asked of the machine. A
press is *effective* if the key exists and was up. The first effective press is latched by
the keypad, and the next cycle takes it and resumes the machine.

The wait has two phases, and each is a set of machines that its operations do not leave.
`Machine.Waits m x press n` says that `n` is the machine `m` suspended, with `press`
latched: nothing in the first phase, the first effective press in the second. The first
phase ends with an effective press, the second with a cycle.

## Main statements

* `Machine.Waits.afterAll`: a run that does not end a phase stays in it.
* `Machine.Waits.resumes`: the cycle that ends the wait.
* `Machine.Waits.isPressed_afterAll`: a key that is held stays held until it goes up.
* `Machine.key_wait`: the whole wait.
-/

namespace Chip8

/-! ### Keys -/

namespace Keypad

variable {k k' : Keypad} {key key' : UInt8}

/-- A key that is set to be held or not is so, and the others are what they were. -/
theorem contains_set {held : HeldKeys} (h : key.toNat < keyCount) (b : Bool) (key' : UInt8) :
    HeldKeys.contains (held.set key.toNat b h) key' =
      if key' = key then b else held.contains key' := by
  rw [HeldKeys.contains, Vector.getElem?_set]
  by_cases hkey : key' = key
  · rw [if_pos hkey, if_pos (congrArg UInt8.toNat hkey.symm), Option.getD_some]
  · rw [if_neg hkey, if_neg fun heq => hkey (UInt8.toNat_inj.1 heq.symm)]
    rfl

/-- A key that is pressed exists. -/
theorem lt_of_isPressed (h : k.isPressed key = true) : key.toNat < keyCount := by
  by_contra hkey
  rw [isPressed, HeldKeys.contains, Vector.getElem?_eq_none (Nat.not_lt.1 hkey)] at h
  cases h

/-- A key that is held stays held when a key goes down. -/
theorem isPressed_keyDown? (h : k.keyDown? key' = .ok k') (hheld : k.isPressed key = true) :
    k'.isPressed key = true := by
  rw [keyDown?] at h
  split at h
  · cases h
    rw [isPressed, contains_set]
    split
    · rfl
    · exact hheld
  · cases h

/-- A key that is held stays held when another key goes up. -/
theorem isPressed_keyUp? (h : k.keyUp? key' = .ok k') (hne : key' ≠ key)
    (hheld : k.isPressed key = true) : k'.isPressed key = true := by
  rw [keyUp?] at h
  split at h
  · cases h
    rw [isPressed, contains_set, if_neg hne.symm]
    exact hheld
  · cases h

end Keypad

/-- What can be asked of a machine during a wait, short of ending it from outside. -/
def Operation.IsOfWait : Operation → Prop
  | .keyDown _ | .keyUp _ | .tick | .cycle | .advance _ => True
  | _ => False

/-- The state in which a wait for a key ends: the key is in the register, and the machine
runs on behind the instruction that waited. -/
def View.resume (s : View) (x key : Nat) : View :=
  { s.write x key with pending := none, state := .running }

namespace Machine

variable {m n : Machine} {x key : UInt8} {press : Option UInt8} {o : Operation}
  {ops : List Operation} {nanos : Nat}

/-! ### Keys that stay held -/

/-- A key that is held stays held whatever key goes down. -/
theorem isPressed_after_keyDown (hheld : m.keypad.isPressed key = true) (key' : UInt8) :
    (m.after (.keyDown key')).keypad.isPressed key = true := by
  rw [after]
  cases hk : m.keypad.keyDown? key' with
  | error f => exact hheld
  | ok k => exact Keypad.isPressed_keyDown? hk hheld

/-- It stays held when another key goes up. -/
theorem isPressed_after_keyUp (hheld : m.keypad.isPressed key = true) {key' : UInt8}
    (hne : key' ≠ key) : (m.after (.keyUp key')).keypad.isPressed key = true := by
  rw [after]
  cases hk : m.keypad.keyUp? key' with
  | error f => exact hheld
  | ok k => exact Keypad.isPressed_keyUp? hk hne hheld

/-! ### Waits -/

/-- A key goes down that exists and was up. -/
def Presses (m : Machine) : Operation → Prop
  | .keyDown key => key.toNat < keyCount ∧ m.keypad.isPressed key = false
  | _ => False

/-- The operation makes a cycle. -/
def Polls (m : Machine) : Operation → Prop
  | .cycle => True
  | .advance nanos => (m.pacer.due nanos).cycles ≠ 0
  | _ => False

/-- The operation does not end the phase of a wait in which `press` is latched. -/
def Rests : Option UInt8 → Machine → Operation → Prop
  | none, m, o => ¬m.Presses o
  | some _, m, o => ¬m.Polls o

/-- The machine `n` is `m`, suspended until a key is pressed whose number goes to register
`x`, with `press` latched. Keys and time have gone their way meanwhile, and everything else
is as it was. Nobody has asked to quit. -/
structure Waits (m : Machine) (x : UInt8) (press : Option UInt8) (n : Machine) : Prop where
  eq : n = { m with state := .waiting x, keypad := n.keypad, pacer := n.pacer }
  pending : n.keypad.pending = press
  quit : n.keypad.quit = false

/-- The next cycle puts the number of a key into register `x` and resumes the machine. -/
structure Resumes (m : Machine) (x key : UInt8) : Prop where
  result : m.cycle.result = .ok .running
  view : m.cycle.machine.view = m.view.resume x.toNat key.toNat

namespace Waits

/-! ### Keys in a wait -/

/-- In a wait the machine is waiting for that register. -/
theorem state (h : m.Waits x press n) : n.state = .waiting x := by
  rw [h.eq]

/-- A wait is the same wait with other keys held. -/
theorem withKeypad (h : m.Waits x press n) {k : Keypad} {press' : Option UInt8}
    (hpending : k.pending = press') (hquit : k.quit = false) :
    m.Waits x press' { n with keypad := k } where
  eq := by
    rw [h.eq]
  pending := hpending
  quit := hquit

/-- A press during a wait is latched, unless it is not effective or not the first. -/
theorem keyDown (h : m.Waits x press n) (key : UInt8) :
    (n.Presses (.keyDown key) → m.Waits x (press.or (some key)) (n.after (.keyDown key))) ∧
      (¬n.Presses (.keyDown key) → m.Waits x press (n.after (.keyDown key))) := by
  rw [after, Keypad.keyDown?]
  by_cases hkey : key.toNat < keyCount
  · rw [dif_pos hkey]
    refine ⟨fun hpresses => h.withKeypad ?_ h.quit, fun hidle => h.withKeypad ?_ h.quit⟩
    · rw [hpresses.2, ← h.pending]
      rfl
    · have hheld : n.keypad.isPressed key = true := by
        rw [← Bool.not_eq_false]
        exact fun hup => hidle ⟨hkey, hup⟩
      rw [hheld, ← h.pending]
      rfl
  · rw [dif_neg hkey]
    exact ⟨fun hpresses => absurd hpresses.1 hkey, fun _ => h⟩

/-- A key that goes up takes nothing back. -/
theorem keyUp (h : m.Waits x press n) (key : UInt8) :
    m.Waits x press (n.after (.keyUp key)) := by
  rw [after, Keypad.keyUp?]
  by_cases hkey : key.toNat < keyCount
  · rw [dif_pos hkey]
    exact h.withKeypad h.pending h.quit
  · rw [dif_neg hkey]
    exact h

/-! ### Time in a wait -/

/-- A slice of time that is taken from the pacer leaves it waiting. -/
theorem paced (h : m.Waits x press n) (nanos : Nat) : m.Waits x press (n.paced nanos) where
  eq := by
    rw [Machine.paced, h.eq]
  pending := h.pending
  quit := h.quit

/-- The timers stand still. -/
theorem tick (h : m.Waits x press n) : n.tick = n :=
  tick_of_not_running fun hrun => by cases h.state.symm.trans hrun

/-- A cycle without a press does nothing. -/
theorem cycle (h : m.Waits x none n) : n.cycle = ⟨.ok (.waiting x), n, #[]⟩ := by
  rw [Machine.cycle, h.state]
  simp only [poll, h.pending, h.state]

/-- So after the cycle it still waits, as it did. -/
theorem after_cycle (h : m.Waits x none n) : n.after .cycle = n :=
  congrArg Outcome.machine h.cycle

/-- So time goes by and nothing happens, as long as nothing is latched or no cycle is
made. -/
theorem advance (h : m.Waits x press n) (hrest : Rests press n (.advance nanos)) :
    n.advance nanos = ⟨.ok (.waiting x), n.paced nanos, #[]⟩ := by
  rw [← h.state]
  refine advance_of_still h.quit (fun hrun => ?_) fun hcycles => ?_
  · cases h.state.symm.trans hrun
  · cases press with
    | some key => exact absurd hcycles hrest
    | none =>
      rw [h.state]
      exact (h.paced nanos).cycle

/-! ### Phases of a wait -/

/-- An operation that does not end the phase stays in it. -/
theorem after (h : m.Waits x press n) (ho : o.IsOfWait) (hrest : Rests press n o) :
    m.Waits x press (n.after o) := by
  cases o with
  | keyDown key =>
    obtain ⟨hlatched, hidle⟩ := h.keyDown key
    cases press with
    | none => exact hidle hrest
    | some first =>
      -- only the first press is latched, so a second one changes nothing
      by_cases hpresses : n.Presses (.keyDown key)
      · exact hlatched hpresses
      · exact hidle hpresses
  | keyUp key => exact h.keyUp key
  | tick =>
    rw [Machine.after, h.tick]
    exact h
  | cycle =>
    cases press with
    | none => rwa [h.after_cycle]
    | some first => exact absurd trivial hrest
  | advance nanos =>
    rw [Machine.after, h.advance hrest]
    exact h.paced nanos
  | _ => exact ho.elim

/-- A run that does not end the phase stays in it. -/
theorem afterAll (h : m.Waits x press n) (hops : ∀ o ∈ ops, o.IsOfWait)
    (hrest : n.Each (Rests press) ops) : m.Waits x press (n.afterAll ops) := by
  induction ops generalizing n with
  | nil => exact h
  | cons o ops ih =>
    obtain ⟨ho, hops⟩ := List.forall_mem_cons.1 hops
    exact ih (h.after ho hrest.1) hops hrest.2

/-- A key that is held stays held until it goes up. -/
theorem isPressed_after (h : m.Waits x press n) (ho : o.IsOfWait) (hrest : Rests press n o)
    (hheld : n.keypad.isPressed key = true) (hup : o ≠ .keyUp key) :
    (n.after o).keypad.isPressed key = true := by
  cases o with
  | keyDown key' => exact isPressed_after_keyDown hheld key'
  | keyUp key' => exact isPressed_after_keyUp hheld fun hkey => hup (hkey ▸ rfl)
  | tick =>
    rw [Machine.after, h.tick]
    exact hheld
  | cycle =>
    cases press with
    | none => rwa [h.after_cycle]
    | some first => exact absurd trivial hrest
  | advance nanos =>
    rw [Machine.after, h.advance hrest]
    exact hheld
  | _ => exact ho.elim

/-- A key that is held stays held through a phase of a wait in which it does not go up. -/
theorem isPressed_afterAll (h : m.Waits x press n) (hops : ∀ o ∈ ops, o.IsOfWait)
    (hrest : n.Each (Rests press) ops) (hheld : n.keypad.isPressed key = true)
    (hup : .keyUp key ∉ ops) : (n.afterAll ops).keypad.isPressed key = true := by
  induction ops generalizing n with
  | nil => exact hheld
  | cons o ops ih =>
    obtain ⟨ho, hops⟩ := List.forall_mem_cons.1 hops
    rw [List.mem_cons, not_or] at hup
    obtain ⟨hne, hup⟩ := hup
    exact ih (h.after ho hrest.1) hops hrest.2
      (h.isPressed_after ho hrest.1 hheld (Ne.symm hne)) hup

/-! ### The end of a wait -/

/-- A cycle takes the press that is latched. -/
theorem resumes (h : m.Waits x (some key) n) (hx : x < 16)
    (hpc : m.registers.pc.toNat ≤ 4094) : n.Resumes x key := by
  have hpc' : n.registers.pc.toNat ≤ 4094 := by rwa [h.eq]
  have hcycle : n.cycle = n.poll x := by rw [Machine.cycle, h.state]
  simp only [poll, h.pending, Registers.set?_of_lt (toNat_lt_registerCount hx)] at hcycle
  refine ⟨by rw [hcycle], ?_⟩
  let taken : Machine := { n with keypad := n.keypad.clearPending, state := .running }
  rw [hcycle]
  change ((taken.withRegisters _).follow .next).view = _
  rw [view_next _ (by exact hpc'), View.resume, View.write]
  simp only [view, withRegisters, Registers.value_set]
  rfl

/-- A slice of time that has a cycle takes the press with its first one. -/
theorem exists_rest (h : m.Waits x press n) (hcycles : (n.pacer.due nanos).cycles ≠ 0) :
    ∃ rest, .cycle :: rest <+: (n.pacer.due nanos).schedule ∧
      (n.advance nanos).machine = (n.paced nanos).cycle.machine.afterAll rest := by
  obtain ⟨made, hmade, hfirst, hmachine⟩ := exists_made h.quit nanos
  obtain ⟨rest, rfl⟩ := hfirst hcycles
  exact ⟨rest, hmade, hmachine⟩

end Waits

/-- The cycle that executes `FX0A` begins a wait. It forgets an earlier press, but not
which keys are held. -/
theorem waits_of_executed (h : m.executed? = some (.awaitKey x))
    (hquit : m.keypad.quit = false) :
    m.Waits x none (m.after .cycle) ∧ m.cycle.result = .ok (.waiting x) ∧
      (m.after .cycle).keypad.held = m.keypad.held := by
  obtain ⟨heffect, hresult⟩ := effect?_of_executed h
  obtain ⟨-, hx, -⟩ := row_of_executed h
  rw [effect?, Registers.get?_of_lt (toNat_lt_registerCount hx)] at heffect
  have hmachine := Except.ok.inj heffect
  rw [hresult, after, ← hmachine]
  exact ⟨⟨rfl, rfl, hquit⟩, rfl, rfl⟩

/-- The protocol of a wait for a key, from the cycle that executes `FX0A` to the one that
resumes the machine.

As long as no effective press is made, the machine stays as it is, but for its keys and its
pacer, and cycles and slices of time report that it waits. No key that has been held
since before the wait makes an effective press, however often it is reported down.

The first effective press ends this phase. The machine stays as it is until the next
cycle, whatever other keys go down or up. That cycle, asked for by itself or as the first
one of a slice of time, takes the press and resumes the machine. -/
theorem key_wait (h : m.executed? = some (.awaitKey x)) (hquit : m.keypad.quit = false) :
    m.cycle.result = .ok (.waiting x) ∧
    ∀ ops, (∀ o ∈ ops, o.IsOfWait) → (m.after .cycle).Each (fun n o => ¬n.Presses o) ops →
      let n := (m.after .cycle).afterAll ops
      m.Waits x none n ∧
      n.cycle.result = .ok (.waiting x) ∧
      (∀ nanos, (n.advance nanos).result = .ok (.waiting x)) ∧
      (∀ key, m.keypad.isPressed key = true → .keyUp key ∉ ops → ¬n.Presses (.keyDown key)) ∧
      ∀ key, n.Presses (.keyDown key) → ∀ ops', (∀ o ∈ ops', o.IsOfWait) →
        (n.after (.keyDown key)).Each (fun l o => ¬l.Polls o) ops' →
        let l := (n.after (.keyDown key)).afterAll ops'
        m.Waits x (some key) l ∧ l.Resumes x key ∧
        ∀ nanos, (l.pacer.due nanos).cycles ≠ 0 → (l.paced nanos).Resumes x key ∧
          ∃ rest, .cycle :: rest <+: (l.pacer.due nanos).schedule ∧
            (l.advance nanos).machine = (l.paced nanos).cycle.machine.afterAll rest := by
  obtain ⟨hpc, hx, -⟩ := row_of_executed h
  obtain ⟨hbegins, hresult, hheld⟩ := waits_of_executed h hquit
  refine ⟨hresult, ?_⟩
  intro ops hops hnone n
  have hwaits : m.Waits x none n := hbegins.afterAll hops hnone
  refine ⟨hwaits, ?_, ?_, ?_, ?_⟩
  · rw [hwaits.cycle]
  · intro nanos
    rw [hwaits.advance not_false]
  · rintro key hpressed hup ⟨-, hreleased⟩
    have hstays : n.keypad.isPressed key = true := by
      refine hbegins.isPressed_afterAll hops hnone ?_ hup
      rwa [Keypad.isPressed, hheld]
    cases hstays.symm.trans hreleased
  · intro key hpresses ops' hops' hidle l
    have hlatched : m.Waits x (some key) l :=
      ((hwaits.keyDown key).1 hpresses).afterAll hops' hidle
    exact ⟨hlatched, hlatched.resumes hx hpc, fun nanos hcycles =>
      ⟨(hlatched.paced nanos).resumes hx hpc, hlatched.exists_rest hcycles⟩⟩

/-- A machine at the instruction `F10A`, when key 5 has gone down and is held. -/
def awaiting : Machine :=
  ((powerOn (.start 700 60) .zeros).load [0xF1, 0x0A]).machine.after
    (.keyDown 5)

/-- Its next cycle executes the `F10A` and begins a wait. -/
theorem executed?_awaiting : awaiting.executed? = some (.awaitKey 1) := by
  have hfetch : awaiting.fetch? = .ok _ :=
    fetch?_load [0xF1, 0x0A] (i := .awaitKey 1) (by decide) rfl (k := 0)
      (by decide) rfl (by rw [Instruction.Encodable]; decide) (by decide)
  exact executed?_of_effect rfl hfetch rfl

/-- Key 5 is held through the wait and does not end it. Key 7 does, although it has gone up
and key 8 down before the next cycle. -/
theorem key_wait_awaiting :
    let n := (awaiting.after .cycle).afterAll [.cycle]
    n.cycle.result = .ok (.waiting 1) ∧ ¬n.Presses (.keyDown 5) ∧
      ((n.after (.keyDown 7)).afterAll [.keyUp 7, .keyDown 8]).Resumes 1 7 := by
  intro n
  obtain ⟨hbegins, -, hheld⟩ := waits_of_executed executed?_awaiting rfl
  obtain ⟨-, hprotocol⟩ := key_wait executed?_awaiting rfl
  obtain ⟨hwaits, hresult, -, hstale, hpress⟩ :=
    hprotocol [.cycle] (by simp [Operation.IsOfWait]) ⟨not_false, trivial⟩
  have hsame : n = awaiting.after .cycle := by
    change (awaiting.after .cycle).afterAll [.cycle] = _
    rw [afterAll_cons, afterAll_nil, hbegins.after_cycle]
  have hpresses : n.Presses (.keyDown 7) := by
    refine ⟨by decide, ?_⟩
    rw [hsame, Keypad.isPressed, hheld]
    decide
  obtain ⟨-, hresumes, -⟩ := hpress 7 hpresses [.keyUp 7, .keyDown 8]
    (by simp [Operation.IsOfWait]) ⟨not_false, not_false, trivial⟩
  exact ⟨hresult, hstale 5 (by decide) (by simp), hresumes⟩

end Machine

end Chip8
