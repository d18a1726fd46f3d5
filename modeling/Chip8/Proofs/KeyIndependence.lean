import Chip8.Proofs.Intervention

/-!
# Independence of the keys

A program that does not ask about keys cannot be disturbed by them. Two machines that differ in
nothing but their keypads go through the same cycles, whatever is reported about the keys of
either in between, until one of them executes `EX9E`, `EXA1` or `FX0A`.

A run is given as *rounds*: a round is some reports about keys and then a cycle. The two runs
have the same number of rounds, and the reports of each are its own.

## Main statements

* `Machine.effect?_withKeypad`: an instruction that does not ask about keys does the same with
  any of them.
* `Machine.cycle_withKeypad`: so does a cycle, and it leaves the keypad alone.
* `Machine.SameButKeys.afterAll_script`: machines that differ in their keypads alone do so after
  any number of rounds.
* `Machine.keys_invisible`: the two runs.
-/

namespace Chip8

/-- The instruction asks about keys. -/
def Instruction.AsksForKeys : Instruction → Prop
  | .skipIf (.pressed _) | .skipIf (.released _) | .awaitKey _ => True
  | _ => False

/-- The operation is a report about keys. Taking the pending press is as good as clearing it,
as far as the machine is concerned. -/
def Operation.IsOfKeypad : Operation → Prop
  | .keyDown _ | .keyUp _ | .clearPending | .requestQuit | .releaseKeys => True
  | _ => False

/-- The operations of some rounds. Of each round only the reports are given, and its cycle comes
after them. -/
def script (rounds : List (List Operation)) : List Operation :=
  rounds.flatMap (· ++ [.cycle])

/-- The first round comes first, with its cycle behind its reports. -/
theorem script_cons (keys : List Operation) (rest : List (List Operation)) :
    script (keys :: rest) = keys ++ .cycle :: script rest := by
  rw [script, List.flatMap_cons, List.append_assoc]
  rfl

/-- The machine with another keypad. -/
def Machine.withKeypad (m : Machine) (keypad : Keypad) : Machine :=
  { m with keypad }

/-- The outcome with another keypad. -/
def Outcome.withKeypad {α : Type} (o : Outcome α) (keypad : Keypad) : Outcome α :=
  { o with machine := o.machine.withKeypad keypad }

namespace Machine

variable {m n : Machine} {i : Instruction} {k : Keypad} {o : Operation} {ops : List Operation}

/-- With its own keypad it is the same machine. -/
theorem withKeypad_keypad (m : Machine) : m.withKeypad m.keypad = m := rfl

/-! ### Reports about keys -/

/-- A report about keys changes the keypad alone. -/
theorem after_of_isOfKeypad (ho : o.IsOfKeypad) : m.after o = m.withKeypad (m.after o).keypad := by
  cases o with
  | keyDown key =>
    rw [after]
    cases m.keypad.keyDown? key <;> rfl
  | keyUp key =>
    rw [after]
    cases m.keypad.keyUp? key <;> rfl
  | clearPending | requestQuit | releaseKeys => rfl
  | _ => exact ho.elim

/-- So do several reports. -/
theorem afterAll_of_isOfKeypad (hops : ∀ o ∈ ops, o.IsOfKeypad) :
    m.afterAll ops = m.withKeypad (m.afterAll ops).keypad := by
  induction ops generalizing m with
  | nil => rfl
  | cons o ops ih =>
    obtain ⟨ho, hops⟩ := List.forall_mem_cons.1 hops
    rw [afterAll_cons, ih hops, after_of_isOfKeypad ho]
    rfl

/-- No instruction is executed by it. -/
theorem executed_of_isOfKeypad (hops : ∀ o ∈ ops, o.IsOfKeypad) : m.executed ops = [] := by
  induction ops generalizing m with
  | nil => rfl
  | cons o ops ih =>
    obtain ⟨ho, hops⟩ := List.forall_mem_cons.1 hops
    rw [executed, ih hops]
    cases o with
    | cycle => exact ho.elim
    | _ => rfl

/-! ### Cycles -/

/-- An instruction that does not ask about keys does the same with any of them. -/
theorem effect?_withKeypad (hi : ¬i.AsksForKeys) :
    (m.withKeypad k).effect? i = (m.effect? i).map (withKeypad · k) := by
  cases i with
  | awaitKey x => exact absurd trivial hi
  | skipIf c =>
    have hholds : (m.withKeypad k).holds? c = m.holds? c := by
      cases c with
      | pressed x | released x => exact absurd trivial hi
      | _ => rfl
    simp only [effect?, hholds, map_bind]
    rfl
  | _ =>
    simp only [effect?, map_bind]
    rfl

/-- A refused instruction leaves the same behind with any keys. -/
theorem afterRefusal_withKeypad (m : Machine) (i : Instruction) :
    (m.withKeypad k).afterRefusal i = (m.afterRefusal i).withKeypad k := by
  cases i <;> rfl

/-- If an instruction that asks about keys is read from memory, it is executed. -/
theorem executed?_of_asksForKeys {w : Opcode} (hrun : m.state = .running)
    (hfetch : m.fetch? = .ok (w, i)) (hasks : i.AsksForKeys) : m.executed? = some i := by
  obtain ⟨-, ⟨hfits, -⟩, -⟩ := fetch?_eq_ok_iff_spells.1 hfetch
  have heffect : ∃ m', m.effect? i = .ok m' := by
    cases i with
    | awaitKey x =>
      rw [effect?, Registers.get?_of_lt (toNat_lt_registerCount hfits)]
      exact ⟨_, rfl⟩
    | skipIf c =>
      cases c with
      | pressed x | released x =>
        rw [effect?, holds?, Registers.get?_of_lt (toNat_lt_registerCount hfits)]
        exact ⟨_, rfl⟩
      | _ => exact hasks.elim
    | _ => exact hasks.elim
  obtain ⟨m', heffect⟩ := heffect
  exact executed?_of_effect hrun hfetch heffect

/-- A cycle that does not ask about keys, of a machine that does not wait for one. -/
theorem cycle_withKeypad (hwait : ∀ x, m.state ≠ .waiting x)
    (hblind : ∀ i ∈ m.executed?, ¬i.AsksForKeys) :
    (m.withKeypad k).cycle = m.cycle.withKeypad k := by
  cases hstate : m.state with
  | waiting x => exact absurd hstate (hwait x)
  | halted =>
    have hstate' : (m.withKeypad k).state = .halted := hstate
    rw [cycle, cycle, hstate, hstate']
    rfl
  | running =>
    have hstate' : (m.withKeypad k).state = .running := hstate
    cases hfetch : m.fetch? with
    | error f =>
      have hfetch' : (m.withKeypad k).fetch? = .error f := hfetch
      rw [cycle_of_fetch_error hstate hfetch, cycle_of_fetch_error hstate' hfetch']
      rfl
    | ok p =>
      obtain ⟨w, i⟩ := p
      have hfetch' : (m.withKeypad k).fetch? = .ok (w, i) := hfetch
      have hi : ¬i.AsksForKeys := fun hasks =>
        hblind i (executed?_of_asksForKeys hstate hfetch hasks) hasks
      rw [cycle_of_fetch hstate hfetch, cycle_of_fetch hstate' hfetch', effect?_withKeypad hi,
        afterRefusal_withKeypad]
      cases m.effect? i <;> rfl

/-- Such a cycle leaves the keypad alone. -/
theorem keypad_cycle (hwait : ∀ x, m.state ≠ .waiting x)
    (hblind : ∀ i ∈ m.executed?, ¬i.AsksForKeys) : m.cycle.machine.keypad = m.keypad :=
  congrArg (fun o : Outcome RunState => o.machine.keypad)
    (cycle_withKeypad (k := m.keypad) hwait hblind)

/-- After such a cycle the machine does not wait either. -/
theorem not_waiting_cycle (hwait : ∀ x, m.state ≠ .waiting x)
    (hblind : ∀ i ∈ m.executed?, ¬i.AsksForKeys) (x : UInt8) :
    m.cycle.machine.state ≠ .waiting x := by
  cases m.cycleTurn with
  | @executes i hi =>
    rcases (effect?_keeps (effect?_of_executed hi).1).2 with hstate | ⟨r, rfl, -⟩
    · rw [hstate]
      exact hwait x
    · exact absurd trivial (hblind _ hi)
  | fails _ hmachine =>
    rw [hmachine]
    nofun
  | stays hcycle =>
    rw [hcycle]
    exact hwait x
  | takes _ hcycle =>
    rw [hcycle]
    nofun
  | loses hcycle =>
    rw [hcycle]
    exact hwait x

/-! ### Two runs -/

/-- The machine `n` is the machine `m` with another keypad, and neither waits for a key. -/
structure SameButKeys (m n : Machine) : Prop where
  eq : n = m.withKeypad n.keypad
  awake : ∀ x, m.state ≠ .waiting x

namespace SameButKeys

variable {ops' : List Operation} {rounds rounds' : List (List Operation)}

/-- It is so whatever is reported about the keys of both. -/
theorem afterAll_keys (h : m.SameButKeys n) (hops : ∀ o ∈ ops, o.IsOfKeypad)
    (hops' : ∀ o ∈ ops', o.IsOfKeypad) : (m.afterAll ops).SameButKeys (n.afterAll ops') where
  eq := by
    rw [afterAll_of_isOfKeypad hops, afterAll_of_isOfKeypad hops', h.eq]
    rfl
  awake x := by
    rw [afterAll_of_isOfKeypad hops]
    exact h.awake x

/-- The cycles of both are the same. -/
theorem cycle_eq (h : m.SameButKeys n) (hblind : ∀ i ∈ m.executed?, ¬i.AsksForKeys) :
    n.cycle = m.cycle.withKeypad n.keypad := by
  rw [← cycle_withKeypad h.awake hblind, ← h.eq]

/-- After a cycle of both they still differ in their keypads alone, and neither waits. -/
theorem after_cycle (h : m.SameButKeys n) (hblind : ∀ i ∈ m.executed?, ¬i.AsksForKeys) :
    (m.after .cycle).SameButKeys (n.after .cycle) where
  eq := by
    rw [after, after, h.cycle_eq hblind]
    rfl
  awake := not_waiting_cycle h.awake hblind

/-- It is so after any number of rounds that do not ask about keys. -/
theorem afterAll_script (h : m.SameButKeys n) (hlength : rounds.length = rounds'.length)
    (hrounds : ∀ keys ∈ rounds, ∀ o ∈ keys, o.IsOfKeypad)
    (hrounds' : ∀ keys ∈ rounds', ∀ o ∈ keys, o.IsOfKeypad)
    (hblind : ∀ i ∈ m.executed (script rounds), ¬i.AsksForKeys) :
    (m.afterAll (script rounds)).SameButKeys (n.afterAll (script rounds')) := by
  induction rounds generalizing m n rounds' with
  | nil =>
    obtain rfl := List.length_eq_zero_iff.1 hlength.symm
    exact h
  | cons keys rounds ih =>
    cases rounds' with
    | nil => cases hlength
    | cons keys' rounds' =>
      obtain ⟨hkeys, hrounds⟩ := List.forall_mem_cons.1 hrounds
      obtain ⟨hkeys', hrounds'⟩ := List.forall_mem_cons.1 hrounds'
      rw [script_cons, executed_append, executed_of_isOfKeypad hkeys, List.nil_append, executed,
        List.forall_mem_append] at hblind
      obtain ⟨hfirst, hrest⟩ := hblind
      have hround := (h.afterAll_keys hkeys hkeys').after_cycle fun i hi =>
        hfirst i (Option.mem_toList.2 hi)
      rw [script_cons, script_cons, afterAll_append, afterAll_append]
      exact ih hround (Nat.succ.inj hlength) hrounds hrounds' hrest

end SameButKeys

/-- A program that does not ask about keys is not disturbed by them.

Let two machines that run differ in their keypads alone, and let each go through the same number
of rounds, with its own reports about keys before each cycle. If the first executes no
instruction that asks about keys, the machines still differ in their keypads alone, also after
further reports. If it executes none in the next cycle either, that cycle has the same result on
both, be it a fault, with the same events, and it leaves both keypads alone. -/
theorem keys_invisible (hrun : m.state = .running) (hsame : n = m.withKeypad n.keypad)
    {rounds rounds' : List (List Operation)} (hlength : rounds.length = rounds'.length)
    (hrounds : ∀ keys ∈ rounds, ∀ o ∈ keys, o.IsOfKeypad)
    (hrounds' : ∀ keys ∈ rounds', ∀ o ∈ keys, o.IsOfKeypad)
    (hblind : ∀ i ∈ m.executed (script rounds), ¬i.AsksForKeys)
    {keys keys' : List Operation} (hkeys : ∀ o ∈ keys, o.IsOfKeypad)
    (hkeys' : ∀ o ∈ keys', o.IsOfKeypad) :
    let l := m.afterAll (script rounds ++ keys)
    let l' := n.afterAll (script rounds' ++ keys')
    l' = l.withKeypad l'.keypad ∧
      ((∀ i ∈ l.executed?, ¬i.AsksForKeys) →
        l'.cycle.result = l.cycle.result ∧ l'.cycle.log = l.cycle.log ∧
          l.cycle.machine.keypad = l.keypad ∧ l'.cycle.machine.keypad = l'.keypad ∧
          l'.cycle.machine = l.cycle.machine.withKeypad l'.keypad) := by
  intro l l'
  have hawake : m.SameButKeys n := ⟨hsame, fun x hx => by cases hrun.symm.trans hx⟩
  have hl : l.SameButKeys l' := by
    have hrounds := hawake.afterAll_script hlength hrounds hrounds' hblind
    have hkept := hrounds.afterAll_keys hkeys hkeys'
    rwa [← afterAll_append, ← afterAll_append] at hkept
  refine ⟨hl.eq, fun hnext => ?_⟩
  rw [hl.cycle_eq hnext]
  exact ⟨rfl, rfl, keypad_cycle hl.awake hnext, rfl, rfl⟩

/-- A round of a machine that idles is its reports about keys and a jump. -/
theorem Idles.round (h : m.Idles) (hops : ∀ o ∈ ops, o.IsOfKeypad) :
    m.afterAll (script [ops]) = m.afterAll ops ∧ m.executed (script [ops]) = [.jump 0x200] ∧
      (m.afterAll ops).executed? = some (.jump 0x200) := by
  have hidles : (m.afterAll ops).Idles := by
    rw [afterAll_of_isOfKeypad hops]
    exact ⟨h.fetch, h.pc, h.state⟩
  have hjump : (m.afterAll ops).executed? = some (.jump 0x200) :=
    executed?_of_effect hidles.state hidles.fetch rfl
  refine ⟨?_, ?_, hjump⟩
  · rw [script_cons, afterAll_append]
    exact hidles.cycle.2
  · rw [script_cons, executed_append, executed_of_isOfKeypad hops, executed, executedBy, hjump]
    rfl

/-- Two machines that idle, while key 5 of the one goes down and the other is asked to quit. -/
theorem keys_invisible_idling :
    let l := idling.afterAll (script [[.keyDown 5]] ++ [])
    let l' := idling.afterAll (script [[.requestQuit, .keyUp 5]] ++ [.clearPending])
    l' = l.withKeypad l'.keypad ∧ l'.cycle.result = l.cycle.result := by
  intro l l'
  have hkeys : ∀ o ∈ [Operation.keyDown 5], o.IsOfKeypad := by simp [Operation.IsOfKeypad]
  obtain ⟨hmachine, hexecuted, hnext⟩ := idles_idling.round hkeys
  have hclear : ∀ o ∈ [Operation.clearPending], o.IsOfKeypad := by simp [Operation.IsOfKeypad]
  have hlength : [[Operation.keyDown 5]].length = [[.requestQuit, Operation.keyUp 5]].length := rfl
  have hjump : ¬(Instruction.jump 0x200).AsksForKeys := id
  obtain ⟨hsame, hcycle⟩ := keys_invisible idles_idling.state (withKeypad_keypad idling).symm
    hlength (List.forall_mem_singleton.2 hkeys) (by simp [Operation.IsOfKeypad])
    (by rw [hexecuted]; exact List.forall_mem_singleton.2 hjump) (List.forall_mem_nil _) hclear
  have hlast : l.executed? = some (.jump 0x200) := by
    rw [show l = _ from congrArg idling.afterAll (List.append_nil _), hmachine, hnext]
  refine ⟨hsame, (hcycle fun i hi => ?_).1⟩
  rw [hlast] at hi
  obtain rfl := Option.mem_some.1 hi
  exact hjump

end Machine

end Chip8
