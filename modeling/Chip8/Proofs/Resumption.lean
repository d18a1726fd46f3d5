import Chip8.Proofs.Halted

/-!
# Resumption

To step over an instruction, the machine looks at the record of its fault and at nothing
else, not even at whether it is halted. That this is enough rests on an invariant of all that
can be done with a machine from outside: whatever fault it remembers has halted it, in a cycle
of this very run, and has kept it halted since.

One intervention breaks the invariant. `FX0A`, executed directly on a halted machine, sets it
waiting for a key and leaves the record as it is. Such a machine has left its halt without
having been started over, and it can be made to step over an instruction while it waits or
even while it runs. Everything else keeps to the invariant, direct execution of all other
instructions and writes to all parts of the machine included.

## Main statements

* `Machine.fault_origin`: a record is made by the cycle that fails.
* `Machine.halted_leaves`: the ways out of a halt.
* `Machine.haltedBy_through`: a remembered fault has halted the machine and kept it halted.
* `Machine.resumes_lawfully_iff`: what follows for stepping over an instruction.
* `Machine.skips_while_running`: the machine that was roused.
-/

namespace Chip8

/-- The intervention makes cycles. -/
def Intervention.MakesCycles : Intervention → Prop
  | .ask .cycle | .ask (.advance _) => True
  | _ => False

namespace Machine

variable {m : Machine} {a : Intervention} {acts : List Intervention} {f : Fault}

/-- The intervention is `FX0A`, executed directly on a halted machine. -/
def Rouses (m : Machine) : Intervention → Prop
  | .execute (.awaitKey x) => m.state = .halted ∧ x ≤ 15
  | _ => False

/-- No intervention of the run rouses the machine. -/
def NeverRoused (m : Machine) (acts : List Intervention) : Prop :=
  ∀ pre a, pre ++ [a] <+: acts → ¬(m.through pre).Rouses a

/-- A cycle of the intervention fails with `f`, which halts the machine. -/
structure HaltsBy (m : Machine) (a : Intervention) (f : Fault) : Prop where
  cycles : a.MakesCycles
  before : m.state ≠ .halted
  result : (m.intervene a).result = .error f
  state : (m.intervene a).machine.state = .halted
  fault : (m.intervene a).machine.fault = some f

/-- In the course of a run the machine was halted by `f`, and it has been ever since. -/
def HaltedBy (m : Machine) (acts : List Intervention) (f : Fault) : Prop :=
  ∃ pre a post, acts = pre ++ a :: post ∧ (m.through pre).HaltsBy a f ∧
    ∀ mid, mid <+: post →
      (m.through (pre ++ a :: mid)).state = .halted ∧
        (m.through (pre ++ a :: mid)).fault = some f

/-! ### Single interventions -/

/-- A load changes neither the state nor the memory of a fault. -/
theorem fault_load (m : Machine) (program : List UInt8) :
    (m.load program).machine.fault = m.fault ∧ (m.load program).machine.state = m.state := by
  rw [load]
  cases m.memory.load? program <;> exact ⟨rfl, rfl⟩

/-- A reset forgets the fault. -/
theorem fault_reset (m : Machine) : m.reset.machine.fault = none :=
  ((powerOn m.pacer.restart m.random).fault_load m.program).1

/-- Stepping over an instruction forgets the fault, or is refused. -/
theorem fault_skip (m : Machine) :
    m.skip.result = .ok () ∧ m.skip.machine.fault = none ∨
      m.skip = ⟨.error .notResumable, m, #[]⟩ := by
  by_cases hresumable : ∃ w, m.fault = some (.unknownOpcode w)
  · obtain ⟨w, hw⟩ := hresumable
    rw [skip_of_unknownOpcode hw]
    exact .inl ⟨rfl, rfl⟩
  · exact .inr (skip_refused (not_exists.1 hresumable))

/-- A fault that is remembered after an intervention was remembered before, or a cycle has
failed with it. -/
theorem fault_origin (h : (m.intervene a).machine.fault = some f) :
    m.fault = some f ∨ m.HaltsBy a f := by
  cases a with
  | execute i =>
    rw [← h]
    exact .inl (m.execute_keeps i).1.fault.symm
  | setMemory memory | setRegisters registers | setKeypad keypad | setDelay delay
  | setSound sound => exact .inl h
  | ask o =>
    cases o with
    | cycle =>
      rcases m.fault_of_cycle with hkept | ⟨f', hfails, hmachine⟩
      · exact .inl (hkept.symm.trans h)
      · obtain rfl : f' = f := by
          rw [intervene, after, hmachine] at h
          exact Option.some.inj h
        refine .inr ⟨trivial, fun hhalted => ?_, ?_, ?_, h⟩
        · rw [cycle_of_halted hhalted] at hfails
          cases hfails
        · rw [intervene, answer, hfails]
          rfl
        · rw [intervene, after, hmachine]
          rfl
    | advance nanos =>
      rcases m.fault_of_advance nanos with hkept | hnone | ⟨f', hfails, hstate, hfault⟩
      · exact .inl (hkept.symm.trans h)
      · cases hnone.symm.trans h
      · obtain rfl : f' = f := Option.some.inj (hfault.symm.trans h)
        refine .inr ⟨trivial, fun hhalted => ?_, ?_, hstate, h⟩
        · obtain ⟨hanswers, -⟩ := frozenAs_after (o := .advance nanos) hhalted trivial
            fun hskip => by cases hskip
          rw [AnswersHalted, answer, hfails] at hanswers
          cases hanswers
        · rw [intervene, answer, hfails]
          rfl
    | load program => exact .inl ((m.fault_load program).1.symm.trans h)
    | reset => cases m.fault_reset.symm.trans h
    | halt => cases h
    | tick => exact .inl ((congrArg fault m.tick_eq).symm.trans h)
    | skip =>
      rcases m.fault_skip with ⟨-, hnone⟩ | hrefused
      · cases hnone.symm.trans h
      · rw [intervene, after, hrefused] at h
        exact .inl h
    | keyDown key | keyUp key => exact .inl ((m.fault_reportKey _).symm.trans h)
    | clearPending | requestQuit | releaseKeys => exact .inl h

/-- The ways out of a halt: to start over, to step over an unknown opcode, and to be roused. -/
theorem halted_leaves (h : m.state = .halted)
    (hleaves : (m.intervene a).machine.state ≠ .halted) :
    a = .ask .reset ∨ (a = .ask .skip ∧ m.skip.result = .ok ()) ∨ m.Rouses a := by
  cases a with
  | execute i =>
    rcases (m.execute_keeps i).2 with hkept | ⟨x, rfl, hx, -⟩
    · exact absurd (hkept.trans h) hleaves
    · exact .inr (.inr ⟨h, hx⟩)
  | setMemory memory | setRegisters registers | setKeypad keypad | setDelay delay
  | setSound sound => exact absurd h hleaves
  | ask o =>
    have hstays : ∀ o : Operation, o.IsOfHalt → o ≠ .skip → (m.after o).state = .halted :=
      fun o ho hne => (frozenAs_after h ho fun hskip => absurd hskip hne).2.state.trans h
    cases o with
    | reset => exact .inl rfl
    | load program => exact absurd ((m.fault_load program).2.trans h) hleaves
    | skip =>
      rcases m.fault_skip with ⟨hskip, -⟩ | hrefused
      · exact .inr (.inl ⟨rfl, hskip⟩)
      · rw [intervene, after, hrefused] at hleaves
        exact absurd h hleaves
    | _ => exact (hleaves (hstays _ trivial fun hskip => by cases hskip)).elim

/-- A machine that has left its halt remembers no fault, unless it was roused. -/
theorem halted_of_fault (h : m.state = .halted) (hcalm : ¬m.Rouses a)
    (hfault : (m.intervene a).machine.fault = some f) :
    (m.intervene a).machine.state = .halted := by
  by_contra hleaves
  rcases halted_leaves h hleaves with rfl | ⟨rfl, hskip⟩ | hrouses
  · cases m.fault_reset.symm.trans hfault
  · rcases m.fault_skip with ⟨-, hnone⟩ | hrefused
    · cases hnone.symm.trans hfault
    · rw [hrefused] at hskip
      cases hskip
  · exact hcalm hrouses

/-! ### Runs -/

/-- A fault that is remembered at the end of a run has halted the machine in its course, and
has kept it halted since. -/
theorem haltedBy_through (hstart : m.fault = none) (hcalm : m.NeverRoused acts)
    (hfault : (m.through acts).fault = some f) : m.HaltedBy acts f := by
  -- the induction is on the run from its end
  obtain ⟨back, rfl⟩ : ∃ back : List Intervention, acts = back.reverse :=
    ⟨acts.reverse, acts.reverse_reverse.symm⟩
  induction back with
  | nil => cases hstart.symm.trans hfault
  | cons a back ih =>
    rw [List.reverse_cons] at hcalm hfault ⊢
    generalize back.reverse = acts at ih hcalm hfault ⊢
    rw [through_append] at hfault
    rcases fault_origin hfault with hbefore | hhalts
    · -- the fault is an old one, so the machine was halted before this intervention
      have hcalm' : m.NeverRoused acts := fun pre b hpre =>
        hcalm pre b (hpre.trans (List.prefix_append acts [a]))
      obtain ⟨pre, b, post, rfl, hhalts, hsince⟩ := ih hcalm' hbefore
      refine ⟨pre, b, post ++ [a], by simp, hhalts, fun mid hmid => ?_⟩
      rcases List.prefix_concat_iff.1 hmid with rfl | hmid
      · obtain ⟨hhalted, -⟩ := hsince post List.prefix_rfl
        have hstill := halted_of_fault hhalted (hcalm _ a List.prefix_rfl) hfault
        rw [← List.cons_append, ← List.append_assoc, through_append]
        exact ⟨hstill, hfault⟩
      · exact hsince mid hmid
    · refine ⟨acts, a, [], rfl, hhalts, fun mid hmid => ?_⟩
      obtain rfl := List.prefix_nil.1 hmid
      rw [through_append]
      exact ⟨hhalts.state, hfault⟩

/-! ### The law of resumption -/

/-- The law for stepping over an instruction, at the end of a run: it is done if the machine
is halted and an unknown opcode has halted it. Otherwise it is refused and changes nothing. -/
structure SkipsLawfully (m : Machine) (acts : List Intervention) : Prop where
  only : (m.through acts).skip.result = .ok () →
    (m.through acts).state = .halted ∧ ∃ w, m.HaltedBy acts (.unknownOpcode w)
  refused : ¬((m.through acts).state = .halted ∧ ∃ w, m.HaltedBy acts (.unknownOpcode w)) →
    (m.through acts).skip = ⟨.error .notResumable, m.through acts, #[]⟩

/-- The law for leaving a halt: only to start over and to step over an instruction lead out of
it. -/
def LeavesLawfully (m : Machine) (a : Intervention) : Prop :=
  m.state = .halted → (m.intervene a).machine.state ≠ .halted →
    a = .ask .reset ∨ (a = .ask .skip ∧ m.skip.result = .ok ())

/-- A machine that a fault has halted, and that has been halted since, is halted. -/
theorem HaltedBy.state (h : m.HaltedBy acts f) : (m.through acts).state = .halted := by
  obtain ⟨pre, a, post, rfl, -, hsince⟩ := h
  exact (hsince post List.prefix_rfl).1

/-- A beginning of a run that rouses no halted machine rouses none. -/
theorem NeverRoused.mono {acts' : List Intervention} (h : m.NeverRoused acts)
    (hpre : acts' <+: acts) : m.NeverRoused acts' :=
  fun pre a hact => h pre a (hact.trans hpre)

/-- After a run that rouses no halted machine the law holds, because whatever fault is remembered
has halted the machine in the run. -/
theorem NeverRoused.skipsLawfully (h : m.NeverRoused acts) (hstart : m.fault = none) :
    m.SkipsLawfully acts := by
  have hhalted : ∀ w, (m.through acts).fault = some (.unknownOpcode w) →
      (m.through acts).state = .halted ∧ ∃ w, m.HaltedBy acts (.unknownOpcode w) := by
    intro w hw
    have hby := haltedBy_through hstart h hw
    exact ⟨hby.state, w, hby⟩
  constructor
  · intro hskip
    obtain ⟨w, hw⟩ := skip_ok_iff.1 hskip
    exact hhalted w hw
  · intro hnever
    exact skip_refused fun w hw => hnever (hhalted w hw)

/-- To rouse a machine is to lead it out of its halt unlawfully. -/
theorem leavesLawfully_iff : m.LeavesLawfully a ↔ ¬m.Rouses a := by
  constructor
  · intro hlawful hrouses
    cases a with
    | execute i =>
      cases i with
      | awaitKey x =>
        obtain ⟨hhalted, hx⟩ := hrouses
        have hlt : x.toNat < registerCount := Nat.lt_succ_of_le (UInt8.le_iff_toNat_le.1 hx)
        have hwaits : (m.execute (.awaitKey x)).machine.state = .waiting x := by
          rw [execute_eq, effect?, Registers.get?_of_lt hlt]
          rfl
        have hleaves : (m.execute (.awaitKey x)).machine.state ≠ .halted := fun hstays => by
          cases hwaits.symm.trans hstays
        rcases hlawful hhalted hleaves with h | ⟨h, -⟩ <;> cases h
      | _ => exact hrouses
    | _ => exact hrouses
  · intro hcalm hhalted hleaves
    rcases halted_leaves hhalted hleaves with hreset | hskip | hrouses
    · exact .inl hreset
    · exact .inr hskip
    · exact absurd hrouses hcalm

/-- Both laws hold all through a run if and only if `FX0A` is never executed directly on a
halted machine. Then only an unknown opcode is ever stepped over, by a machine that it has
halted and that has been halted since, and a halt ends in no other way than with that or with
a new start. -/
theorem resumes_lawfully_iff (cycleRate tickRate : Nat) (random : ByteStream)
    (acts : List Intervention) :
    let start := powerOn (.start cycleRate tickRate) random
    ((∀ pre, pre <+: acts → start.SkipsLawfully pre) ∧
        ∀ pre a, pre ++ [a] <+: acts → (start.through pre).LeavesLawfully a) ↔
      start.NeverRoused acts := by
  intro start
  constructor
  · rintro ⟨-, hleaves⟩ pre a hact
    exact leavesLawfully_iff.1 (hleaves pre a hact)
  · intro hcalm
    refine ⟨fun pre hpre => (hcalm.mono hpre).skipsLawfully rfl, fun pre a hact => ?_⟩
    exact leavesLawfully_iff.2 (hcalm pre a hact)

/-- A machine that is halted by the unknown opcode `0000`, and is then set waiting by `FX0A`
and goes on with the key 5, steps over an instruction while it waits, and also while it
runs. -/
theorem skips_while_running :
    ¬∀ acts, withoutProgram.SkipsLawfully acts ∧
      ∀ a, (withoutProgram.through acts).LeavesLawfully a := by
  intro hlaw
  have hhalts : withoutProgram.cycle = ⟨.error _, withoutProgram.fail (.unknownOpcode 0), _⟩ :=
    cycle_of_fetch_error rfl fetch?_withoutProgram
  have hroused : withoutProgram.through [.ask .cycle, .execute (.awaitKey 0)] =
      { withoutProgram with state := .waiting 0, fault := some (.unknownOpcode 0) } := by
    rw [through_cons, intervene, after, hhalts]
    rfl
  obtain ⟨hskips, -⟩ := hlaw
    ([.ask .cycle, .execute (.awaitKey 0)] ++ [.ask (.keyDown 5), .ask .cycle])
  have hskip := hskips.only (by rw [through_append, hroused]; rfl)
  rw [through_append, hroused] at hskip
  cases hskip.1

end Machine

end Chip8
