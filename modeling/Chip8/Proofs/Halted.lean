import Chip8.Proofs.Intervention

/-!
# Halted machines

A machine halts because somebody asks it to, because it sees the request to quit, or because
a cycle of it fails. From then on it is frozen: cycles and slices of time are still asked of
it, keys go down and up, and nothing comes of it but that the keypad and the remainders of
the pacer move. There are two ways out, and this module is about all that is neither: the
machine can be started over, and it can step over an instruction that it did not know.

The second way is open as long as the machine remembers that it met an unknown opcode. The
memory of a fault never comes back once it is gone, and a request to halt takes it away, also
from a machine that is halted already. So from the order of events it can be told whether
the machine can still step on.

## Main statements

* `Machine.ComesToHalt.halted`: the ways in which a machine comes to be halted.
* `Machine.frozenAs_after`, `Machine.frozenAs_afterAll`: one operation on a halted machine,
  and a run of them.
* `Machine.fault_afterAll_of_halted`: what becomes of the record of the fault.
* `Machine.halted_frozen`: all of it together.
-/

namespace Chip8

/-- What can be asked of a machine without giving it a program or starting it over. To ask
what it would execute next, or whether it sounds, is no operation at all. -/
def Operation.IsOfHalt : Operation → Prop
  | .load _ | .reset => False
  | _ => True

namespace Machine

variable {m n l : Machine} {o : Operation} {ops ops' : List Operation} {cause : Option Fault}
  {w : Opcode}

/-! ### Coming to a halt -/

/-- How a machine comes to be halted, and by which fault, if there is one. -/
inductive ComesToHalt : Machine → Option Fault → Machine → Prop
  | asked (m : Machine) : ComesToHalt m none m.halt
  | quits {m : Machine} (hquit : m.keypad.quit = true) (nanos : Nat) :
    ComesToHalt m none (m.advance nanos).machine
  | fails {m : Machine} {f : Fault} (hresult : m.cycle.result = .error f)
    (hhalts : m.cycle.machine.state = .halted) : ComesToHalt m (some f) m.cycle.machine
  | failsInTime {m : Machine} {f : Fault} {nanos : Nat}
    (hresult : (m.advance nanos).result = .error f)
    (hhalts : (m.advance nanos).machine.state = .halted) :
    ComesToHalt m (some f) (m.advance nanos).machine

/-- However it came to be halted, the machine is halted, and it remembers the fault that did it,
or none. -/
theorem ComesToHalt.halted (h : ComesToHalt l cause m) : m.state = .halted ∧ m.fault = cause := by
  cases h with
  | asked => exact ⟨rfl, rfl⟩
  | quits hquit nanos =>
    rw [advance_of_quit hquit]
    exact ⟨rfl, rfl⟩
  | fails hresult hhalts => exact ⟨hhalts, cycle_failed hresult hhalts⟩
  | failsInTime hresult hhalts => exact ⟨hhalts, advance_failed hresult hhalts⟩

/-! ### Operations on a halted machine -/

/-- A cycle of a halted machine does nothing and reports nothing. -/
theorem cycle_of_halted (h : m.state = .halted) : m.cycle = ⟨.ok .halted, m, #[]⟩ := by
  rw [cycle, h]

/-- Its timers stand still. -/
theorem tick_of_halted (h : m.state = .halted) : m.tick = m :=
  tick_of_not_running fun hrun => by cases h.symm.trans hrun

/-- To halt it again only makes it forget the fault. -/
theorem halt_of_halted (h : m.state = .halted) : m.halt = { m with fault := none } := by
  rw [halt, ← h]

/-- A halted machine takes its time from the pacer all the same, unless it is asked to
quit. -/
theorem advance_of_halted (h : m.state = .halted) (hquit : m.keypad.quit = false) (nanos : Nat) :
    m.advance nanos = ⟨.ok .halted, m.paced nanos, #[]⟩ := by
  have hpaced : (m.paced nanos).state = .halted := h
  rw [← h]
  refine advance_of_still hquit (fun hrun => ?_) fun _ => ?_
  · cases h.symm.trans hrun
  · rw [cycle_of_halted hpaced, h]

/-- Only an unknown opcode can be stepped over. -/
theorem isResumable_iff : m.isResumable = true ↔ ∃ w, m.fault = some (.unknownOpcode w) := by
  rw [isResumable, Option.any_eq_true]
  constructor
  · rintro ⟨f, hf, hdecode⟩
    obtain ⟨w, rfl⟩ := Fault.isDecodeFailure_iff.1 hdecode
    exact ⟨w, hf⟩
  · rintro ⟨w, hw⟩
    exact ⟨_, hw, rfl⟩

/-- What is refused changes nothing. -/
theorem skip_refused (h : ∀ w, m.fault ≠ some (.unknownOpcode w)) :
    m.skip = ⟨.error .notResumable, m, #[]⟩ :=
  if_neg fun hresumable =>
    have ⟨w, hw⟩ := isResumable_iff.1 hresumable
    h w hw

/-- A step over an unknown opcode sets the machine running behind it, with the fault forgotten. -/
theorem skip_of_unknownOpcode (h : m.fault = some (.unknownOpcode w)) :
    m.skip = ⟨.ok (),
      { m with registers := m.registers.next, state := .running, fault := none },
      #[.skipping m.registers.pc]⟩ :=
  if_pos (isResumable_iff.2 ⟨w, h⟩)

/-- To step over the instruction succeeds exactly if it was an unknown opcode that halted the
machine. -/
theorem skip_ok_iff : m.skip.result = .ok () ↔ ∃ w, m.fault = some (.unknownOpcode w) := by
  constructor
  · intro h
    by_contra hnone
    rw [skip_refused (not_exists.1 hnone)] at h
    cases h
  · rintro ⟨w, hw⟩
    rw [skip_of_unknownOpcode hw]

/-- How a halted machine answers that cannot step on: cycles and slices of time report that it
is halted, and to step over the instruction at the program counter is refused. -/
def AnswersHalted (m : Machine) : Operation → Prop
  | .cycle => m.answer .cycle = .ok (.state .halted)
  | .advance nanos => m.answer (.advance nanos) = .ok (.state .halted)
  | .skip => m.answer .skip = .error .notResumable
  | _ => True

/-- The machine `n` is the halted machine `m` at a later time: the keypad and the remainders
of the pacer have moved at most, and the fault may have been forgotten. -/
structure FrozenAs (m n : Machine) : Prop where
  eq : n = { m with keypad := n.keypad, pacer := n.pacer, fault := n.fault }
  pacer : n.pacer.restart = m.pacer.restart
  fault : n.fault = m.fault ∨ n.fault = none

namespace FrozenAs

/-- At the same time it is the same machine. -/
theorem refl (m : Machine) : m.FrozenAs m := ⟨rfl, rfl, .inl rfl⟩

/-- What is frozen twice is frozen. -/
theorem trans (h : m.FrozenAs n) (h' : n.FrozenAs l) : m.FrozenAs l where
  eq := by
    rw [h'.eq, h.eq]
  pacer := h'.pacer.trans h.pacer
  fault := by
    rcases h'.fault with hkept | hnone
    · rw [hkept]
      exact h.fault
    · exact .inr hnone

/-- The state has not changed. -/
theorem state (h : m.FrozenAs n) : n.state = m.state := by
  rw [h.eq]

/-- A machine that cannot step on stays one. -/
theorem fault_ne (h : m.FrozenAs n) (hm : m.fault ≠ some (.unknownOpcode w)) :
    n.fault ≠ some (.unknownOpcode w) := by
  rcases h.fault with hkept | hnone
  · rwa [hkept]
  · rw [hnone]
    nofun

/-- The keypad may change in any way. -/
theorem withKeypad (m : Machine) (keypad : Keypad) : m.FrozenAs { m with keypad } :=
  ⟨rfl, rfl, .inl rfl⟩

/-- The pacer may take any time. -/
theorem paced (m : Machine) (nanos : Nat) : m.FrozenAs (m.paced nanos) :=
  ⟨rfl, rfl, .inl rfl⟩

/-- A request to halt only takes the fault away. -/
theorem halt (h : m.state = .halted) : m.FrozenAs m.halt := by
  rw [halt_of_halted h]
  exact ⟨rfl, rfl, .inr rfl⟩

/-- What is reported about a key changes the keypad at most. -/
theorem reportKey (m : Machine) (k : Except Fault Keypad) : m.FrozenAs (m.reportKey k) := by
  cases k with
  | ok keypad => exact withKeypad m keypad
  | error f => exact refl m

end FrozenAs

/-- An operation leaves a halted machine frozen, if it is not the step over an unknown
opcode. -/
theorem frozenAs_after (h : m.state = .halted) (ho : o.IsOfHalt)
    (hskip : o = .skip → ∀ w, m.fault ≠ some (.unknownOpcode w)) :
    m.AnswersHalted o ∧ m.FrozenAs (m.after o) := by
  cases o with
  | load program | reset => exact ho.elim
  | cycle =>
    rw [AnswersHalted, answer, after, cycle_of_halted h]
    exact ⟨rfl, .refl m⟩
  | tick =>
    rw [after, tick_of_halted h]
    exact ⟨trivial, .refl m⟩
  | advance nanos =>
    rw [AnswersHalted, answer, after]
    cases hquit : m.keypad.quit with
    | true =>
      rw [advance_of_quit hquit]
      exact ⟨rfl, .halt h⟩
    | false =>
      rw [advance_of_halted h hquit]
      exact ⟨rfl, .paced m nanos⟩
  | halt => exact ⟨trivial, .halt h⟩
  | skip =>
    rw [AnswersHalted, answer, after, skip_refused (hskip rfl)]
    exact ⟨rfl, .refl m⟩
  | keyDown key | keyUp key => exact ⟨trivial, .reportKey m _⟩
  | clearPending | requestQuit | releaseKeys => exact ⟨trivial, .withKeypad m _⟩

/-- A report about a key leaves the fault alone, be it refused or not. -/
theorem fault_reportKey (m : Machine) (k : Except Fault Keypad) :
    (m.reportKey k).fault = m.fault := by
  cases k <;> rfl

/-! ### Runs of a halted machine -/

/-- A run leaves a halted machine frozen, if it does not step over an unknown opcode. -/
theorem frozenAs_afterAll (h : m.state = .halted) (hops : ∀ o ∈ ops, o.IsOfHalt)
    (hskip : .skip ∈ ops → ∀ w, m.fault ≠ some (.unknownOpcode w)) :
    m.Each AnswersHalted ops ∧ m.FrozenAs (m.afterAll ops) := by
  induction ops generalizing m with
  | nil => exact ⟨trivial, .refl m⟩
  | cons o ops ih =>
    obtain ⟨ho, hops⟩ := List.forall_mem_cons.1 hops
    obtain ⟨hanswers, hfrozen⟩ := frozenAs_after h ho fun hfirst =>
      hskip (hfirst ▸ List.mem_cons_self)
    obtain ⟨hrest, hfrozen'⟩ := ih (hfrozen.state.trans h) hops fun hlater w =>
      hfrozen.fault_ne (hskip (List.mem_cons_of_mem o hlater) w)
    exact ⟨⟨hanswers, hrest⟩, hfrozen.trans hfrozen'⟩

/-- The operation makes a halted machine forget why it halted: it is a request to halt, or a
slice of time that sees the request to quit. -/
def Forgets (m : Machine) : Operation → Prop
  | .halt => True
  | .advance _ => m.keypad.quit = true
  | _ => False

/-- What makes the machine forget has it remember no fault. -/
theorem fault_after_of_forgets (h : m.Forgets o) : (m.after o).fault = none := by
  cases o with
  | halt => rfl
  | advance nanos =>
    rw [after, advance_of_quit h]
    rfl
  | _ => exact h.elim

/-- Everything else but a step over the instruction leaves its memory of the fault alone. -/
theorem fault_after_of_not_forgets (h : m.state = .halted) (ho : o.IsOfHalt) (hskip : o ≠ .skip)
    (hkeeps : ¬m.Forgets o) : (m.after o).fault = m.fault := by
  cases o with
  | load program | reset => exact ho.elim
  | skip => exact absurd rfl hskip
  | halt => exact absurd trivial hkeeps
  | cycle => rw [after, cycle_of_halted h]
  | tick => rw [after, tick_of_halted h]
  | advance nanos =>
    rw [after, advance_of_halted h (Bool.not_eq_true _ ▸ hkeeps)]
    rfl
  | keyDown key | keyUp key => exact m.fault_reportKey _
  | clearPending | requestQuit | releaseKeys => rfl

/-- As long as nothing makes a halted machine forget why it halted, it remembers, and once
something has, it never does again. -/
theorem fault_afterAll_of_halted (h : m.state = .halted) (hops : ∀ o ∈ ops, o.IsOfHalt)
    (hskip : .skip ∉ ops) :
    (m.Each (fun n o => ¬n.Forgets o) ops → (m.afterAll ops).fault = m.fault) ∧
      (¬m.Each (fun n o => ¬n.Forgets o) ops → (m.afterAll ops).fault = none) := by
  induction ops generalizing m with
  | nil => exact ⟨fun _ => rfl, fun hforgets => absurd trivial hforgets⟩
  | cons o ops ih =>
    obtain ⟨ho, hops⟩ := List.forall_mem_cons.1 hops
    obtain ⟨hne, hlater⟩ := not_or.1 (mt List.mem_cons.2 hskip)
    obtain ⟨-, hfrozen⟩ := frozenAs_after h ho fun hfirst => absurd hfirst.symm hne
    have hhalted : (m.after o).state = .halted := hfrozen.state.trans h
    obtain ⟨hkeeps, hforgets⟩ := ih hhalted hops hlater
    refine ⟨fun ⟨hfirst, hrest⟩ => ?_, fun hsome => ?_⟩
    · exact (hkeeps hrest).trans (fault_after_of_not_forgets h ho (Ne.symm hne) hfirst)
    · by_cases hfirst : m.Forgets o
      · -- what is forgotten first is still forgotten after the rest
        have hnone := fault_after_of_forgets hfirst
        obtain ⟨-, hfrozen'⟩ := frozenAs_afterAll hhalted hops fun hmem => absurd hmem hlater
        rcases hfrozen'.fault with hkept | hnone'
        · exact hkept.trans hnone
        · exact hnone'
      · exact hforgets fun hrest => hsome ⟨hfirst, hrest⟩

/-- A halted machine is frozen, be it halted by request, by quitting or by a fault.

If the fault was not an unknown opcode, or there was none, every run leaves it frozen: each
cycle and each slice of time reports that it is halted, it never steps on, and at most its
keypad, the remainders of its pacer and, for good, the record of its fault change.

If it met an unknown opcode, the same holds until it is asked to step on. It does so then,
unless a request to halt, or a slice of time that saw the request to quit, has come before
that. In this case it stays frozen for good, and never steps on. -/
theorem halted_frozen (m : Machine) :
    (∀ l cause, ComesToHalt l cause m → m.state = .halted ∧ m.fault = cause) ∧
    (m.state = .halted → (∀ w, m.fault ≠ some (.unknownOpcode w)) →
      ∀ ops, (∀ o ∈ ops, o.IsOfHalt) →
        m.Each AnswersHalted ops ∧ m.FrozenAs (m.afterAll ops)) ∧
    (m.state = .halted → (∃ w, m.fault = some (.unknownOpcode w)) →
      ∀ ops, (∀ o ∈ ops, o.IsOfHalt) → .skip ∉ ops →
        let n := m.afterAll ops
        m.Each AnswersHalted ops ∧ m.FrozenAs n ∧
        (m.Each (fun n o => ¬n.Forgets o) ops → n.answer .skip = .ok .done) ∧
        (¬m.Each (fun n o => ¬n.Forgets o) ops →
          ∀ ops', (∀ o ∈ ops', o.IsOfHalt) →
            n.Each AnswersHalted ops' ∧ m.FrozenAs (n.afterAll ops'))) := by
  refine ⟨fun l cause => ComesToHalt.halted, ?_, ?_⟩
  · intro hhalted hfault ops hops
    exact frozenAs_afterAll hhalted hops fun _ => hfault
  · rintro hhalted ⟨w, hw⟩ ops hops hskip n
    obtain ⟨hanswers, hfrozen⟩ := frozenAs_afterAll hhalted hops fun hmem => absurd hmem hskip
    obtain ⟨hkeeps, hforgets⟩ := fault_afterAll_of_halted hhalted hops hskip
    refine ⟨hanswers, hfrozen, fun hnone => ?_, fun hsome ops' hops' => ?_⟩
    · rw [answer, skip_of_unknownOpcode ((hkeeps hnone).trans hw)]
      rfl
    · obtain ⟨hanswers', hfrozen'⟩ :=
        frozenAs_afterAll (hfrozen.state.trans hhalted) hops' fun _ w => by
          rw [hforgets hsome]
          nofun
      exact ⟨hanswers', hfrozen.trans hfrozen'⟩

/-- A machine without a program halts on the unknown opcode `0000`. It can step on after some
time, but not once it has been asked to halt, and neither can a machine that was only ever
asked to. -/
theorem halted_frozen_withoutProgram :
    let m := withoutProgram.fail (.unknownOpcode 0)
    m.FrozenAs (m.afterAll [.cycle, .keyDown 5, .advance 7]) ∧
      (m.afterAll [.cycle, .keyDown 5, .advance 7]).answer .skip = .ok .done ∧
      (m.afterAll [.cycle, .halt]).Each AnswersHalted [.skip, .advance 7, .skip] ∧
      withoutProgram.halt.Each AnswersHalted [.cycle, .skip] := by
  intro m
  have hcycle : withoutProgram.cycle = ⟨.error _, m, _⟩ :=
    cycle_of_fetch_error rfl fetch?_withoutProgram
  have hcomes : ComesToHalt withoutProgram (some (.unknownOpcode 0)) m := by
    have hfails := ComesToHalt.fails (congrArg Outcome.result hcycle) (by rw [hcycle]; rfl)
    rwa [hcycle] at hfails
  obtain ⟨hhalts, -, hsteps⟩ := halted_frozen m
  obtain ⟨hhalts', hfrozen', -⟩ := halted_frozen withoutProgram.halt
  obtain ⟨hhalted, hfault⟩ := hhalts _ _ hcomes
  obtain ⟨hhalted', hfault'⟩ := hhalts' _ _ (.asked withoutProgram)
  obtain ⟨-, hfrozen, hskip, -⟩ := hsteps hhalted ⟨0, hfault⟩ [.cycle, .keyDown 5, .advance 7]
    (by simp [Operation.IsOfHalt]) (by simp)
  obtain ⟨-, -, -, hnever⟩ := hsteps hhalted ⟨0, hfault⟩ [.cycle, .halt]
    (by simp [Operation.IsOfHalt]) (by simp)
  obtain ⟨hanswers, -⟩ := hnever (fun h => h.2.1 trivial) [.skip, .advance 7, .skip]
    (by simp [Operation.IsOfHalt])
  obtain ⟨hanswers', -⟩ := hfrozen' hhalted' (by rw [hfault']; nofun) [.cycle, .skip]
    (by simp [Operation.IsOfHalt])
  exact ⟨hfrozen, hskip ⟨not_false, not_false, Bool.false_ne_true, trivial⟩, hanswers, hanswers'⟩

end Machine

end Chip8
