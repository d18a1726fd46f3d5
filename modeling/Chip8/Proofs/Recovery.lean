import Chip8.Host.Session
import Chip8.Proofs.Halted

/-!
# Stepping over unknown opcodes

A machine that meets an unknown opcode halts, but its owner may step over it and go on. An
owner who does so every time, as soon as a cycle has failed, has in effect another machine:
one for which an unknown opcode is an instruction that does nothing. The two take the same
course, call by call. What is behind it is that an unknown opcode is found out before
anything has been done, that the machine has remembered nothing else than this opcode when
it is asked to step over it, and that there is no way on from any other fault.

## Main statements

* `Machine.unknown?_eq_some_iff`: where a machine meets an unknown opcode, in plain numbers.
* `Machine.Going.callTurn`: what a call comes to.
* `Machine.OnOrOff.afterCalls_persist`: the two machines take the same course.
* `Machine.recovery_passes`: that, and what happens at unknown opcodes and at other faults.
-/

namespace Chip8.Machine

open Instruction

variable {m : Machine} {w : Opcode} {f : Fault}

/-! ### The two machines -/

/-- The word at the program counter, if the machine is about to execute it and no instruction
has this opcode. -/
def unknown? (m : Machine) : Option Opcode :=
  match m.state, m.memory.readOpcode? m.registers.pc with
  | .running, .ok w => if (ofOpcode? w).isNone then some w else none
  | _, _ => none

/-- A cycle of the machine for which an unknown opcode is an instruction that does nothing.
-/
def pass (m : Machine) : Outcome RunState :=
  match m.unknown? with
  | some _ => ⟨.ok .running, { m with registers := m.registers.next }, #[]⟩
  | none => m.cycle

/-- A cycle, and if it fails on an unknown opcode, at once the step over it. -/
def persist (m : Machine) : Outcome RunState :=
  recover m.cycle

/-- The machine after some calls, each of the machine that the call before it has left. -/
def afterCalls (call : Machine → Outcome RunState) (m : Machine) : Nat → Machine
  | 0 => m
  | n + 1 => (call (afterCalls call m n)).machine

/-- After one call the machine is what the call has left. -/
theorem afterCalls_one (call : Machine → Outcome RunState) (m : Machine) :
    m.afterCalls call 1 = (call m).machine := rfl

/-! ### Unknown opcodes -/

/-- A machine meets an unknown opcode if it runs, there is a word at the program counter, and
the word is not in the table. -/
theorem unknown?_eq_some_iff :
    m.unknown? = some w ↔
      m.state = .running ∧ m.view.pc ≤ 4094 ∧ m.view.word = w.toNat ∧ ¬InTable w.toNat := by
  rw [unknown?]
  by_cases hpc : m.view.pc ≤ 4094
  · obtain ⟨w', hread, hw'⟩ := m.exists_readOpcode hpc
    rw [hread, ← hw', UInt16.toNat_inj]
    cases m.state with
    | running =>
      simp only [Option.isNone_iff_eq_none, ofOpcode?_eq_none_iff,
        Option.ite_none_right_eq_some, Option.some.injEq, true_and, hpc]
      constructor
      · rintro ⟨hnone, rfl⟩
        exact ⟨rfl, hnone⟩
      · rintro ⟨rfl, hnone⟩
        exact ⟨hnone, rfl⟩
    | waiting x | halted =>
      constructor
      · intro h
        cases h
      · rintro ⟨hrun, -⟩
        cases hrun
  · have hread : m.memory.readOpcode? m.registers.pc =
        .error (Memory.outOfRange m.registers.pc 2) :=
      dif_neg fun hin => hpc (Nat.le_of_lt_succ (Nat.lt_of_succ_lt_succ hin))
    rw [hread]
    constructor
    · intro h
      cases hstate : m.state <;> rw [hstate] at h <;> cases h
    · rintro ⟨-, hpc', -⟩
      exact absurd hpc' hpc

/-- A cycle that meets an unknown opcode halts on it and changes nothing else. -/
theorem cycle_of_unknown (h : m.unknown? = some w) :
    m.cycle = ⟨.error (.unknownOpcode w), m.fail (.unknownOpcode w),
      #[.failed m.registers.pc (.unknownOpcode w)]⟩ := by
  obtain ⟨hrun, hpc, hw, hnone⟩ := unknown?_eq_some_iff.1 h
  refine cycle_of_fetch_error hrun (fetch?_eq_error_iff.2 (.inr ⟨hpc, hw ▸ hnone, ?_⟩))
  rw [hw, UInt16.ofNat_toNat]

/-- A running machine that fails with an unknown opcode has met it, and has not been refused
an instruction. -/
theorem unknown?_of_cycle (hrun : m.state = .running)
    (hresult : m.cycle.result = .error (.unknownOpcode w)) : m.unknown? = some w := by
  have hfailure := (cycle_eq_error_iff hrun).1 hresult
  generalize hf : Fault.unknownOpcode w = f at hfailure
  cases hfailure with
  | decode hpc hnone =>
    obtain ⟨w', -, hw'⟩ := m.exists_readOpcode hpc
    rw [← hw', UInt16.ofNat_toNat] at hf
    obtain rfl := Fault.unknownOpcode.inj hf
    exact unknown?_eq_some_iff.2 ⟨hrun, hpc, hw'.symm, hw' ▸ hnone⟩
  | _ => cases hf

/-! ### Single calls -/

/-- The machine is on: it has no fault on record, it is not halted, and if it waits for a key,
there is a register for it. -/
structure Going (m : Machine) : Prop where
  fault : m.fault = none
  state : m.state ≠ .halted
  register : ∀ x, m.state = .waiting x → x ≤ 15

/-- A machine that runs without a fault on record is on. -/
theorem Going.of_running (hrun : m.state = .running) (hfault : m.fault = none) : m.Going where
  fault := hfault
  state hhalted := by cases hhalted.symm.trans hrun
  register x hwait := by cases hwait.symm.trans hrun

/-- A cycle that succeeds leaves the machine on. -/
theorem Going.cycle (h : m.Going) {state : RunState} (hresult : m.cycle.result = .ok state) :
    m.cycle.machine.Going := by
  cases m.cycleTurn with
  | executes hi =>
    obtain ⟨hrun, -, -⟩ := executed?_eq_some_iff.1 hi
    obtain ⟨hkeeps, hstate⟩ := effect?_keeps (effect?_of_executed hi).1
    have hfault : m.cycle.machine.fault = none := hkeeps.fault.trans h.fault
    rcases hstate with hsame | ⟨x, -, hx, hwait⟩
    · exact .of_running (hsame.trans hrun) hfault
    · refine ⟨hfault, fun hhalted => ?_, fun x' hwait' => ?_⟩
      · cases hwait.symm.trans hhalted
      · obtain rfl := RunState.waiting.inj (hwait.symm.trans hwait')
        exact hx
  | fails hfails => cases hfails.symm.trans hresult
  | stays hcycle =>
    rw [hcycle]
    exact h
  | takes _ hcycle =>
    rw [hcycle]
    exact .of_running rfl h.fault
  | loses hcycle =>
    rw [hcycle] at hresult
    cases hresult

/-- A cycle that fails was made by a running machine. -/
theorem Going.running (h : m.Going) (hresult : m.cycle.result = .error f) :
    m.state = .running := by
  cases hstate : m.state with
  | running => rfl
  | halted => exact absurd hstate h.state
  | waiting x =>
    obtain ⟨state, hok⟩ := cycle_of_waiting hstate (h.register x hstate)
    cases hok.symm.trans hresult

/-- A machine that is on and has met an unknown opcode steps over it, and is as before but for
the program counter. -/
theorem Going.skip (h : m.Going) (hunknown : m.unknown? = some w) :
    m.cycle.machine.skip =
      ⟨.ok (), { m with registers := m.registers.next }, #[.skipping m.registers.pc]⟩ := by
  obtain ⟨hrun, -⟩ := unknown?_eq_some_iff.1 hunknown
  rw [cycle_of_unknown hunknown, skip_of_unknownOpcode rfl, ← h.fault, ← hrun]
  rfl

/-- So its call comes to a step past the opcode, and reports both the failure and the step. -/
theorem Going.persist_of_unknown (h : m.Going) (hunknown : m.unknown? = some w) :
    m.persist =
      ⟨.ok .running, { m with registers := m.registers.next },
        #[.failed m.registers.pc (.unknownOpcode w), .skipping m.registers.pc]⟩ := by
  have hskip := h.skip hunknown
  obtain ⟨hrun, -⟩ := unknown?_eq_some_iff.1 hunknown
  rw [cycle_of_unknown hunknown] at hskip
  simp only [persist, recover, cycle_of_unknown hunknown, Fault.isDecodeFailure, if_true, hskip]
  rw [← hrun]
  rfl

/-- No other cycle is followed by a step over anything. -/
theorem persist_eq_cycle (h : ∀ f, m.cycle.result = .error f → f.isDecodeFailure = false) :
    m.persist = m.cycle := by
  cases hresult : m.cycle.result with
  | ok state => simp only [persist, recover, hresult]
  | error f => simp only [persist, recover, hresult, h f hresult, Bool.false_eq_true, if_false]

/-- What a call to a machine that is on comes to. -/
inductive CallTurn (m : Machine) : Prop
  /-- It steps over an unknown opcode. -/
  | passes {w : Opcode} (hunknown : m.unknown? = some w)
  /-- It is a cycle that succeeds. -/
  | succeeds {state : RunState} (hresult : m.cycle.result = .ok state)
    (hpersist : m.persist = m.cycle) (hpass : m.pass = m.cycle)
  /-- It is a cycle that fails for another reason. -/
  | fails {f : Fault} (hdecode : f.isDecodeFailure = false)
    (hresult : m.cycle.result = .error f) (hmachine : m.cycle.machine = m.fail f)
    (hpersist : m.persist = m.cycle) (hpass : m.pass = m.cycle)

/-- Every call to a machine that is on comes to one of these. -/
theorem Going.callTurn (h : m.Going) : m.CallTurn := by
  cases hunknown : m.unknown? with
  | some w => exact .passes hunknown
  | none =>
    have hpass : m.pass = m.cycle := by rw [pass, hunknown]
    have hother : ∀ f, m.cycle.result = .error f → f.isDecodeFailure = false := by
      intro f hresult
      rw [← Bool.not_eq_true]
      intro hdecode
      obtain ⟨w, rfl⟩ := Fault.isDecodeFailure_iff.1 hdecode
      cases (unknown?_of_cycle (h.running hresult) hresult).symm.trans hunknown
    have hpersist := persist_eq_cycle hother
    cases hresult : m.cycle.result with
    | ok state => exact .succeeds hresult hpersist hpass
    | error f =>
      exact .fails (hother f hresult) hresult (cycle_refused (h.running hresult) hresult)
        hpersist hpass

/-! ### Calls in a run

In a run the machine is on until it is halted, and then it stays halted. -/

/-- The machine is on, or it is halted. -/
def OnOrOff (m : Machine) : Prop :=
  m.Going ∨ m.state = .halted

/-- A call to a halted machine does nothing. -/
theorem persist_of_halted (h : m.state = .halted) : m.persist = ⟨.ok .halted, m, #[]⟩ := by
  simp only [persist, recover, cycle_of_halted h]

/-- So it is with the machine for which nothing is unknown. -/
theorem pass_of_halted (h : m.state = .halted) : m.pass = ⟨.ok .halted, m, #[]⟩ := by
  have hknown : m.unknown? = none := by rw [unknown?, h]
  rw [pass, hknown, cycle_of_halted h]

namespace OnOrOff

/-- A call leaves the machine on, or it has halted it. -/
theorem after_persist (h : m.OnOrOff) : m.persist.machine.OnOrOff := by
  rcases h with hgoing | hhalted
  · cases hgoing.callTurn with
    | passes hunknown =>
      obtain ⟨hrun, -⟩ := unknown?_eq_some_iff.1 hunknown
      rw [hgoing.persist_of_unknown hunknown]
      exact .inl (.of_running hrun hgoing.fault)
    | succeeds hresult hpersist _ =>
      rw [hpersist]
      exact .inl (hgoing.cycle hresult)
    | fails _ _ hmachine hpersist _ =>
      rw [hpersist, hmachine]
      exact .inr rfl
  · rw [persist_of_halted hhalted]
    exact .inr hhalted

/-- A call to one of the machines comes to the same as a call to the other. -/
theorem persist_eq_pass (h : m.OnOrOff) :
    m.persist.result = m.pass.result ∧ m.persist.machine = m.pass.machine := by
  rcases h with hgoing | hhalted
  · cases hgoing.callTurn with
    | passes hunknown =>
      rw [hgoing.persist_of_unknown hunknown, pass, hunknown]
      exact ⟨rfl, rfl⟩
    | succeeds _ hpersist hpass | fails _ _ _ hpersist hpass =>
      rw [hpersist, hpass]
      exact ⟨rfl, rfl⟩
  · rw [persist_of_halted hhalted, pass_of_halted hhalted]
    exact ⟨rfl, rfl⟩

/-- A cycle fails on an unknown opcode exactly if the machine has met one. -/
theorem cycle_unknown_iff (h : m.OnOrOff) :
    m.cycle.result = .error (.unknownOpcode w) ↔ m.unknown? = some w := by
  constructor
  · intro hresult
    rcases h with hgoing | hhalted
    · exact unknown?_of_cycle (hgoing.running hresult) hresult
    · rw [cycle_of_halted hhalted] at hresult
      cases hresult
  · intro hunknown
    rw [cycle_of_unknown hunknown]

/-- A machine that meets an unknown opcode is on. -/
theorem going (h : m.OnOrOff) (hunknown : m.unknown? = some w) : m.Going := by
  obtain ⟨hrun, -⟩ := unknown?_eq_some_iff.1 hunknown
  rcases h with hgoing | hhalted
  · exact hgoing
  · cases hhalted.symm.trans hrun

/-- A call that fails is a cycle that does so, and halts the machine for good. -/
theorem of_error (h : m.OnOrOff) (hresult : m.persist.result = .error f) :
    f.isDecodeFailure = false ∧ m.cycle.result = .error f ∧ m.persist.machine = m.fail f := by
  rcases h with hgoing | hhalted
  · cases hgoing.callTurn with
    | passes hunknown =>
      rw [hgoing.persist_of_unknown hunknown] at hresult
      cases hresult
    | succeeds hok hpersist _ =>
      rw [hpersist] at hresult
      cases hok.symm.trans hresult
    | fails hdecode hfails hmachine hpersist _ =>
      rw [hpersist] at hresult
      obtain rfl := Except.error.inj (hfails.symm.trans hresult)
      exact ⟨hdecode, hresult, by rw [hpersist, hmachine]⟩
  · rw [persist_of_halted hhalted] at hresult
    cases hresult

end OnOrOff

/-! ### Runs -/

/-- The two machines take the same course. -/
theorem OnOrOff.afterCalls_persist (h : m.OnOrOff) (n : Nat) :
    m.afterCalls persist n = m.afterCalls pass n ∧ (m.afterCalls persist n).OnOrOff := by
  induction n with
  | zero => exact ⟨rfl, h⟩
  | succ n ih =>
    obtain ⟨hsame, hstate⟩ := ih
    obtain ⟨-, hmachine⟩ := hstate.persist_eq_pass
    rw [afterCalls, afterCalls, ← hsame]
    exact ⟨hmachine, hstate.after_persist⟩

/-- Once a call has halted the machine, no call changes it. -/
theorem afterCalls_of_halted {n k : Nat} (hhalted : (m.afterCalls persist n).state = .halted)
    (hle : n ≤ k) : m.afterCalls persist k = m.afterCalls persist n := by
  induction k, hle using Nat.le_induction with
  | base => rfl
  | succ k _ ih => rw [afterCalls, ih, persist_of_halted hhalted]

/-- After a call that has failed, the machine is halted by its fault, and so it stays. -/
theorem afterCalls_of_error {n k : Nat} (hstate : (m.afterCalls persist n).OnOrOff)
    (hresult : (m.afterCalls persist n).persist.result = .error f) (hlt : n < k) :
    m.afterCalls persist k = (m.afterCalls persist n).fail f ∧
      (m.afterCalls persist k).persist.result = .ok .halted := by
  obtain ⟨-, -, hmachine⟩ := hstate.of_error hresult
  have hnext : m.afterCalls persist (n + 1) = (m.afterCalls persist n).fail f := hmachine
  have hhalted : (m.afterCalls persist (n + 1)).state = .halted := by
    rw [hnext]
    rfl
  have hlater := afterCalls_of_halted hhalted hlt
  rw [hlater, persist_of_halted hhalted]
  exact ⟨hnext, rfl⟩

/-- To step over every unknown opcode at once is to have a machine for which an unknown opcode
is an instruction that does nothing. Call by call, the two machines are the same and give the
same result.

A cycle fails to decode exactly where the machine meets an unknown opcode. The step over it is
never refused, it leaves no fault on record, and nothing but the program counter is different
after it. Any other fault, such as the end of memory, is the first and the last: it is handed
back, the machine halts with it, and all later calls find it so. -/
theorem recovery_passes (hrun : m.state = .running) (hfault : m.fault = none) (n : Nat) :
    let l := m.afterCalls persist n
    (l = m.afterCalls pass n ∧ l.persist.result = l.pass.result) ∧
    (∀ w, l.cycle.result = .error (.unknownOpcode w) ↔ l.unknown? = some w) ∧
    (∀ w, l.unknown? = some w →
      l.cycle.machine.skip.result = .ok () ∧ l.persist.result = .ok .running ∧
        l.persist.machine.fault = none ∧
        l.persist.machine.view = { l.view with pc := l.view.pc + 2 }) ∧
    (∀ f, l.persist.result = .error f →
      l.cycle.result = .error f ∧ f.isDecodeFailure = false ∧
        (∀ k < n, ∃ state, (m.afterCalls persist k).persist.result = .ok state) ∧
        ∀ k > n, m.afterCalls persist k = l.fail f ∧
          (m.afterCalls persist k).persist.result = .ok .halted) ∧
    (l.state = .running → 4094 < l.view.pc →
      l.persist.result = .error (.addressOutOfRange l.view.pc 2)) := by
  intro l
  have hstart : m.OnOrOff := .inl (.of_running hrun hfault)
  obtain ⟨hsame, hstate⟩ := hstart.afterCalls_persist n
  obtain ⟨hresult, -⟩ := hstate.persist_eq_pass
  refine ⟨⟨hsame, hresult⟩, fun w => hstate.cycle_unknown_iff, ?_, ?_, ?_⟩
  · intro w hunknown
    obtain ⟨-, hpc, -⟩ := unknown?_eq_some_iff.1 hunknown
    have hgoing := hstate.going hunknown
    have hpersist : l.persist = _ := hgoing.persist_of_unknown hunknown
    rw [hpersist, hgoing.skip hunknown]
    exact ⟨rfl, rfl, hgoing.fault, l.view_next hpc⟩
  · intro f herror
    obtain ⟨hdecode, hcycle, -⟩ := hstate.of_error herror
    refine ⟨hcycle, hdecode, fun k hk => ?_, fun k => afterCalls_of_error hstate herror⟩
    -- an earlier fault would have halted the machine before this one
    cases hbefore : (m.afterCalls persist k).persist.result with
    | ok state => exact ⟨state, rfl⟩
    | error f' =>
      obtain ⟨-, hok⟩ := afterCalls_of_error (hstart.afterCalls_persist k).2 hbefore hk
      cases hok.symm.trans herror
  · intro hrun' hend
    have hcycle : l.cycle.result = .error (.addressOutOfRange l.view.pc 2) :=
      (cycle_eq_error_iff hrun').2 (.fetch hend)
    rw [persist_eq_cycle fun f hf => ?_, hcycle]
    obtain rfl := Except.error.inj (hcycle.symm.trans hf)
    rfl

/-- A machine with the program `5555`, `00EE`: an unknown opcode, and a return from no call. -/
def stumbling : Machine :=
  ((powerOn (.start 700 60) .zeros).load [0x55, 0x55, 0x00, 0xEE]).machine

/-- It meets `5555`, which is in no row of the table. -/
theorem unknown?_stumbling : stumbling.unknown? = some 0x5555 := by
  obtain ⟨hpc, hword⟩ :=
    word_load (n := stumbling) [0x55, 0x55, 0x00, 0xEE] (by decide) rfl (k := 0) (by decide) rfl
  exact unknown?_eq_some_iff.2 ⟨rfl, hpc, hword, ofOpcode?_eq_none_iff.1 rfl⟩

/-- The first call steps over it. -/
theorem persist_stumbling :
    stumbling.persist.machine = { stumbling with registers := stumbling.registers.next } := by
  rw [(Going.of_running rfl rfl).persist_of_unknown unknown?_stumbling]

/-- The second call fails on the return, which is no unknown opcode. -/
theorem persist_recovered_stumbling :
    stumbling.persist.machine.persist.result = .error .stackUnderflow := by
  obtain ⟨hpc, hword⟩ :=
    word_load (n := stumbling.persist.machine) [0x55, 0x55, 0x00, 0xEE] (by decide)
      (by rw [persist_stumbling]; rfl) (k := 2) (by decide) (by rw [persist_stumbling]; rfl)
  have hcycle : stumbling.persist.machine.cycle.result = .error .stackUnderflow :=
    (cycle_eq_error_iff (by rw [persist_stumbling]; rfl)).2
      (.ret hpc hword (by rw [persist_stumbling]; rfl))
  rw [persist_eq_cycle fun f hf => ?_, hcycle]
  obtain rfl := Except.error.inj (hcycle.symm.trans hf)
  rfl

/-- It steps over the one and halts on the other. -/
theorem recovery_passes_stumbling :
    stumbling.persist.machine.view = { stumbling.view with pc := stumbling.view.pc + 2 } ∧
      stumbling.afterCalls persist 2 = stumbling.afterCalls pass 2 ∧
      stumbling.afterCalls persist 2 = stumbling.persist.machine.fail .stackUnderflow ∧
      (stumbling.afterCalls persist 2).persist.result = .ok .halted := by
  obtain ⟨-, -, hover, -⟩ := recovery_passes (m := stumbling) rfl rfl 0
  obtain ⟨-, -, -, hfails, -⟩ := recovery_passes (m := stumbling) rfl rfl 1
  obtain ⟨⟨hsame, -⟩, -⟩ := recovery_passes (m := stumbling) rfl rfl 2
  rw [afterCalls_one] at hfails
  obtain ⟨-, -, -, hview⟩ := hover _ unknown?_stumbling
  obtain ⟨-, -, -, hafter⟩ := hfails _ persist_recovered_stumbling
  obtain ⟨hhalts, hstays⟩ := hafter 2 (by decide)
  exact ⟨hview, hsame, hhalts, hstays⟩

end Chip8.Machine
