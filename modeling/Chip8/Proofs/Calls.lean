import Chip8.Proofs.Run

/-!
# Calls and returns

The stack of calls is touched by two instructions only: `2NNN` puts the address behind
itself on top, and `00EE` takes the top away and continues there. A run of single steps is
therefore a walk up and down the stack, and a call is over when the walk comes back to
where it was. Until then the stack below is a frame that nothing reaches: it is what it was
before the call, with the return address on top of it.

## Main statements

* `Row.stack`: what a row of the table does to the stack.
* `Machine.stackStep`: what one step does to it.
* `Machine.Within.afterAll`: a run that stays above a call keeps its frame.
* `Reachable.calls_return`: calls and returns match.
-/

namespace Chip8

/-! ### Instructions -/

namespace Instruction

variable {i : Instruction}

/-- The instruction opens a call. -/
def isCall : Instruction → Bool
  | .call _ => true
  | _ => false

/-- The instruction closes a call. -/
def isRet : Instruction → Bool
  | .ret => true
  | _ => false

/-- Only a return is written `00EE`. -/
theorem eq_ret_of_encode (hi : i.Encodable) (h : i.encode.toNat = 0x00EE) : i = .ret :=
  encode_injective hi trivial (UInt16.toNat_inj.1 h)

/-- A call is written with its target behind the digit 2. -/
theorem encode_call {target : Address} (h : (call target).Encodable) :
    (call target).encode.toNat = 0x2000 + target.toNat ∧ target.toNat < 0x1000 :=
  ⟨Opcode.toNat_ofNNN h (by decide), UInt16.lt_iff_toNat_lt.1 h⟩

/-- Only a call is written with the digit 2 in front. -/
theorem eq_call_of_encode (hi : i.Encodable) (hlow : 0x2000 ≤ i.encode.toNat)
    (hhigh : i.encode.toNat < 0x3000) : ∃ target, i = .call target := by
  obtain ⟨target, htarget, hword⟩ := exists_address (n := i.encode.toNat - 0x2000) (by omega)
  obtain ⟨hcall, -⟩ := encode_call htarget
  refine ⟨target, encode_injective hi htarget (UInt16.toNat_inj.1 ?_)⟩
  omega

end Instruction

/-- What a row does to the stack of calls. -/
theorem Row.stack {s s' : View} {n : Nat} (h : Row s n s') :
    (n = 0x00EE ∧ s.stack = s'.pc :: s'.stack) ∨
      (0x2000 ≤ n ∧ n < 0x3000 ∧ s'.stack = (s.pc + 2) :: s.stack) ∨
      (n ≠ 0x00EE ∧ (n < 0x2000 ∨ 0x3000 ≤ n) ∧ s'.stack = s.stack) := by
  cases h with
  | ret hs => exact .inl ⟨rfl, hs⟩
  | call hn hs => exact .inr (.inl ⟨by omega, by omega, rfl⟩)
  | _ => exact .inr (.inr ⟨by omega, by omega, rfl⟩)

/-! ### Steps -/

/-- The operation is a single step. A reset begins anew, and a slice of time is many
steps. -/
def Operation.IsStep : Operation → Prop
  | .reset | .advance _ => False
  | _ => True

namespace Machine

variable {m : Machine} {i : Instruction} {o : Operation} {ops : List Operation}
  {base : List Nat} {back : Nat}

/-- What a step does to the stack of calls. -/
inductive StackStep (m : Machine) (o : Operation) : Prop
  | call {target : Address} (hi : m.executedBy o = some (.call target))
    (hstack : (m.after o).view.stack = (m.view.pc + 2) :: m.view.stack)
  | ret (hi : m.executedBy o = some .ret)
    (hstack : m.view.stack = (m.after o).view.pc :: (m.after o).view.stack)
  | keep (hi : ∀ i, m.executedBy o = some i → i.isCall = false ∧ i.isRet = false)
    (hstack : (m.after o).view.stack = m.view.stack)

/-- An executed instruction opens a call, closes one, or leaves the stack alone. -/
theorem stackStep_of_executed (h : m.executed? = some i) : m.StackStep .cycle := by
  obtain ⟨-, hi, hrow⟩ := row_of_executed h
  rcases hrow.stack with ⟨hret, hstack⟩ | ⟨hlow, hhigh, hstack⟩ | ⟨hret, hcall, hstack⟩
  · obtain rfl := Instruction.eq_ret_of_encode hi hret
    exact .ret h hstack
  · obtain ⟨target, rfl⟩ := Instruction.eq_call_of_encode hi hlow hhigh
    exact .call h hstack
  · refine .keep (fun i' hi' => ?_) hstack
    obtain rfl := Option.some.inj (h.symm.trans hi')
    cases i with
    | ret => exact absurd rfl hret
    | call target =>
      obtain ⟨hword, htarget⟩ := Instruction.encode_call hi
      omega
    | _ => exact ⟨rfl, rfl⟩

/-- A cycle that executes nothing leaves the stack alone. -/
theorem view_stack_of_not_executed (h : m.executed? = none) :
    m.cycle.machine.view.stack = m.view.stack := by
  cases m.cycleTurn with
  | executes hi => cases h.symm.trans hi
  | fails _ hmachine =>
    rw [hmachine]
    rfl
  | stays hcycle => rw [hcycle]
  | takes _ hcycle | loses hcycle =>
    rw [hcycle]
    rfl

/-- A step that executes nothing has to leave the stack alone. -/
theorem StackStep.of_idle (hidle : m.executedBy o = none)
    (hstack : (m.after o).view.stack = m.view.stack) : m.StackStep o :=
  .keep (fun i hi => by cases hidle.symm.trans hi) hstack

/-- A step opens a call, closes one, or leaves the stack alone. -/
theorem stackStep (m : Machine) (ho : o.IsStep) : m.StackStep o := by
  cases o with
  | cycle =>
    cases hexecuted : m.executed? with
    | some i => exact stackStep_of_executed hexecuted
    | none => exact .of_idle hexecuted (view_stack_of_not_executed hexecuted)
  | load program =>
    refine .of_idle rfl ?_
    rw [after, load]
    cases m.memory.load? program <;> rfl
  | tick =>
    refine .of_idle rfl ?_
    rw [after, tick]
    split <;> rfl
  | skip =>
    refine .of_idle rfl ?_
    rw [after, skip]
    split <;> rfl
  | keyDown key =>
    refine .of_idle rfl ?_
    rw [after]
    cases m.keypad.keyDown? key <;> rfl
  | keyUp key =>
    refine .of_idle rfl ?_
    rw [after]
    cases m.keypad.keyUp? key <;> rfl
  | halt | clearPending | requestQuit | releaseKeys => exact .of_idle rfl rfl
  | reset | advance nanos => exact ho.elim

/-! ### Depth -/

/-- A step that opens a call makes the stack deeper by one, and one that closes a call makes it
less deep. -/
theorem StackStep.depth (h : m.StackStep o) :
    (m.after o).view.stack.length + (m.executedBy o).toList.countP Instruction.isRet =
      m.view.stack.length + (m.executedBy o).toList.countP Instruction.isCall := by
  cases h with
  | call hi hstack =>
    rw [hi, hstack]
    rfl
  | ret hi hstack =>
    rw [hi, hstack]
    rfl
  | keep hi hstack =>
    rw [hstack]
    cases hexecuted : m.executedBy o with
    | none => rfl
    | some i =>
      obtain ⟨hcall, hret⟩ := hi i hexecuted
      simp [hcall, hret]

/-- The depth of the stack is the number of calls that are open. -/
theorem depth_afterAll (m : Machine) (hops : ∀ o ∈ ops, o.IsStep) :
    (m.afterAll ops).view.stack.length + (m.executed ops).countP Instruction.isRet =
      m.view.stack.length + (m.executed ops).countP Instruction.isCall := by
  induction ops generalizing m with
  | nil => rfl
  | cons o ops ih =>
    obtain ⟨ho, hops⟩ := List.forall_mem_cons.1 hops
    have hfirst := (m.stackStep ho).depth
    have hrest := ih (m.after o) hops
    rw [afterAll_cons, executed, List.countP_append, List.countP_append]
    omega

/-! ### Frames -/

/-- The machine is within the calls of a frame: other calls may have been opened above it.
-/
def Within (frame : List Nat) (m : Machine) : Prop :=
  ∃ upper, m.view.stack = upper ++ frame

/-- A step above a frame does not reach it, unless it is the return from its uppermost
call. -/
theorem Within.after (h : m.Within (back :: base)) (ho : o.IsStep) :
    (m.after o).Within (back :: base) ∨
      m.executedBy o = some .ret ∧ (m.after o).view.pc = back ∧
        (m.after o).view.stack = base := by
  obtain ⟨upper, hupper⟩ := h
  cases m.stackStep ho with
  | call hi hstack => exact .inl ⟨(m.view.pc + 2) :: upper, by rw [hstack, hupper]; rfl⟩
  | keep hi hstack => exact .inl ⟨upper, hstack.trans hupper⟩
  | ret hi hstack =>
    rw [hupper] at hstack
    cases upper with
    | nil =>
      -- the return address of the frame itself is taken
      obtain ⟨hpc, hbase⟩ := List.cons.inj hstack
      exact .inr ⟨hi, hpc.symm, hbase.symm⟩
    | cons top upper => exact .inl ⟨upper, (List.cons.inj hstack).2.symm⟩

/-- Within the calls of a frame the stack is deeper than it is below the frame. -/
theorem Within.depth_lt (h : m.Within (back :: base)) :
    base.length < m.view.stack.length := by
  obtain ⟨upper, hupper⟩ := h
  rw [hupper, List.length_append, List.length_cons]
  omega

/-- A run that stays above a frame does not reach it. -/
theorem Within.afterAll (h : m.Within (back :: base)) (hops : ∀ o ∈ ops, o.IsStep)
    (habove : ∀ pre, pre <+: ops → base.length < (m.afterAll pre).view.stack.length) :
    (m.afterAll ops).Within (back :: base) := by
  induction ops generalizing m with
  | nil => exact h
  | cons o ops ih =>
    obtain ⟨ho, hops⟩ := List.forall_mem_cons.1 hops
    -- a first step that closed the frame would not be above it
    have hfirst : base.length < (m.after o).view.stack.length :=
      habove [o] (List.prefix_append [o] ops)
    rcases h.after ho with hwithin | ⟨-, -, hstack⟩
    · exact ih hwithin hops fun pre hpre => habove (o :: pre) ((List.prefix_cons_inj o).2 hpre)
    · rw [hstack] at hfirst
      exact absurd hfirst (Nat.lt_irrefl _)

/-- A return is executed if a call is open. -/
theorem executed?_of_ret {w : Opcode} {target : Address} {rest : List Address}
    (hrun : m.state = .running) (hfetch : m.fetch? = .ok (w, .ret))
    (hstack : m.registers.stack = target :: rest) : m.executed? = some .ret := by
  have heffect : m.effect? .ret =
      .ok ((m.withRegisters { m.registers with stack := rest }).follow (.jump target)) := by
    rw [effect?, Registers.pop?, hstack]
    rfl
  exact executed?_of_effect hrun hfetch heffect

/-- The machine after a call. -/
theorem after_call {target : Address} (h : m.executed? = some (.call target)) :
    m.after .cycle =
      { m with
        registers :=
          { m.registers with
            pc := target
            stack := (m.registers.pc + 2) :: m.registers.stack } } := by
  obtain ⟨heffect, -⟩ := effect?_of_executed h
  rw [effect?, Registers.push?] at heffect
  split at heffect
  · cases heffect
  · exact (Except.ok.inj heffect).symm

/-- A call puts its return address on the stack. -/
theorem within_call {target : Address} (h : m.executed? = some (.call target)) :
    (m.after .cycle).Within ((m.view.pc + 2) :: m.view.stack) := by
  cases stackStep_of_executed h with
  | call hi hstack => exact ⟨[], hstack⟩
  | ret hi hstack => cases h.symm.trans hi
  | keep hi hstack => cases (hi _ h).1

end Machine

/-- Calls and returns match.

From a call on, as long as the stack is deeper than before it, what was on the stack before
is still there, with the return address of the call above it. The step that makes the stack
as deep as before is a return, which continues behind the call and leaves the stack that was
there before it.

In every run of single steps, the depth of the stack grows by the calls and shrinks by the
returns that were executed. It is never more than sixteen. -/
theorem Reachable.calls_return {m : Machine} (h : Reachable m) :
    (∀ target, m.executed? = some (.call target) → ∀ ops, (∀ o ∈ ops, o.IsStep) →
      let called := m.after .cycle
      (∀ pre, pre <+: ops → m.view.stack.length < (called.afterAll pre).view.stack.length) →
      let n := called.afterAll ops
      n.Within ((m.view.pc + 2) :: m.view.stack) ∧
      ∀ o, o.IsStep → (n.after o).view.stack.length ≤ m.view.stack.length →
        o = .cycle ∧ n.executed? = some .ret ∧ (n.after o).view.pc = m.view.pc + 2 ∧
          (n.after o).view.stack = m.view.stack) ∧
    ∀ ops, (m.afterAll ops).view.stack.length ≤ 16 ∧
      ((∀ o ∈ ops, o.IsStep) →
        (m.afterAll ops).view.stack.length + (m.executed ops).countP Instruction.isRet =
          m.view.stack.length + (m.executed ops).countP Instruction.isCall) := by
  refine ⟨?_, fun ops => ⟨(h.afterAll ops).view_invariant.depth, m.depth_afterAll⟩⟩
  intro target hcall ops hops called habove n
  have hwithin : n.Within ((m.view.pc + 2) :: m.view.stack) :=
    (Machine.within_call hcall).afterAll hops habove
  refine ⟨hwithin, fun o ho hdepth => ?_⟩
  rcases hwithin.after ho with hstill | ⟨hi, hpc, hstack⟩
  · exact absurd hdepth (Nat.not_le_of_lt hstill.depth_lt)
  · obtain ⟨hcycle, hret⟩ := Machine.executedBy_eq_some hi
    exact ⟨hcycle, hret, hpc, hstack⟩

namespace Machine

/-- A machine with a program that calls the last of its three instructions, which
returns. -/
def calling : Machine :=
  (powerOn (.start 700 60) .zeros).after
    (.load [0x22, 0x04, 0x00, 0xE0, 0x00, 0xEE])

/-- Its first instruction is the call. -/
theorem executed?_calling : calling.executed? = some (.call 0x204) := by
  have hfetch : calling.fetch? = .ok _ :=
    fetch?_load [0x22, 0x04, 0x00, 0xE0, 0x00, 0xEE] (i := .call 0x204)
      (by decide) rfl (k := 0) (by decide) rfl (by rw [Instruction.Encodable]; decide)
      (by decide)
  exact executed?_of_effect rfl hfetch rfl

/-- The instruction that is called is the return. -/
theorem executed?_called : (calling.after .cycle).executed? = some .ret := by
  have hcalled := after_call executed?_calling
  have hrun : (calling.after .cycle).state = .running := by
    rw [hcalled]
    rfl
  have hmemory : (calling.after .cycle).memory = calling.memory := by rw [hcalled]
  have hpc : (calling.after .cycle).view.pc = 0x204 := by
    rw [hcalled]
    rfl
  have hstack : (calling.after .cycle).registers.stack = [0x202] := by
    rw [hcalled]
    rfl
  have hfetch : (calling.after .cycle).fetch? = .ok _ :=
    fetch?_load [0x22, 0x04, 0x00, 0xE0, 0x00, 0xEE] (i := .ret) (by decide)
      hmemory (k := 4) (by decide) hpc trivial rfl
  exact executed?_of_ret hrun hfetch hstack

end Machine

/-- The call returns behind itself, with nothing on the stack. -/
theorem Reachable.calls_return_calling :
    (Machine.calling.after .cycle).Within [0x202] ∧
      (Machine.calling.afterAll [.cycle, .cycle]).view.pc = 0x202 ∧
      (Machine.calling.afterAll [.cycle, .cycle]).view.stack = [] := by
  have hloaded : Reachable Machine.calling := .after (.powerOn 700 60 _) _
  have hpc : Machine.calling.view.pc = 0x200 := by decide
  have hstack : Machine.calling.view.stack = [] := by decide
  have hexecuted : Machine.calling.executed [.cycle, .cycle] = [.call 0x204, .ret] := by
    simp only [Machine.executed, Machine.executedBy, Machine.executed?_calling,
      Machine.executed?_called]
    rfl
  have hcalls : [Instruction.call 0x204, .ret].countP Instruction.isCall = 1 := rfl
  have hrets : [Instruction.call 0x204, .ret].countP Instruction.isRet = 1 := rfl
  obtain ⟨hreturns, hdepth⟩ := hloaded.calls_return
  have hbalance := (hdepth [.cycle, .cycle]).2 (by simp [Operation.IsStep])
  obtain ⟨hwithin, hback⟩ := hreturns _ Machine.executed?_calling [] nofun fun pre hpre => by
    rw [List.prefix_nil.1 hpre, Machine.afterAll_nil]
    exact (Machine.within_call Machine.executed?_calling).depth_lt
  rw [Machine.afterAll_cons, Machine.afterAll_cons, Machine.afterAll_nil] at hbalance ⊢
  rw [hexecuted, hcalls, hrets, hstack] at hbalance
  rw [Machine.afterAll_nil, hpc, hstack] at hwithin hback
  obtain ⟨-, -, hpc', hstack'⟩ :=
    hback .cycle trivial (Nat.le_of_eq (Nat.add_right_cancel hbalance))
  exact ⟨hwithin, hpc', hstack'⟩

end Chip8
