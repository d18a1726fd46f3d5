import Chip8.Proofs.Atomicity
import Chip8.Proofs.Failure
import Chip8.Proofs.Reachable

/-!
# What holds of every reachable machine

The program counter is a word and could wrap, the register that a wait names could be
missing, and the record of a fault could be out of step with the run state. None of that
happens to a machine that its owner only uses as `Operation` says. The reason is a set
of facts that carry each other: the bound of the program counter rests on that of the
return addresses, these rest on the bound below which an instruction can be fetched, and
a machine that waits or that has met an unknown opcode still points at the instruction
it stopped at.

The facts are said about the view, and a cycle is followed through the table: a row
does one of four things to the flow of control (`View.Turn`).

## Main statements

* `View.Invariant.turn`: what a row can do to the flow of control preserves the
  invariant.
* `Machine.invariant_after`: every operation preserves it.
* `Reachable.never_wraps`: the invariant holds of every reachable machine, so no sum of
  addresses wraps and no wait fails.
-/

namespace Chip8

/-- The faults that halt a machine. -/
def Fault.Halts : Fault → Prop
  | .unknownOpcode _ | .addressOutOfRange .. | .stackOverflow | .stackUnderflow => True
  | _ => False

namespace View

/-- What holds of every reachable machine. -/
structure Invariant (s : View) : Prop where
  /-- A fault is only remembered by a machine that it has halted. -/
  fault : ∀ f, s.fault = some f → s.state = .halted ∧ f.Halts
  /-- The pressed key has a register to go to. -/
  waiting : ∀ r, s.state = .waiting r → r ≤ 15
  /-- A machine that waits points at the instruction that does. -/
  waitingPc : ∀ r, s.state = .waiting r → s.pc ≤ 4094
  /-- A machine that met an unknown opcode points at it. -/
  resumablePc : ∀ f, s.fault = some f → f.isDecodeFailure = true → s.pc ≤ 4094
  /-- The farthest jump leads from `FFF` on, by what a register can hold. -/
  pc : s.pc ≤ 0x10FE
  depth : s.stack.length ≤ 16
  /-- A call returns behind the instruction that made it. -/
  returns : ∀ a ∈ s.stack, 2 ≤ a ∧ a ≤ 4096
  program : s.program.length ≤ 3584
  pending : ∀ key, s.pending = some key → key < 16
  cycles : s.pacer.cycles.remainder < 1000000000
  ticks : s.pacer.ticks.remainder < 1000000000

/-- A machine that runs and remembers no fault has less to keep to. -/
theorem Invariant.of_running {s : View} (hstate : s.state = .running)
    (hfault : s.fault = none) (hpc : s.pc ≤ 0x10FE) (hdepth : s.stack.length ≤ 16)
    (hreturns : ∀ a ∈ s.stack, 2 ≤ a ∧ a ≤ 4096) (hprogram : s.program.length ≤ 3584)
    (hpending : ∀ key, s.pending = some key → key < 16)
    (hcycles : s.pacer.cycles.remainder < 1000000000)
    (hticks : s.pacer.ticks.remainder < 1000000000) : s.Invariant where
  fault f hf := by
    rw [hfault] at hf
    cases hf
  waiting r hr := by
    rw [hstate] at hr
    cases hr
  waitingPc r hr := by
    rw [hstate] at hr
    cases hr
  resumablePc f hf := by
    rw [hfault] at hf
    cases hf
  pc := hpc
  depth := hdepth
  returns := hreturns
  program := hprogram
  pending := hpending
  cycles := hcycles
  ticks := hticks

/-- A machine that is not halted remembers no fault. -/
theorem Invariant.fault_eq_none {s : View} (h : s.Invariant) (hstate : s.state ≠ .halted) :
    s.fault = none := by
  cases hf : s.fault with
  | none => rfl
  | some f => exact absurd (h.fault f hf).1 hstate

/-! ### Rows -/

/-- What a row can do to the flow of control. -/
inductive Turn (s s' : View) : Prop
  /-- Going on, or to an address from the program. -/
  | move (hpc : s'.pc ≤ s.pc + 4 ∨ s'.pc ≤ 0xFFF + s.v 0) (hstack : s'.stack = s.stack)
    (hstate : s'.state = s.state) (hpending : s'.pending = s.pending)
  | call (hpc : s'.pc < 0x1000) (hstack : s'.stack = (s.pc + 2) :: s.stack)
    (hroom : s.stack.length < 16) (hstate : s'.state = s.state)
    (hpending : s'.pending = s.pending)
  | ret (hstack : s.stack = s'.pc :: s'.stack) (hstate : s'.state = s.state)
    (hpending : s'.pending = s.pending)
  | wait {x : Nat} (hx : x < 16) (hpc : s'.pc = s.pc) (hstack : s'.stack = s.stack)
    (hstate : s'.state = .waiting (UInt8.ofNat x)) (hpending : s'.pending = none)

/-- What no row touches. -/
structure Keeps (s s' : View) : Prop where
  fault : s'.fault = s.fault
  program : s'.program = s.program
  pacer : s'.pacer = s.pacer

end View

section Rows

variable {s s' : View} {n : Nat}

/-- No row forgets a fault or a program, or moves the pacer. -/
theorem Row.keeps (h : Row s n s') : s.Keeps s' := by
  cases h <;> exact ⟨rfl, rfl, rfl⟩

/-- Every row does one of these to the flow of control. -/
theorem Row.turn (h : Row s n s') : s.Turn s' := by
  have hnext : s.pc + 2 ≤ s.pc + 4 := by omega
  cases h with
  | ret hs => exact .ret hs rfl rfl
  | call hn hs => exact .call hn rfl hs rfl rfl
  | awaitKey hx => exact .wait hx rfl rfl rfl rfl
  | jump hn => exact .move (.inr (by dsimp only; omega)) rfl rfl rfl
  | jumpOffset hn => exact .move (.inr (by dsimp only; omega)) rfl rfl rfl
  | skipEqualsByte | skipDiffersByte | skipEquals | skipDiffers | skipPressed
  | skipReleased =>
    refine .move (.inl ?_) rfl rfl rfl
    simp only [View.skipIf]
    split <;> omega
  | _ => exact .move (.inl hnext) rfl rfl rfl

/-- The invariant survives a row, where an instruction can be fetched. -/
theorem View.Invariant.turn (h : s.Invariant) (hrun : s.state = .running) (hpc : s.pc ≤ 4094)
    (hv : s.v 0 < 256) (hkeeps : s.Keeps s') (hturn : s.Turn s') : s'.Invariant := by
  have hfault : s'.fault = none := by
    rw [hkeeps.fault]
    refine h.fault_eq_none fun hhalted => ?_
    cases hrun.symm.trans hhalted
  have hprogram := hkeeps.program ▸ h.program
  have hcycles := hkeeps.pacer ▸ h.cycles
  have hticks := hkeeps.pacer ▸ h.ticks
  cases hturn with
  | move hpc' hstack hstate hpending =>
    refine .of_running (hstate.trans hrun) hfault ?_ ?_ ?_ hprogram ?_ hcycles hticks
    · omega
    · exact hstack ▸ h.depth
    · exact hstack ▸ h.returns
    · exact hpending ▸ h.pending
  | call hpc' hstack hroom hstate hpending =>
    refine .of_running (hstate.trans hrun) hfault ?_ ?_ ?_ hprogram ?_ hcycles hticks
    · omega
    · rw [hstack, List.length_cons]
      exact hroom
    · rw [hstack, List.forall_mem_cons]
      exact ⟨⟨by omega, by omega⟩, h.returns⟩
    · exact hpending ▸ h.pending
  | ret hstack hstate hpending =>
    have hdepth := h.depth
    have hreturns := h.returns
    rw [hstack, List.length_cons] at hdepth
    rw [hstack, List.forall_mem_cons] at hreturns
    obtain ⟨⟨-, hpc'⟩, hrest⟩ := hreturns
    refine .of_running (hstate.trans hrun) hfault ?_ ?_ hrest hprogram ?_ hcycles hticks
    · omega
    · omega
    · exact hpending ▸ h.pending
  | wait hx hpc' hstack hstate hpending =>
    obtain ⟨x, hx, rfl⟩ := exists_digit hx
    rw [UInt8.ofNat_toNat] at hstate
    refine ⟨?_, ?_, ?_, ?_, ?_, hstack ▸ h.depth, hstack ▸ h.returns, hprogram, ?_,
      hcycles, hticks⟩
    · intro f hf
      rw [hfault] at hf
      cases hf
    · intro r hr
      rw [hstate] at hr
      cases hr
      exact UInt8.le_iff_toNat_le.2 (Nat.le_of_lt_succ (toNat_lt_registerCount hx))
    · intro r hr
      rw [hpc']
      exact hpc
    · intro f hf
      rw [hfault] at hf
      cases hf
    · omega
    · intro key hkey
      rw [hpending] at hkey
      cases hkey

end Rows

namespace Machine

variable {m : Machine}

/-! ### Cycles -/

/-- A register holds less than 256. -/
theorem v_lt (m : Machine) (k : Nat) : m.view.v k < 256 :=
  UInt8.toNat_lt _

/-- Behind the last instruction that can be fetched, the program counter is still within its
bound. -/
theorem next_le (hpc : m.registers.pc.toNat ≤ 4094) :
    (m.registers.pc + 2).toNat ≤ 0x10FE := by
  have hmoved : (m.registers.pc + 2).toNat = m.registers.pc.toNat + 2 :=
    congrArg View.pc (m.view_next hpc)
  omega

/-- A key wait ends behind the instruction that waited. -/
theorem invariant_poll (h : m.view.Invariant) {r : UInt8} (hwait : m.state = .waiting r) :
    (m.poll r).machine.view.Invariant := by
  have hpc : m.registers.pc.toNat ≤ 4094 := h.waitingPc r hwait
  have hr : r.toNat < registerCount :=
    Nat.lt_succ_of_le (UInt8.le_iff_toNat_le.1 (h.waiting r hwait))
  have hfault : m.fault = none := by
    refine h.fault_eq_none fun hhalted => ?_
    cases hwait.symm.trans hhalted
  rw [poll]
  cases m.keypad.pending with
  | none => exact h
  | some key =>
    simp only [Registers.set?_of_lt hr]
    refine .of_running rfl hfault (next_le hpc) h.depth h.returns h.program ?_
      h.cycles h.ticks
    rintro key' ⟨⟩

/-- A failed cycle has a cause, which is among the faults that halt a machine. -/
theorem invariant_failed (h : m.view.Invariant) {f : Fault} (hf : Failure m.view f) :
    { m with state := .halted, fault := some f }.view.Invariant := by
  refine ⟨?_, nofun, nofun, ?_, h.pc, h.depth, h.returns, h.program, h.pending,
    h.cycles, h.ticks⟩
  · rintro f' ⟨⟩
    refine ⟨rfl, ?_⟩
    cases hf <;> trivial
  · rintro f' ⟨⟩ hdecode
    cases hf with
    | decode hpc => exact hpc
    | _ => cases hdecode

/-- A cycle preserves the invariant, be it that it executes, fails, or waits. -/
theorem invariant_cycle (h : m.view.Invariant) : m.cycle.machine.view.Invariant := by
  cases hstate : m.state with
  | halted =>
    rw [cycle, hstate]
    exact h
  | waiting r =>
    rw [cycle, hstate]
    exact invariant_poll h hstate
  | running =>
    cases hresult : m.cycle.result with
    | error f =>
      rw [cycle_refused hstate hresult]
      exact invariant_failed h ((cycle_eq_error_iff hstate).1 hresult)
    | ok state =>
      obtain ⟨hpc, hrow⟩ := row_of_cycle hstate hresult
      exact h.turn hstate hpc (m.v_lt 0) hrow.keeps hrow.turn

/-! ### Other operations -/

/-- A machine that has just been switched on, whose pacer has nothing left over, keeps to it. -/
theorem invariant_powerOn {p : Pacer} (hcycles : p.cycles.remainder = 0)
    (hticks : p.ticks.remainder = 0) (random : ByteStream) :
    (powerOn p random).view.Invariant := by
  have hstart : programStart.toNat ≤ 0x10FE := by decide
  refine .of_running rfl rfl hstart (Nat.zero_le 16) nofun (Nat.zero_le 3584) nofun ?_ ?_
  · exact Nat.lt_of_le_of_lt (Nat.le_of_eq hcycles) (Nat.succ_pos _)
  · exact Nat.lt_of_le_of_lt (Nat.le_of_eq hticks) (Nat.succ_pos _)

/-- A load puts no more into memory than fits, or nothing. -/
theorem invariant_load (h : m.view.Invariant) (program : List UInt8) :
    (m.load program).machine.view.Invariant := by
  rw [load]
  cases hload : m.memory.load? program with
  | error f => exact h
  | ok memory =>
    have hlength : program.length ≤ 3584 := by
      rw [Memory.load?] at hload
      split at hload
      · next hle => exact hle
      · cases hload
    exact { h with program := hlength }

/-- A reset preserves the invariant from nothing, as it switches the machine on again. -/
theorem invariant_reset (m : Machine) : m.reset.machine.view.Invariant :=
  invariant_load (invariant_powerOn rfl rfl _) _

/-- A halt that is asked for leaves no fault behind. -/
theorem invariant_halt (h : m.view.Invariant) : m.halt.view.Invariant :=
  { h with fault := nofun, waiting := nofun, waitingPc := nofun, resumablePc := nofun }

/-- A tick moves nothing that the invariant speaks of. -/
theorem invariant_tick (h : m.view.Invariant) : m.tick.view.Invariant := by
  rw [tick]
  split
  · exact { h with }
  · exact h

/-- Only an unknown opcode is stepped over, and it has been fetched, so the step does not wrap. -/
theorem invariant_skip (h : m.view.Invariant) : m.skip.machine.view.Invariant := by
  rw [skip]
  split
  · next hresumable =>
    obtain ⟨f, hf, hdecode⟩ := (Option.any_eq_true _ _).1 hresumable
    have hpc : m.registers.pc.toNat ≤ 4094 := h.resumablePc f hf hdecode
    exact .of_running rfl rfl (next_le hpc) h.depth h.returns h.program h.pending
      h.cycles h.ticks
  · exact h

/-- What the pacer keeps of a slice is less than a beat. -/
theorem invariant_pace (h : m.view.Invariant) (nanos : Nat) :
    { m with pacer := m.pacer.advance nanos }.view.Invariant :=
  { h with
    cycles := Metronome.remainder_advance_lt _ _
    ticks := Metronome.remainder_advance_lt _ _ }

/-- Keys are reported by their numbers, so the pending press has one of those. -/
theorem invariant_keypad (h : m.view.Invariant) {k : Keypad}
    (hk : ∀ key, k.pending = some key → key.toNat < keyCount) :
    { m with keypad := k }.view.Invariant := by
  refine { h with pending := ?_ }
  intro n hn
  obtain ⟨key, hkey, rfl⟩ := Option.map_eq_some_iff.1 hn
  exact hk key hkey

/-- The pending press is that of a key that exists. -/
theorem pending_lt (h : m.view.Invariant) {key : UInt8}
    (hkey : m.keypad.pending = some key) :
    key.toNat < keyCount :=
  h.pending key.toNat (congrArg (Option.map UInt8.toNat) hkey)

/-- A key that goes down latches its own number, which has been checked. -/
theorem invariant_keyDown (h : m.view.Invariant) (key : UInt8) :
    (m.reportKey (m.keypad.keyDown? key)).view.Invariant := by
  rw [Keypad.keyDown?]
  split
  · next hkey =>
    refine invariant_keypad h ?_
    intro key' hkey'
    simp only at hkey'
    split at hkey'
    · exact pending_lt h hkey'
    · cases hpending : m.keypad.pending with
      | none =>
        rw [hpending] at hkey'
        cases hkey'
        exact hkey
      | some old =>
        rw [hpending] at hkey'
        cases hkey'
        exact pending_lt h hpending
  · exact h

/-- A key that goes up latches nothing. -/
theorem invariant_keyUp (h : m.view.Invariant) (key : UInt8) :
    (m.reportKey (m.keypad.keyUp? key)).view.Invariant := by
  rw [Keypad.keyUp?]
  split
  · exact invariant_keypad h fun _ => pending_lt h
  · exact h

/-- Every operation preserves the invariant. -/
theorem invariant_after (h : m.view.Invariant) (o : Operation) :
    (m.after o).view.Invariant := by
  cases o with
  | load program => exact invariant_load h program
  | reset => exact invariant_reset m
  | cycle => exact invariant_cycle h
  | tick => exact invariant_tick h
  | advance nanos =>
    refine advance_preserves (P := fun m => m.view.Invariant) ?_ ?_ ?_ ?_ nanos h
    · exact fun _ => invariant_halt
    · exact fun _ nanos h => invariant_pace h nanos
    · exact fun _ => invariant_cycle
    · exact fun _ => invariant_tick
  | halt => exact invariant_halt h
  | skip => exact invariant_skip h
  | keyDown key => exact invariant_keyDown h key
  | keyUp key => exact invariant_keyUp h key
  | clearPending => exact invariant_keypad h nofun
  | requestQuit => exact invariant_keypad h fun _ => pending_lt h
  | releaseKeys => exact invariant_keypad h nofun

end Machine

/-! ### Reachable machines -/

/-- The sums of addresses that a machine forms: the address of the next instruction,
which is also what a call puts on the stack, that of the instruction after it, and the
target of a jump with an offset. None of them wraps. -/
structure Machine.NeverWraps (m : Machine) : Prop where
  next : (m.registers.pc + 2).toNat = m.registers.pc.toNat + 2
  skip : (m.registers.pc + 4).toNat = m.registers.pc.toNat + 4
  offset : ∀ w base a, m.fetch? = .ok (w, .jumpOffset base) → m.registers.get? 0 = .ok a →
    (base + a.toUInt16).toNat = base.toNat + a.toNat

namespace Reachable

variable {m : Machine}

/-- The invariant holds of every reachable machine. -/
theorem view_invariant (h : Reachable m) : m.view.Invariant := by
  induction h with
  | powerOn cycleRate tickRate random =>
    exact Machine.invariant_powerOn rfl rfl random
  | after _ o ih => exact Machine.invariant_after ih o
  | pace _ nanos ih => exact Machine.invariant_pace ih nanos

/-- Whatever its owner has asked of a machine, the invariant holds of it, a key wait of
it ends well, and no sum of addresses that it forms wraps. -/
theorem never_wraps (h : Reachable m) :
    m.view.Invariant ∧ (∀ r, m.state = .waiting r → ∃ state, m.cycle.result = .ok state) ∧
      m.NeverWraps := by
  have hinv := h.view_invariant
  have hpc : m.registers.pc.toNat ≤ 0x10FE := hinv.pc
  refine ⟨hinv, fun r hr => Machine.cycle_of_waiting hr (hinv.waiting r hr), ?_, ?_, ?_⟩
  · rw [UInt16.toNat_add, Nat.mod_eq_of_lt]
    · rfl
    · simp only [UInt16.reduceToNat]
      omega
  · rw [UInt16.toNat_add, Nat.mod_eq_of_lt]
    · rfl
    · simp only [UInt16.reduceToNat]
      omega
  · intro w base a hfetch hget
    obtain ⟨-, ⟨hbase, -⟩, -⟩ := Machine.fetch?_eq_ok_iff_spells.1 hfetch
    have hb : base.toNat < 0x1000 := UInt16.lt_iff_toNat_lt.1 hbase
    have ha := a.toNat_lt
    rw [UInt16.toNat_add, UInt8.toNat_toUInt16, Nat.mod_eq_of_lt (by omega)]

/-- A machine that waited for a key and has got it. -/
theorem never_wraps_awaitKey :
    let m : Machine :=
      (Machine.powerOn (.start 700 60) .zeros).after (.load [0xF1, 0x0A])
    let m' := ((m.after .cycle).after (.keyDown 5)).after .cycle
    m'.view.Invariant ∧ m'.NeverWraps := by
  intro m m'
  have hloaded : Reachable m := .after (.powerOn 700 60 _) _
  have hresumed : Reachable m' := ((hloaded.after .cycle).after (.keyDown 5)).after .cycle
  obtain ⟨hinv, -, hwrap⟩ := hresumed.never_wraps
  exact ⟨hinv, hwrap⟩

end Reachable

end Chip8
