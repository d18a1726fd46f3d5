import Chip8.Proofs.Conformance

/-!
# When a cycle fails

The table of instructions has a row only where an instruction can be carried out. This
module has the other half: the faults, one line for each cause, again in plain numbers.
Together the two cover all states, so a running machine fails if and only if one of the
causes is there, and with the fault that stands beside it.

## Main statements

* `Machine.exists_row`: the table is complete, it has a row for each instruction that is
  not refused.
* `Machine.cycle_eq_error_iff`: a cycle of a running machine fails with a fault if and
  only if there is a cause for it.
* `Machine.failure_domain`: that, and what follows for the faults that have no cause
  here and for machines that do not run.
-/

namespace Chip8

open Instruction Opcode

/-! ### Causes -/

/-- A span of cells begins at the index register and leads out of memory. -/
def View.Outside (s : View) (length : Nat) : Prop :=
  4096 < s.i + length

/-- The causes of a fault in a cycle. -/
inductive Failure (s : View) : Fault → Prop
  /-- There is no whole word at the program counter. -/
  | fetch (h : 4094 < s.pc) : Failure s (.addressOutOfRange s.pc 2)
  /-- The word at the program counter is no opcode. -/
  | decode (hpc : s.pc ≤ 4094) (h : ¬InTable s.word) :
    Failure s (.unknownOpcode (UInt16.ofNat s.word))
  /-- `00EE`, and no call is open. -/
  | ret (hpc : s.pc ≤ 4094) (hw : s.word = 0x00EE) (h : s.stack = []) :
    Failure s .stackUnderflow
  /-- `2NNN`, and there is no room for another open call. -/
  | call {nnn : Nat} (hpc : s.pc ≤ 4094) (hn : nnn < 0x1000) (hw : s.word = 0x2000 + nnn)
    (h : 16 ≤ s.stack.length) : Failure s .stackOverflow
  /-- `DXYN` -/
  | draw {x y n : Nat} (hpc : s.pc ≤ 4094) (hx : x < 16) (hy : y < 16) (hn : n < 16)
    (hw : s.word = 0xD000 + 0x100 * x + 0x10 * y + n) (h : s.Outside n) :
    Failure s (.addressOutOfRange s.i n)
  /-- `FX33` -/
  | storeDecimal {x : Nat} (hpc : s.pc ≤ 4094) (hx : x < 16)
    (hw : s.word = 0xF000 + 0x100 * x + 0x33) (h : s.Outside 3) :
    Failure s (.addressOutOfRange s.i 3)
  /-- `FX55` -/
  | storeRegisters {x : Nat} (hpc : s.pc ≤ 4094) (hx : x < 16)
    (hw : s.word = 0xF000 + 0x100 * x + 0x55) (h : s.Outside (x + 1)) :
    Failure s (.addressOutOfRange s.i (x + 1))
  /-- `FX65` -/
  | loadRegisters {x : Nat} (hpc : s.pc ≤ 4094) (hx : x < 16)
    (hw : s.word = 0xF000 + 0x100 * x + 0x65) (h : s.Outside (x + 1)) :
    Failure s (.addressOutOfRange s.i (x + 1))

namespace Machine

variable {m : Machine}

/-! ### Refusals -/

/-- The refusal of a span at the index register, if it leads out of memory. -/
def spanRefusal? (m : Machine) (length : Nat) : Option Fault :=
  if Memory.InBounds m.registers.index length then none
  else some (Memory.outOfRange m.registers.index length)

/-- Why an instruction that was read from memory is refused. -/
def refusal? (m : Machine) : Instruction → Option Fault
  | .ret => if m.registers.stack = [] then some .stackUnderflow else none
  | .call _ => if m.registers.isFull then some .stackOverflow else none
  | .draw _ _ height => m.spanRefusal? height.toNat
  | .storeDecimal _ => m.spanRefusal? 3
  | .storeRegisters x | .loadRegisters x => m.spanRefusal? (x.toNat + 1)
  | _ => none

/-- A span at the index register that is not refused lies in memory. -/
theorem spanRefusal?_eq_none {length : Nat} (h : m.spanRefusal? length = none) :
    m.view.i + length ≤ 4096 := by
  rw [spanRefusal?] at h
  split at h
  · next hin => exact hin
  · cases h

/-- A span at the index register is refused if it does not lie in memory, and the refusal says
which span it is. -/
theorem spanRefusal?_eq_some {length : Nat} {f : Fault}
    (h : m.spanRefusal? length = some f) :
    ¬Memory.InBounds m.registers.index length ∧
      f = Memory.outOfRange m.registers.index length := by
  rw [spanRefusal?] at h
  split at h
  · cases h
  · next hout => exact ⟨hout, (Option.some.inj h).symm⟩

/-- The table has a row for each instruction that is not refused. -/
theorem exists_row {i : Instruction} (hi : i.Encodable) (hr : m.refusal? i = none) :
    ∃ s', Row m.view i.encode.toNat s' := by
  cases i with
  | clearScreen => exact ⟨_, .clearScreen⟩
  | ret =>
    cases hs : m.registers.stack with
    | nil => simp [refusal?, hs] at hr
    | cons target rest => exact ⟨_, .ret (congrArg (List.map UInt16.toNat) hs)⟩
  | jump a =>
    rw [encode, toNat_ofNNN hi]
    exact ⟨_, .jump (UInt16.lt_iff_toNat_lt.1 hi)⟩
  | call a =>
    have hroom : m.view.stack.length < 16 := by
      rw [← Nat.not_le, ← isFull_iff]
      intro hfull
      simp [refusal?, hfull] at hr
    rw [encode, toNat_ofNNN hi]
    exact ⟨_, .call (UInt16.lt_iff_toNat_lt.1 hi) hroom⟩
  | skipIf c =>
    cases c with
    | equalsByte x nn =>
      rw [encode, toNat_ofXNN hi]
      exact ⟨_, .skipEqualsByte (toNat_lt_registerCount hi) nn.toNat_lt⟩
    | differsByte x nn =>
      rw [encode, toNat_ofXNN hi]
      exact ⟨_, .skipDiffersByte (toNat_lt_registerCount hi) nn.toNat_lt⟩
    | equals x y =>
      rw [encode, toNat_ofXYN hi.1 hi.2]
      exact ⟨_, .skipEquals (toNat_lt_registerCount hi.1) (toNat_lt_registerCount hi.2)⟩
    | differs x y =>
      rw [encode, toNat_ofXYN hi.1 hi.2]
      exact ⟨_, .skipDiffers (toNat_lt_registerCount hi.1) (toNat_lt_registerCount hi.2)⟩
    | pressed x =>
      rw [encode, toNat_ofXNN hi]
      exact ⟨_, .skipPressed (toNat_lt_registerCount hi)⟩
    | released x =>
      rw [encode, toNat_ofXNN hi]
      exact ⟨_, .skipReleased (toNat_lt_registerCount hi)⟩
  | setByte x nn =>
    rw [encode, toNat_ofXNN hi]
    exact ⟨_, .setByte (toNat_lt_registerCount hi) nn.toNat_lt⟩
  | addByte x nn =>
    rw [encode, toNat_ofXNN hi]
    exact ⟨_, .addByte (toNat_lt_registerCount hi) nn.toNat_lt⟩
  | copy x y =>
    rw [encode, toNat_ofXYN hi.1 hi.2]
    exact ⟨_, .copy (toNat_lt_registerCount hi.1) (toNat_lt_registerCount hi.2)⟩
  | combine o x y =>
    have hx := toNat_lt_registerCount hi.1
    have hy := toNat_lt_registerCount hi.2
    rw [encode, toNat_ofXYN hi.1 hi.2 o.digit_lt]
    cases o with
    | or => exact ⟨_, .or hx hy⟩
    | and => exact ⟨_, .and hx hy⟩
    | xor => exact ⟨_, .xor hx hy⟩
    | add => exact ⟨_, .add hx hy⟩
    | sub => exact ⟨_, .sub hx hy⟩
    | shiftRight => exact ⟨_, .shiftRight hx hy⟩
    | subFrom => exact ⟨_, .subFrom hx hy⟩
    | shiftLeft => exact ⟨_, .shiftLeft hx hy⟩
  | setIndex a =>
    rw [encode, toNat_ofNNN hi]
    exact ⟨_, .setIndex (UInt16.lt_iff_toNat_lt.1 hi)⟩
  | jumpOffset a =>
    rw [encode, toNat_ofNNN hi]
    exact ⟨_, .jumpOffset (UInt16.lt_iff_toNat_lt.1 hi)⟩
  | random x nn =>
    rw [encode, toNat_ofXNN hi]
    exact ⟨_, .random (toNat_lt_registerCount hi) nn.toNat_lt⟩
  | draw x y height =>
    obtain ⟨hx, hy, hn⟩ := hi
    rw [encode, toNat_ofXYN hx hy hn]
    exact ⟨_, .draw (toNat_lt_registerCount hx) (toNat_lt_registerCount hy)
      (UInt8.lt_iff_toNat_lt.1 hn) (spanRefusal?_eq_none hr)⟩
  | readDelay x =>
    rw [encode, toNat_ofXNN hi]
    exact ⟨_, .readDelay (toNat_lt_registerCount hi)⟩
  | awaitKey x =>
    rw [encode, toNat_ofXNN hi]
    exact ⟨_, .awaitKey (toNat_lt_registerCount hi)⟩
  | setDelay x =>
    rw [encode, toNat_ofXNN hi]
    exact ⟨_, .setDelay (toNat_lt_registerCount hi)⟩
  | setSound x =>
    rw [encode, toNat_ofXNN hi]
    exact ⟨_, .setSound (toNat_lt_registerCount hi)⟩
  | addIndex x =>
    rw [encode, toNat_ofXNN hi]
    exact ⟨_, .addIndex (toNat_lt_registerCount hi)⟩
  | pointGlyph x =>
    rw [encode, toNat_ofXNN hi]
    exact ⟨_, .pointGlyph (toNat_lt_registerCount hi)⟩
  | storeDecimal x =>
    rw [encode, toNat_ofXNN hi]
    exact ⟨_, .storeDecimal (toNat_lt_registerCount hi) (spanRefusal?_eq_none hr)⟩
  | storeRegisters x =>
    rw [encode, toNat_ofXNN hi]
    exact ⟨_, .storeRegisters (toNat_lt_registerCount hi) (spanRefusal?_eq_none hr)⟩
  | loadRegisters x =>
    rw [encode, toNat_ofXNN hi]
    exact ⟨_, .loadRegisters (toNat_lt_registerCount hi) (spanRefusal?_eq_none hr)⟩

/-- For each of these reasons, an instruction with operands that fit is refused. -/
theorem effect?_of_refusal {i : Instruction} {f : Fault} (hi : i.Encodable)
    (hr : m.refusal? i = some f) : m.effect? i = .error f := by
  cases i with
  | ret =>
    cases hs : m.registers.stack with
    | nil =>
      simp only [refusal?, hs, if_true, Option.some.injEq] at hr
      rw [effect?, Registers.pop?, hs, ← hr]
      rfl
    | cons target rest => simp [refusal?, hs] at hr
  | call a =>
    simp only [refusal?, Option.ite_none_right_eq_some, Option.some.injEq] at hr
    obtain ⟨hfull, rfl⟩ := hr
    rw [effect?, Registers.push?, if_pos hfull]
    rfl
  | draw x y height =>
    obtain ⟨a, ha, -⟩ := m.exists_get hi.1
    obtain ⟨b, hb, -⟩ := m.exists_get hi.2.1
    obtain ⟨hout, rfl⟩ := spanRefusal?_eq_some hr
    rw [effect?, ha, ok_bind, hb, ok_bind, Memory.readRange?, dif_neg hout]
    rfl
  | storeDecimal x =>
    obtain ⟨a, ha, -⟩ := m.exists_get hi
    obtain ⟨hout, rfl⟩ := spanRefusal?_eq_some hr
    have hlen : (decimalDigits a).length = 3 := rfl
    rw [effect?, ha, ok_bind, Memory.writeRange?, hlen, if_neg hout]
    rfl
  | storeRegisters x =>
    obtain ⟨bytes, hrange, hlen, -⟩ := m.exists_range hi
    obtain ⟨hout, rfl⟩ := spanRefusal?_eq_some hr
    rw [effect?, hrange, ok_bind, Memory.writeRange?, hlen, if_neg hout]
    rfl
  | loadRegisters x =>
    obtain ⟨hout, rfl⟩ := spanRefusal?_eq_some hr
    rw [effect?, Memory.readRange?, dif_neg hout]
    rfl
  | _ => cases hr

/-- An instruction that was read from memory fails if and only if it is refused. -/
theorem effect?_eq_error_iff {i : Instruction} {f : Fault} (hi : i.Encodable)
    (hpc : m.registers.pc.toNat ≤ 4094) :
    m.effect? i = .error f ↔ m.refusal? i = some f := by
  constructor
  · intro h
    cases hr : m.refusal? i with
    | none =>
      obtain ⟨s', hrow⟩ := exists_row hi hr
      obtain ⟨i', hi', hw, hfollow⟩ := hrow.follows
      obtain rfl : i' = i := encode_injective hi' hi (UInt16.toNat_inj.1 hw)
      obtain ⟨m', hm', -⟩ := hfollow hpc
      rw [hm'] at h
      cases h
    | some e =>
      rw [effect?_of_refusal hi hr] at h
      cases h
      rfl
  · exact effect?_of_refusal hi

/-! ### Opcodes that are in the table -/

/-- A machine that refuses nothing: it points at the first cell, and one of its calls is
open. -/
def roomy : Machine :=
  (powerOn (.start 1 1) .zeros).withRegisters
    { Registers.powerOn with stack := [0] }

/-- In a machine with room on both sides no instruction is refused. -/
theorem refusal?_roomy {i : Instruction} (hi : i.Encodable) : roomy.refusal? i = none := by
  have hspan : ∀ length ≤ 16, roomy.spanRefusal? length = none := by
    intro length h
    have hin : Memory.InBounds roomy.registers.index length := by
      rw [Memory.InBounds, roomy, withRegisters, Registers.powerOn, memorySize]
      simp only [UInt16.reduceToNat]
      omega
    exact if_pos hin
  cases i with
  | draw x y height => exact hspan _ (Nat.le_of_lt (UInt8.lt_iff_toNat_lt.1 hi.2.2))
  | storeDecimal x => exact hspan 3 (by decide)
  | storeRegisters x | loadRegisters x => exact hspan _ (UInt8.lt_iff_toNat_lt.1 hi)
  | _ => rfl

/-- An opcode is in the table if and only if it spells an instruction. -/
theorem inTable_iff {w : Opcode} : InTable w.toNat ↔ ∃ i : Instruction, i.Spells w := by
  constructor
  · rintro ⟨m, s', hrow⟩
    obtain ⟨i, hi, hw, -⟩ := hrow.follows
    exact ⟨i, hi, UInt16.toNat_inj.1 hw⟩
  · rintro ⟨i, hi, rfl⟩
    obtain ⟨s', hrow⟩ := exists_row hi (refusal?_roomy hi)
    exact ⟨roomy, s', hrow⟩

/-- A word that is read as no instruction is in no row of the table. -/
theorem ofOpcode?_eq_none_iff {w : Opcode} : ofOpcode? w = none ↔ ¬InTable w.toNat := by
  rw [inTable_iff, ← not_iff_not, not_not, ← Ne, Option.ne_none_iff_exists']
  simp only [← decode_eq_ok_iff, decode_eq_ok_iff_spells]

/-! ### Fetches -/

/-- A fetch fails if there is no whole word, or if the word is no opcode. -/
theorem fetch?_eq_error_iff {f : Fault} : m.fetch? = .error f ↔
    (4094 < m.view.pc ∧ f = .addressOutOfRange m.view.pc 2) ∨
      (m.view.pc ≤ 4094 ∧ ¬InTable m.view.word ∧
        f = .unknownOpcode (UInt16.ofNat m.view.word)) := by
  by_cases hpc : m.view.pc ≤ 4094
  · obtain ⟨w, hread, hw⟩ := m.exists_readOpcode hpc
    have hfetch : m.fetch? = .error f ↔ decode w = .error f := by
      rw [fetch?, hread, ok_bind]
      cases decode w <;> simp [pure, Except.pure]
    rw [hfetch, decode_eq_error_iff, ofOpcode?_eq_none_iff, hw, ← hw, UInt16.ofNat_toNat]
    simp [hpc, Nat.not_lt.2 hpc]
  · have hread : m.memory.readOpcode? m.registers.pc =
        .error (.addressOutOfRange m.view.pc 2) :=
      dif_neg fun hin => hpc (Nat.le_of_lt_succ (Nat.lt_of_succ_lt_succ hin))
    rw [fetch?, hread, error_bind]
    simp [hpc, Nat.lt_of_not_le hpc, eq_comm]

/-! ### Causes and refusals -/

/-- A refused instruction at the program counter is a cause of its fault. -/
theorem failure_of_refusal {i : Instruction} {f : Fault} (hi : i.Encodable)
    (hpc : m.view.pc ≤ 4094) (hw : i.encode.toNat = m.view.word)
    (hr : m.refusal? i = some f) : Failure m.view f := by
  cases i with
  | ret =>
    simp only [refusal?, Option.ite_none_right_eq_some, Option.some.injEq] at hr
    obtain ⟨hs, rfl⟩ := hr
    exact .ret hpc hw.symm (congrArg (List.map UInt16.toNat) hs)
  | call a =>
    simp only [refusal?, Option.ite_none_right_eq_some, Option.some.injEq] at hr
    obtain ⟨hfull, rfl⟩ := hr
    rw [encode, toNat_ofNNN hi] at hw
    exact .call hpc (UInt16.lt_iff_toNat_lt.1 hi) hw.symm (m.isFull_iff.1 hfull)
  | draw x y height =>
    obtain ⟨hx, hy, hn⟩ := hi
    obtain ⟨hout, rfl⟩ := spanRefusal?_eq_some hr
    rw [encode, toNat_ofXYN hx hy hn] at hw
    exact .draw hpc (toNat_lt_registerCount hx) (toNat_lt_registerCount hy)
      (UInt8.lt_iff_toNat_lt.1 hn) hw.symm (Nat.not_le.1 hout)
  | storeDecimal x =>
    obtain ⟨hout, rfl⟩ := spanRefusal?_eq_some hr
    rw [encode, toNat_ofXNN hi] at hw
    exact .storeDecimal hpc (toNat_lt_registerCount hi) hw.symm (Nat.not_le.1 hout)
  | storeRegisters x =>
    obtain ⟨hout, rfl⟩ := spanRefusal?_eq_some hr
    rw [encode, toNat_ofXNN hi] at hw
    exact .storeRegisters hpc (toNat_lt_registerCount hi) hw.symm (Nat.not_le.1 hout)
  | loadRegisters x =>
    obtain ⟨hout, rfl⟩ := spanRefusal?_eq_some hr
    rw [encode, toNat_ofXNN hi] at hw
    exact .loadRegisters hpc (toNat_lt_registerCount hi) hw.symm (Nat.not_le.1 hout)
  | _ => cases hr

/-- A span that leads out of memory is refused. -/
theorem spanRefusal?_of_outside {length : Nat} (h : m.view.Outside length) :
    m.spanRefusal? length = some (.addressOutOfRange m.view.i length) :=
  if_neg (Nat.not_le.2 h)

/-- A cause of a fault lies in the fetch, or in the instruction that was fetched. -/
theorem fetch_or_refusal_of_failure {f : Fault} (h : Failure m.view f) :
    m.fetch? = .error f ∨ ∃ i : Instruction, i.Encodable ∧ m.view.pc ≤ 4094 ∧
      i.encode.toNat = m.view.word ∧ m.refusal? i = some f := by
  cases h with
  | fetch hpc => exact .inl (fetch?_eq_error_iff.2 (.inl ⟨hpc, rfl⟩))
  | decode hpc hw => exact .inl (fetch?_eq_error_iff.2 (.inr ⟨hpc, hw, rfl⟩))
  | ret hpc hw hs =>
    exact .inr ⟨.ret, trivial, hpc, hw.symm, if_pos (List.map_eq_nil_iff.1 hs)⟩
  | call hpc hn hw hs =>
    obtain ⟨a, ha, rfl⟩ := exists_address hn
    exact .inr ⟨.call a, ha, hpc, (toNat_ofNNN ha).trans hw.symm,
      if_pos (m.isFull_iff.2 hs)⟩
  | draw hpc hx hy hn hw hout =>
    obtain ⟨x, hx, rfl⟩ := exists_digit hx
    obtain ⟨y, hy, rfl⟩ := exists_digit hy
    obtain ⟨n, hn, rfl⟩ := exists_digit hn
    exact .inr ⟨.draw x y n, ⟨hx, hy, hn⟩, hpc, (toNat_ofXYN hx hy hn).trans hw.symm,
      spanRefusal?_of_outside hout⟩
  | storeDecimal hpc hx hw hout =>
    obtain ⟨x, hx, rfl⟩ := exists_digit hx
    exact .inr ⟨.storeDecimal x, hx, hpc, (toNat_ofXNN hx).trans hw.symm,
      spanRefusal?_of_outside hout⟩
  | storeRegisters hpc hx hw hout =>
    obtain ⟨x, hx, rfl⟩ := exists_digit hx
    exact .inr ⟨.storeRegisters x, hx, hpc, (toNat_ofXNN hx).trans hw.symm,
      spanRefusal?_of_outside hout⟩
  | loadRegisters hpc hx hw hout =>
    obtain ⟨x, hx, rfl⟩ := exists_digit hx
    exact .inr ⟨.loadRegisters x, hx, hpc, (toNat_ofXNN hx).trans hw.symm,
      spanRefusal?_of_outside hout⟩

/-! ### Cycles -/

/-- A cycle of a running machine fails if and only if there is a cause for it, and with
the fault of that cause. -/
theorem cycle_eq_error_iff (hrun : m.state = .running) {f : Fault} :
    m.cycle.result = .error f ↔ Failure m.view f := by
  constructor
  · intro h
    cases hf : m.fetch? with
    | error e =>
      rw [cycle_of_fetch_error hrun hf] at h
      cases h
      rcases fetch?_eq_error_iff.1 hf with ⟨hpc, rfl⟩ | ⟨hpc, hw, rfl⟩
      · exact .fetch hpc
      · exact .decode hpc hw
    | ok p =>
      obtain ⟨w, i⟩ := p
      obtain ⟨hpc, ⟨hi, rfl⟩, hw⟩ := fetch?_eq_ok_iff_spells.1 hf
      cases he : m.effect? i with
      | ok m' =>
        rw [cycle_of_fetch hrun hf, he] at h
        cases h
      | error e =>
        rw [cycle_of_fetch hrun hf, he] at h
        cases h
        exact failure_of_refusal hi hpc hw ((effect?_eq_error_iff hi hpc).1 he)
  · intro h
    rcases fetch_or_refusal_of_failure h with hf | ⟨i, hi, hpc, hw, hr⟩
    · rw [cycle_of_fetch_error hrun hf]
    · have hf := fetch?_eq_ok_iff_spells.2 ⟨hpc, ⟨hi, rfl⟩, hw⟩
      rw [cycle_of_fetch hrun hf, effect?_of_refusal hi hr]

/-- A cycle of a running machine that succeeds has followed a row of the table. -/
theorem row_of_cycle (hrun : m.state = .running) {state : RunState}
    (h : m.cycle.result = .ok state) :
    m.view.pc ≤ 4094 ∧ Row m.view m.view.word m.cycle.machine.view := by
  cases hf : m.fetch? with
  | error e =>
    rw [cycle_of_fetch_error hrun hf] at h
    cases h
  | ok p =>
    obtain ⟨w, i⟩ := p
    obtain ⟨hpc, ⟨hi, rfl⟩, hw⟩ := fetch?_eq_ok_iff_spells.1 hf
    cases hr : m.refusal? i with
    | none =>
      obtain ⟨s', hrow⟩ := exists_row hi hr
      rw [hw] at hrow
      obtain ⟨-, hview⟩ := cycle_of_row hrun hpc hrow
      rw [hview]
      exact ⟨hpc, hrow⟩
    | some e =>
      rw [cycle_of_fetch hrun hf, effect?_of_refusal hi hr] at h
      cases h

/-- A key wait ends well if the number of the key has a register to go to. -/
theorem cycle_of_waiting {r : UInt8} (hwait : m.state = .waiting r) (hr : r ≤ 15) :
    ∃ state, m.cycle.result = .ok state := by
  have hlt : r.toNat < registerCount := Nat.lt_succ_of_le (UInt8.le_iff_toNat_le.1 hr)
  rw [cycle, hwait]
  simp only [poll]
  cases m.keypad.pending with
  | none => exact ⟨_, rfl⟩
  | some key =>
    simp only [Registers.set?_of_lt hlt]
    exact ⟨_, rfl⟩

/-- The failures of a cycle. A running machine fails exactly where there is a cause, and
no cause is about a register that does not exist, a program that is too large or a
machine that cannot resume. A halted machine never fails, and neither does one that
waits for a key whose number goes to a register that exists. -/
theorem failure_domain (m : Machine) :
    (m.state = .running → ∀ f, m.cycle.result = .error f ↔ Failure m.view f) ∧
    (m.state = .running → ∀ f, m.cycle.result = .error f → (∀ k, f ≠ .invalidIndex k) ∧
      (∀ size limit, f ≠ .programTooLarge size limit) ∧ f ≠ .notResumable) ∧
    (m.state = .halted → m.cycle.result = .ok .halted) ∧
    (∀ r, m.state = .waiting r → r ≤ 15 → ∃ state, m.cycle.result = .ok state) := by
  refine ⟨fun hrun _ => cycle_eq_error_iff hrun, ?_, ?_, fun _ => cycle_of_waiting⟩
  · intro hrun f h
    cases (cycle_eq_error_iff hrun).1 h <;>
      exact ⟨fun k => nofun, fun size limit => nofun, nofun⟩
  · intro hhalt
    rw [cycle, hhalt]

/-- A machine that points at the last cell, where no word fits. -/
def atLastCell : Machine :=
  (powerOn (.start 700 60) .zeros).withRegisters
    { Registers.powerOn with pc := 0xFFF }

/-- It fails for that, but not once it is halted or waits for a key. -/
theorem failure_domain_atLastCell :
    atLastCell.cycle.result = .error (.addressOutOfRange 0xFFF 2) ∧
      (∀ k, Fault.addressOutOfRange 0xFFF 2 ≠ .invalidIndex k) ∧
      { atLastCell with state := .halted }.cycle.result = .ok .halted ∧
      ∃ state, { atLastCell with state := .waiting 0xF }.cycle.result = .ok state := by
  obtain ⟨hfails, hnever, -, -⟩ := failure_domain atLastCell
  obtain ⟨-, -, hhalted, -⟩ := failure_domain { atLastCell with state := .halted }
  obtain ⟨-, -, -, hwaits⟩ := failure_domain { atLastCell with state := .waiting 0xF }
  have hresult := (hfails rfl _).2 (.fetch (by decide))
  obtain ⟨hregister, -, -⟩ := hnever rfl _ hresult
  exact ⟨hresult, hregister, hhalted rfl, hwaits 0xF rfl (by decide)⟩

end Machine

end Chip8
