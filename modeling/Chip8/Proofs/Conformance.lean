import Chip8.Proofs.RowEffects

/-!
# The machine follows the table

For each row of the table there is one instruction that has the row's opcode, and its
effect on the machine is, seen in plain numbers, the right-hand side of the row. As the
view is faithful, that fixes every component of the machine after the cycle, also those
that the row leaves alone.

## Main statements

* `Row.follows`: the simulation, row by row.
* `Machine.cycle_conforms`: a cycle at the opcode of a row succeeds, and ends in the one
  machine that looks like the right-hand side of that row.
-/

namespace Chip8

open Instruction Opcode

/-! ### Row by row -/

section Rows

variable {m : Machine} {s' : View} {n : Nat}

/-- The opcode `n` spells an instruction that takes the machine to one that looks like
`s'`, provided that the program counter points at an instruction. -/
def Machine.Follows (m : Machine) (n : Nat) (s' : View) : Prop :=
  ∃ i : Instruction, i.Encodable ∧ i.encode.toNat = n ∧
    (m.registers.pc.toNat ≤ 4094 → ∃ m', m.effect? i = .ok m' ∧ m'.view = s')

open Machine in
/-- Each row is the effect of one instruction. -/
theorem Row.follows (h : Row m.view n s') : m.Follows n s' := by
  cases h with
  | clearScreen =>
    refine ⟨.clearScreen, trivial, rfl, fun hpc => ⟨_, rfl, ?_⟩⟩
    rw [view_next _ (by exact hpc)]
    have hblank : Grid.blank.pixel = fun _ _ => false := by
      funext cx cy
      exact Grid.pixel_blank cx cy
    rw [← hblank]
    rfl
  | ret hs =>
    obtain ⟨target, rest, hstack, rfl, rfl⟩ := List.map_eq_cons_iff.1 hs
    refine ⟨.ret, trivial, rfl, fun _ =>
      ⟨(m.withRegisters { m.registers with stack := rest }).follow (.jump target), ?_, rfl⟩⟩
    rw [effect?, Registers.pop?, hstack]
    rfl
  | jump hn =>
    obtain ⟨a, ha, rfl⟩ := exists_address hn
    exact ⟨.jump a, ha, toNat_ofNNN ha, fun _ => ⟨_, rfl, rfl⟩⟩
  | call hn hs =>
    obtain ⟨a, ha, rfl⟩ := exists_address hn
    have hroom : ¬m.registers.isFull = true := by
      rw [isFull_iff, Nat.not_le]
      exact hs
    have hpush : m.registers.push? (m.registers.pc + 2) = .ok _ := if_neg hroom
    refine ⟨.call a, ha, toNat_ofNNN ha, fun hpc =>
      ⟨_, by rw [effect?, hpush]; rfl, ?_⟩⟩
    have hreturn : (m.registers.pc + 2).toNat = m.view.pc + 2 :=
      congrArg View.pc (m.view_next hpc)
    rw [← hreturn]
    rfl
  | skipEqualsByte hx hn =>
    obtain ⟨x, hx, rfl⟩ := exists_digit hx
    obtain ⟨b, rfl⟩ := exists_byte hn
    obtain ⟨a, ha, hv⟩ := m.exists_get hx
    refine ⟨.skipIf (.equalsByte x b), hx, toNat_ofXNN hx,
      exists_effect_skipIf (b := a = b) ?_ ?_⟩
    · rw [decide_eq_true_iff, ← hv, UInt8.toNat_inj]
    · rw [holds?, ha]
      rfl
  | skipDiffersByte hx hn =>
    obtain ⟨x, hx, rfl⟩ := exists_digit hx
    obtain ⟨b, rfl⟩ := exists_byte hn
    obtain ⟨a, ha, hv⟩ := m.exists_get hx
    refine ⟨.skipIf (.differsByte x b), hx, toNat_ofXNN hx,
      exists_effect_skipIf (b := a ≠ b) ?_ ?_⟩
    · rw [decide_eq_true_iff, ← hv, Ne, Ne, UInt8.toNat_inj]
    · rw [holds?, ha]
      rfl
  | skipEquals hx hy =>
    obtain ⟨x, hx, rfl⟩ := exists_digit hx
    obtain ⟨y, hy, rfl⟩ := exists_digit hy
    obtain ⟨a, ha, hva⟩ := m.exists_get hx
    obtain ⟨b, hb, hvb⟩ := m.exists_get hy
    refine ⟨.skipIf (.equals x y), ⟨hx, hy⟩, toNat_ofXYN hx hy,
      exists_effect_skipIf (b := a = b) ?_ ?_⟩
    · rw [decide_eq_true_iff, ← hva, ← hvb, UInt8.toNat_inj]
    · rw [holds?, ha, ok_bind, hb]
      rfl
  | skipDiffers hx hy =>
    obtain ⟨x, hx, rfl⟩ := exists_digit hx
    obtain ⟨y, hy, rfl⟩ := exists_digit hy
    obtain ⟨a, ha, hva⟩ := m.exists_get hx
    obtain ⟨b, hb, hvb⟩ := m.exists_get hy
    refine ⟨.skipIf (.differs x y), ⟨hx, hy⟩, toNat_ofXYN hx hy,
      exists_effect_skipIf (b := a ≠ b) ?_ ?_⟩
    · rw [decide_eq_true_iff, ← hva, ← hvb, Ne, Ne, UInt8.toNat_inj]
    · rw [holds?, ha, ok_bind, hb]
      rfl
  | skipPressed hx =>
    obtain ⟨x, hx, rfl⟩ := exists_digit hx
    obtain ⟨a, ha, hv⟩ := m.exists_get hx
    refine ⟨.skipIf (.pressed x), hx, toNat_ofXNN hx,
      exists_effect_skipIf (b := m.keypad.isPressed a) ?_ ?_⟩
    · rw [← hv]
      rfl
    · rw [holds?, ha]
      rfl
  | skipReleased hx =>
    obtain ⟨x, hx, rfl⟩ := exists_digit hx
    obtain ⟨a, ha, hv⟩ := m.exists_get hx
    refine ⟨.skipIf (.released x), hx, toNat_ofXNN hx,
      exists_effect_skipIf (b := !m.keypad.isPressed a) ?_ ?_⟩
    · rw [← hv, Bool.not_eq_true']
      rfl
    · rw [holds?, ha]
      rfl
  | setByte hx hn =>
    obtain ⟨x, hx, rfl⟩ := exists_digit hx
    obtain ⟨b, rfl⟩ := exists_byte hn
    exact ⟨.setByte x b, hx, toNat_ofXNN hx, exists_effect_write hx rfl⟩
  | addByte hx hn =>
    obtain ⟨x, hx, rfl⟩ := exists_digit hx
    obtain ⟨b, rfl⟩ := exists_byte hn
    obtain ⟨a, ha, hv⟩ := m.exists_get hx
    have hsum : (m.view.v x.toNat + b.toNat) % 256 = (a + b).toNat := by
      rw [← hv, UInt8.toNat_add]
    refine ⟨.addByte x b, hx, toNat_ofXNN hx, ?_⟩
    rw [hsum]
    refine exists_effect_write hx ?_
    rw [effect?, Registers.add?, ha]
    rfl
  | copy hx hy =>
    obtain ⟨x, hx, rfl⟩ := exists_digit hx
    obtain ⟨y, hy, rfl⟩ := exists_digit hy
    obtain ⟨b, hb, hvb⟩ := m.exists_get hy
    refine ⟨.copy x y, ⟨hx, hy⟩, toNat_ofXYN hx hy, ?_⟩
    rw [← hvb]
    refine exists_effect_write hx ?_
    rw [effect?, hb]
    rfl
  | or hx hy =>
    obtain ⟨x, hx, rfl⟩ := exists_digit hx
    obtain ⟨y, hy, rfl⟩ := exists_digit hy
    exact ⟨.combine .or x y, ⟨hx, hy⟩, toNat_ofXYN hx hy,
      exists_effect_combine (r := fun a b => a ||| b) hx hy UInt8.toNat_or fun _ _ => rfl⟩
  | and hx hy =>
    obtain ⟨x, hx, rfl⟩ := exists_digit hx
    obtain ⟨y, hy, rfl⟩ := exists_digit hy
    exact ⟨.combine .and x y, ⟨hx, hy⟩, toNat_ofXYN hx hy,
      exists_effect_combine (r := fun a b => a &&& b) hx hy UInt8.toNat_and fun _ _ => rfl⟩
  | xor hx hy =>
    obtain ⟨x, hx, rfl⟩ := exists_digit hx
    obtain ⟨y, hy, rfl⟩ := exists_digit hy
    exact ⟨.combine .xor x y, ⟨hx, hy⟩, toNat_ofXYN hx hy,
      exists_effect_combine (r := fun a b => a ^^^ b) hx hy UInt8.toNat_xor fun _ _ => rfl⟩
  | add hx hy =>
    obtain ⟨x, hx, rfl⟩ := exists_digit hx
    obtain ⟨y, hy, rfl⟩ := exists_digit hy
    exact ⟨.combine .add x y, ⟨hx, hy⟩, toNat_ofXYN hx hy,
      exists_effect_combineFlagged (r := fun a b => (a + b) % 256)
        (p := fun a b => 255 < a + b) hx hy UInt8.toNat_add fun a b => ⟨_, rfl, decide_eq_true_iff⟩⟩
  | sub hx hy =>
    obtain ⟨x, hx, rfl⟩ := exists_digit hx
    obtain ⟨y, hy, rfl⟩ := exists_digit hy
    exact ⟨.combine .sub x y, ⟨hx, hy⟩, toNat_ofXYN hx hy,
      exists_effect_combineFlagged (r := fun a b => (256 + a - b) % 256)
        (p := fun a b => b ≤ a) hx hy Operator.toNat_apply_sub
        fun a b => ⟨_, rfl, decide_eq_true_iff⟩⟩
  | shiftRight hx hy =>
    obtain ⟨x, hx, rfl⟩ := exists_digit hx
    obtain ⟨y, hy, rfl⟩ := exists_digit hy
    exact ⟨.combine .shiftRight x y, ⟨hx, hy⟩, toNat_ofXYN hx hy,
      exists_effect_combineFlagged (r := fun _ b => b / 2) (p := fun _ b => b % 2 = 1)
        hx hy Operator.toNat_apply_shiftRight fun a b => ⟨_, rfl, decide_eq_true_iff⟩⟩
  | subFrom hx hy =>
    obtain ⟨x, hx, rfl⟩ := exists_digit hx
    obtain ⟨y, hy, rfl⟩ := exists_digit hy
    exact ⟨.combine .subFrom x y, ⟨hx, hy⟩, toNat_ofXYN hx hy,
      exists_effect_combineFlagged (r := fun a b => (256 + b - a) % 256)
        (p := fun a b => a ≤ b) hx hy (fun a b => Operator.toNat_apply_sub b a)
        fun a b => ⟨_, rfl, decide_eq_true_iff⟩⟩
  | shiftLeft hx hy =>
    obtain ⟨x, hx, rfl⟩ := exists_digit hx
    obtain ⟨y, hy, rfl⟩ := exists_digit hy
    exact ⟨.combine .shiftLeft x y, ⟨hx, hy⟩, toNat_ofXYN hx hy,
      exists_effect_combineFlagged (r := fun _ b => 2 * b % 256)
        (p := fun _ b => b / 128 = 1) hx hy Operator.toNat_apply_shiftLeft
        fun a b => ⟨_, rfl, Operator.flag_shiftLeft_iff b⟩⟩
  | setIndex hn =>
    obtain ⟨a, ha, rfl⟩ := exists_address hn
    refine ⟨.setIndex a, ha, toNat_ofNNN ha, fun hpc => ⟨_, rfl, ?_⟩⟩
    rw [view_next _ (by exact hpc)]
    rfl
  | jumpOffset hn =>
    obtain ⟨base, hbase, rfl⟩ := exists_address hn
    obtain ⟨a, ha, hv⟩ := m.exists_get (x := 0) (by decide)
    have hsum : (base + a.toUInt16).toNat = base.toNat + m.view.v 0 := by
      have ha := a.toNat_lt
      have hb : base.toNat < 0x1000 := UInt16.lt_iff_toNat_lt.1 hbase
      rw [UInt16.toNat_add, UInt8.toNat_toUInt16, Nat.mod_eq_of_lt (by omega), hv]
      rfl
    refine ⟨.jumpOffset base, hbase, toNat_ofNNN hbase, fun _ =>
      ⟨_, by rw [effect?, ha]; rfl, ?_⟩⟩
    rw [← hsum]
    rfl
  | random hx hn =>
    obtain ⟨x, hx, rfl⟩ := exists_digit hx
    obtain ⟨b, rfl⟩ := exists_byte hn
    have hset : m.registers.set? x (m.random.head &&& b) = .ok _ :=
      Registers.set?_of_lt (toNat_lt_registerCount hx) _
    refine ⟨.random x b, hx, toNat_ofXNN hx, fun hpc =>
      ⟨_, by rw [effect?, hset]; rfl, ?_⟩⟩
    rw [view_next _ (by exact hpc)]
    simp only [View.write, view, withRegisters, Registers.value_set, UInt8.toNat_and]
  | draw hx hy hn hi =>
    obtain ⟨x, hx, rfl⟩ := exists_digit hx
    obtain ⟨y, hy, rfl⟩ := exists_digit hy
    obtain ⟨height, hn, rfl⟩ := exists_digit hn
    exact ⟨.draw x y height, ⟨hx, hy, hn⟩, toNat_ofXYN hx hy hn,
      exists_effect_draw hx hy hn hi⟩
  | readDelay hx =>
    obtain ⟨x, hx, rfl⟩ := exists_digit hx
    exact ⟨.readDelay x, hx, toNat_ofXNN hx, exists_effect_write hx rfl⟩
  | awaitKey hx =>
    obtain ⟨x, hx, rfl⟩ := exists_digit hx
    obtain ⟨a, ha, -⟩ := m.exists_get hx
    refine ⟨.awaitKey x, hx, toNat_ofXNN hx, fun _ =>
      ⟨_, by rw [effect?, ha]; rfl, ?_⟩⟩
    rw [UInt8.ofNat_toNat]
    rfl
  | setDelay hx =>
    obtain ⟨x, hx, rfl⟩ := exists_digit hx
    obtain ⟨a, ha, hv⟩ := m.exists_get hx
    refine ⟨.setDelay x, hx, toNat_ofXNN hx, fun hpc =>
      ⟨_, by rw [effect?, ha]; rfl, ?_⟩⟩
    rw [view_next _ (by exact hpc), ← hv]
    rfl
  | setSound hx =>
    obtain ⟨x, hx, rfl⟩ := exists_digit hx
    obtain ⟨a, ha, hv⟩ := m.exists_get hx
    refine ⟨.setSound x, hx, toNat_ofXNN hx, fun hpc =>
      ⟨_, by rw [effect?, ha]; rfl, ?_⟩⟩
    rw [view_next _ (by exact hpc), ← hv]
    rfl
  | addIndex hx =>
    obtain ⟨x, hx, rfl⟩ := exists_digit hx
    obtain ⟨a, ha, hv⟩ := m.exists_get hx
    refine ⟨.addIndex x, hx, toNat_ofXNN hx, fun hpc =>
      ⟨_, by rw [effect?, ha]; rfl, ?_⟩⟩
    rw [view_next _ (by exact hpc), ← hv]
    have hsum : (m.registers.index + a.toUInt16).toNat = (m.view.i + a.toNat) % 65536 := by
      rw [UInt16.toNat_add, UInt8.toNat_toUInt16]
      rfl
    rw [← hsum]
    rfl
  | pointGlyph hx =>
    obtain ⟨x, hx, rfl⟩ := exists_digit hx
    obtain ⟨a, ha, hv⟩ := m.exists_get hx
    refine ⟨.pointGlyph x, hx, toNat_ofXNN hx, fun hpc =>
      ⟨_, by rw [effect?, ha]; rfl, ?_⟩⟩
    rw [view_next _ (by exact hpc), ← hv]
    have hglyph : (Memory.glyphAddress a).toNat = 0x50 + 5 * a.toNat := by
      have := a.toNat_lt
      simp [Memory.glyphAddress, fontStart, Font.glyphSize]
      omega
    rw [← hglyph]
    rfl
  | storeDecimal hx hi =>
    obtain ⟨x, hx, rfl⟩ := exists_digit hx
    exact ⟨.storeDecimal x, hx, toNat_ofXNN hx, exists_effect_storeDecimal hx hi⟩
  | storeRegisters hx hi =>
    obtain ⟨x, hx, rfl⟩ := exists_digit hx
    exact ⟨.storeRegisters x, hx, toNat_ofXNN hx,
      exists_effect_storeRegisters hx hi⟩
  | loadRegisters hx hi =>
    obtain ⟨x, hx, rfl⟩ := exists_digit hx
    exact ⟨.loadRegisters x, hx, toNat_ofXNN hx,
      exists_effect_loadRegisters hx hi⟩

end Rows

/-! ### Cycles -/

namespace Machine

variable {m : Machine}

/-- Where an instruction can be fetched, the word that is read is the one in the view. -/
theorem exists_readOpcode (hpc : m.registers.pc.toNat ≤ 4094) :
    ∃ w, m.memory.readOpcode? m.registers.pc = .ok w ∧ w.toNat = m.view.word := by
  have hin : m.registers.pc.toNat + 1 < memorySize :=
    Nat.lt_succ_of_le (Nat.succ_le_succ hpc)
  have hread : m.memory.readOpcode? m.registers.pc = .ok _ := dif_pos hin
  refine ⟨_, hread, ?_⟩
  rw [toNat_ofBytes, ← m.memory.value_of_lt, ← m.memory.value_of_lt hin, Nat.mul_comm]
  rfl

/-- An instruction is fetched if and only if the word at the program counter spells it. -/
theorem fetch?_eq_ok_iff_spells {w : Opcode} {i : Instruction} :
    m.fetch? = .ok (w, i) ↔ m.view.pc ≤ 4094 ∧ i.Spells w ∧ w.toNat = m.view.word := by
  rw [fetch?_eq_ok_iff, decode_eq_ok_iff_spells]
  constructor
  · rintro ⟨hread, hi⟩
    have hpc : m.view.pc ≤ 4094 := by
      rw [Memory.readOpcode?] at hread
      split at hread
      · next hin => exact Nat.le_of_lt_succ (Nat.lt_of_succ_lt_succ hin)
      · cases hread
    obtain ⟨w', hread', hw⟩ := m.exists_readOpcode hpc
    obtain rfl : w' = w := Except.ok.inj (hread'.symm.trans hread)
    exact ⟨hpc, hi, hw⟩
  · rintro ⟨hpc, hi, hw⟩
    obtain ⟨w', hread, hw'⟩ := m.exists_readOpcode hpc
    obtain rfl : w = w' := UInt16.toNat_inj.1 (hw.trans hw'.symm)
    exact ⟨hread, hi⟩

/-- A running machine at the opcode of a row follows the row. -/
theorem cycle_of_row {s' : View} (hrun : m.state = .running) (hpc : m.view.pc ≤ 4094)
    (hrow : Row m.view m.view.word s') :
    m.cycle.result = .ok s'.state ∧ m.cycle.machine.view = s' := by
  obtain ⟨i, hi, hw, hfollow⟩ := hrow.follows
  obtain ⟨m', heffect, rfl⟩ := hfollow hpc
  have hcycle := cycle_of_fetch hrun (fetch?_eq_ok_iff_spells.2 ⟨hpc, ⟨hi, rfl⟩, hw⟩)
  rw [heffect] at hcycle
  rw [hcycle]
  exact ⟨rfl, rfl⟩

/-- A running machine at the opcode of a row follows the row: the cycle succeeds, the
machine looks like the right-hand side, and it is the only machine that does. -/
theorem cycle_conforms {s' : View} (hrun : m.state = .running)
    (hpc : m.registers.pc.toNat ≤ 4094) (hrow : Row m.view m.view.word s') :
    m.cycle.result = .ok s'.state ∧ m.cycle.machine.view = s' ∧
      ∀ m', m'.view = s' → m' = m.cycle.machine := by
  obtain ⟨hresult, hview⟩ := cycle_of_row hrun hpc hrow
  exact ⟨hresult, hview, fun m' h => view_injective (h.trans hview.symm)⟩

/-- Memory that holds the word `8FF4` at every even address. -/
def flagSums : Memory :=
  ⟨Vector.ofFn fun a => if a.val % 2 = 0 then 0x8F else 0xF4⟩

/-- The cells of that memory are `8F` and `F4` in turn. -/
theorem value_flagSums {a : Nat} (ha : a < memorySize) :
    flagSums.value a = if a % 2 = 0 then 0x8F else 0xF4 := by
  rw [Memory.value_of_lt _ ha, flagSums, Vector.getElem_ofFn]
  split <;> rfl

/-- A machine that has just been switched on, but for register F, which holds 200, and for
memory, where every even cell is the beginning of the word `8FF4`. -/
def flagDoubler : Machine :=
  { powerOn (.start 700 60) .zeros with
    memory := flagSums
    registers := { Registers.powerOn with data := (Vector.replicate 16 0).set 0xF 200 } }

/-- The word at the program counter is `8FF4`. -/
theorem word_flagDoubler :
    flagDoubler.view.word = 0x8000 + 0x100 * 0xF + 0x10 * 0xF + 0x4 := by
  have hpc : flagDoubler.view.pc = 0x200 := rfl
  have hcell : flagDoubler.view.cell = flagSums.value := rfl
  rw [View.word, hpc, hcell, value_flagSums (by decide), value_flagSums (by decide)]
  rfl

/-- Adding register F to itself leaves the sum in it and not the carry. -/
theorem cycle_conforms_flagDoubler :
    flagDoubler.cycle.result = .ok .running ∧ flagDoubler.cycle.machine.view.v 0xF = 144 ∧
      flagDoubler.cycle.machine.view.pc = 0x202 := by
  have hrow : Row flagDoubler.view (0x8000 + 0x100 * 0xF + 0x10 * 0xF + 0x4) _ :=
    Row.add (x := 0xF) (y := 0xF) (by decide) (by decide)
  rw [← word_flagDoubler] at hrow
  obtain ⟨hresult, hview, -⟩ := cycle_conforms rfl (by decide) hrow
  rw [hview]
  exact ⟨hresult, rfl, rfl⟩

end Machine

end Chip8
