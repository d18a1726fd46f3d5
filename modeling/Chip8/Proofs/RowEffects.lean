import Chip8.Proofs.Decoding
import Chip8.Proofs.Effect
import Chip8.Proofs.Table

/-!
# Effects, as the view shows them

`Machine.effect?` speaks of bytes and words, the table of numbers. This module takes the
one to the other for each kind of instruction: a skip, a write to one register, a write
to a register and the flag, a drawing, a write to memory and a read from it. In each
case the instruction succeeds, and what it leaves behind looks like the right-hand side
of the row.

## Main statements

* `Machine.view_next`, `Machine.view_skip`: moving on does not wrap where an instruction
  can be fetched.
* `Machine.exists_effect_combineFlagged` and its neighbours: one lemma for each shape of
  right-hand side.
-/

open Function (update update_of_ne)

namespace Chip8

open Instruction Opcode

/-! ### Numbers as operands -/

/-- A number below 256 is a byte. -/
theorem exists_byte {n : Nat} (h : n < 256) : ∃ b : UInt8, b.toNat = n :=
  ⟨UInt8.ofNat n, UInt8.toNat_ofNat_of_lt' h⟩

/-- A number below 16 is a byte below 16. -/
theorem exists_digit {n : Nat} (h : n < 16) : ∃ d : UInt8, d < 16 ∧ d.toNat = n := by
  obtain ⟨d, rfl⟩ := exists_byte (n := n) (by omega)
  exact ⟨d, UInt8.lt_iff_toNat_lt.2 h, rfl⟩

/-- A number of three hexadecimal digits is an address. -/
theorem exists_address {n : Nat} (h : n < 0x1000) :
    ∃ a : Address, a < 0x1000 ∧ a.toNat = n := by
  have ha : (UInt16.ofNat n).toNat = n :=
    UInt16.toNat_ofNat_of_lt' (Nat.lt_trans h (by decide))
  exact ⟨UInt16.ofNat n, by rw [UInt16.lt_iff_toNat_lt, ha]; exact h, ha⟩

/-- A digit is the number of a register. -/
theorem toNat_lt_registerCount {d : UInt8} (h : d < 16) : d.toNat < registerCount :=
  UInt8.lt_iff_toNat_lt.1 h

namespace Machine

variable {m : Machine}

/-! ### Moving on, as the view shows it -/

/-- To go on to the next instruction moves the program counter by two, if it does not wrap. -/
theorem view_next (m : Machine) (hpc : m.registers.pc.toNat ≤ 4094) :
    (m.follow .next).view = { m.view with pc := m.view.pc + 2 } := by
  have h : (m.registers.pc + 2).toNat = m.registers.pc.toNat + 2 := by
    simp only [UInt16.toNat_add, UInt16.reduceToNat]
    omega
  simp only [view, follow, withRegisters, Registers.follow, Registers.next, h]
  rfl

/-- To step over an instruction moves the program counter by four, if it does not wrap. -/
theorem view_skip (m : Machine) (hpc : m.registers.pc.toNat ≤ 4094) :
    (m.follow .skip).view = { m.view with pc := m.view.pc + 4 } := by
  have h : (m.registers.pc + 4).toNat = m.registers.pc.toNat + 4 := by
    simp only [UInt16.toNat_add, UInt16.reduceToNat]
    omega
  simp only [view, follow, withRegisters, Registers.follow, Registers.skip, h]
  rfl

/-- A register with a number of one digit can be looked up. -/
theorem exists_get (m : Machine) {x : UInt8} (hx : x < 16) :
    ∃ a, m.registers.get? x = .ok a ∧ a.toNat = m.view.v x.toNat :=
  ⟨_, Registers.get?_of_lt (toNat_lt_registerCount hx), (m.registers.value_of_lt _).symm⟩

/-- Whether there is room for another call, as the view shows it. -/
theorem isFull_iff (m : Machine) : m.registers.isFull = true ↔ 16 ≤ m.view.stack.length := by
  rw [Registers.isFull, decide_eq_true_iff, view, List.length_map]
  rfl

/-- An instruction that skips under a condition does what `View.skipIf` says. -/
theorem exists_effect_skipIf {c : Condition} {b : Bool} {p : Prop} [Decidable p]
    (hb : b = true ↔ p) (hc : m.holds? c = .ok b) (hpc : m.registers.pc.toNat ≤ 4094) :
    ∃ m', m.effect? (.skipIf c) = .ok m' ∧ m'.view = m.view.skipIf p := by
  refine ⟨m.follow (if b then .skip else .next), by rw [effect?, hc]; rfl, ?_⟩
  by_cases hp : p
  · simp only [hb.2 hp, if_true, view_skip m hpc, View.skipIf, hp]
  · have hf : b = false := Bool.eq_false_iff.2 fun ht => hp (hb.1 ht)
    simp only [hf, Bool.false_eq_true, if_false, view_next m hpc, View.skipIf, hp]

/-- An instruction that writes a number to a register does what `View.write` says. -/
theorem exists_effect_write {x : UInt8} (hx : x < 16) {b : UInt8} {i : Instruction}
    (hi : m.effect? i = do
      let r ← m.registers.set? x b
      return (m.withRegisters r).follow .next)
    (hpc : m.registers.pc.toNat ≤ 4094) :
    ∃ m', m.effect? i = .ok m' ∧ m'.view = m.view.write x.toNat b.toNat := by
  rw [Registers.set?_of_lt (toNat_lt_registerCount hx)] at hi
  refine ⟨_, hi, ?_⟩
  rw [view_next _ (by exact hpc)]
  simp only [View.write, view, withRegisters, Registers.value_set]

/-- An instruction that writes the flag and then a number to a register does what
`View.writeFlagged` says. -/
theorem exists_effect_writeFlagged {x : UInt8} (hx : x < 16) {b : UInt8} {c : Bool}
    {p : Prop} [Decidable p] (hc : c = true ↔ p) {i : Instruction}
    (hi : m.effect? i = do
      let r ← (m.registers.setFlag c).set? x b
      return (m.withRegisters r).follow .next)
    (hpc : m.registers.pc.toNat ≤ 4094) :
    ∃ m', m.effect? i = .ok m' ∧ m'.view = m.view.writeFlagged x.toNat b.toNat p := by
  rw [Registers.set?_of_lt (toNat_lt_registerCount hx)] at hi
  refine ⟨_, hi, ?_⟩
  rw [view_next _ (by exact hpc)]
  simp only [View.writeFlagged, view, withRegisters, Registers.value_set,
    Registers.value_setFlag, hc]
  rfl

/-! ### Operators -/

section Combine

variable {o : Operator} {x y : UInt8} {r : Nat → Nat → Nat}

/-- An operator that leaves the flag alone writes its result and goes on. What the result is in
numbers is `r`. -/
theorem exists_effect_combine (hx : x < 16) (hy : y < 16)
    (hr : ∀ a b, (o.apply a b).toNat = r a.toNat b.toNat) (hf : ∀ a b, o.flag? a b = none)
    (hpc : m.registers.pc.toNat ≤ 4094) :
    ∃ m', m.effect? (.combine o x y) = .ok m' ∧
      m'.view = m.view.write x.toNat (r (m.view.v x.toNat) (m.view.v y.toNat)) := by
  obtain ⟨a, ha, hva⟩ := m.exists_get hx
  obtain ⟨b, hb, hvb⟩ := m.exists_get hy
  rw [← hva, ← hvb, ← hr]
  refine exists_effect_write hx ?_ hpc
  rw [effect?, ha, ok_bind, hb, ok_bind, hf]
  rfl

/-- An operator with a flag writes its result and then the flag, so that the flag stays if both go
to register `F`. What the flag means in numbers is `p`. -/
theorem exists_effect_combineFlagged (hx : x < 16) (hy : y < 16) {p : Nat → Nat → Prop}
    [∀ a b, Decidable (p a b)] (hr : ∀ a b, (o.apply a b).toNat = r a.toNat b.toNat)
    (hf : ∀ a b, ∃ c, o.flag? a b = some c ∧ (c = true ↔ p a.toNat b.toNat))
    (hpc : m.registers.pc.toNat ≤ 4094) :
    ∃ m', m.effect? (.combine o x y) = .ok m' ∧
      m'.view = m.view.writeFlagged x.toNat (r (m.view.v x.toNat) (m.view.v y.toNat))
        (p (m.view.v x.toNat) (m.view.v y.toNat)) := by
  obtain ⟨a, ha, hva⟩ := m.exists_get hx
  obtain ⟨b, hb, hvb⟩ := m.exists_get hy
  obtain ⟨c, hflag, hc⟩ := hf a b
  simp only [← hva, ← hvb, ← hr]
  refine exists_effect_writeFlagged hx hc ?_ hpc
  rw [effect?, ha, ok_bind, hb, ok_bind, hflag]
  rfl

end Combine

/-! ### Drawing -/

/-- The pixels that a sprite in memory covers. -/
theorem covers_slice {n : Nat} (hb : Memory.InBounds m.registers.index n) (hn : n < 16)
    (a b : UInt8) (cx cy : Nat) :
    Covers a.toNat b.toNat (min spriteRows (m.memory.slice _ n hb).length)
      (Grid.spriteByte (m.memory.slice _ n hb)) cx cy ↔
        m.view.Covered a.toNat b.toNat n cx cy := by
  have hrows : min spriteRows (m.memory.slice _ n hb).length = n := by
    rw [Memory.length_slice]
    exact Nat.min_eq_right (Nat.le_of_lt_succ hn)
  rw [hrows]
  exact covers_congr fun j hj => m.memory.value_slice hb hj

/-- A drawing that reads its sprite from memory turns over the pixels under it, and has the flag
say whether it has turned one off. -/
theorem exists_effect_draw {x y height : UInt8} (hx : x < 16) (hy : y < 16) (hn : height < 16)
    (hi : m.view.i + height.toNat ≤ 4096) (hpc : m.registers.pc.toNat ≤ 4094) :
    ∃ m', m.effect? (.draw x y height) = .ok m' ∧
      m'.view =
        { m.view with
          pixel := fun cx cy => m.view.pixel cx cy ^^
            decide (m.view.Covered (m.view.v x.toNat) (m.view.v y.toNat) height.toNat cx cy)
          v := update m.view.v 0xF
            (if m.view.Collides (m.view.v x.toNat) (m.view.v y.toNat) height.toNat then 1
              else 0)
          pc := m.view.pc + 2 } := by
  obtain ⟨a, ha, hva⟩ := m.exists_get hx
  obtain ⟨b, hb, hvb⟩ := m.exists_get hy
  have hrows : height.toNat < 16 := UInt8.lt_iff_toNat_lt.1 hn
  have hin : Memory.InBounds m.registers.index height.toNat := hi
  have hcovers := covers_slice hin hrows a b
  have hsprite : m.memory.readRange? m.registers.index height.toNat = .ok _ := dif_pos hin
  refine ⟨_, by rw [effect?, ha, ok_bind, hb, ok_bind, hsprite]; rfl, ?_⟩
  rw [view_next _ (by exact hpc), ← hva, ← hvb]
  have hpixel : (m.grid.draw a b (m.memory.slice _ _ hin)).pixel = fun cx cy =>
      m.view.pixel cx cy ^^ decide (m.view.Covered a.toNat b.toNat height.toNat cx cy) := by
    funext cx cy
    simp only [Grid.pixel_draw, hcovers]
    rfl
  have hcollides : m.grid.collides a b (m.memory.slice _ _ hin) = true ↔
      m.view.Collides a.toNat b.toNat height.toNat := by
    rw [Grid.collides_iff]
    simp only [hcovers]
    rfl
  have hflag : (m.registers.setFlag (m.grid.collides a b (m.memory.slice _ _ hin))).value =
      update m.view.v 0xF (if m.view.Collides a.toNat b.toNat height.toNat then 1 else 0) := by
    simp only [Registers.value_setFlag, hcollides]
    rfl
  rw [← hpixel, ← hflag]
  rfl

/-! ### Memory -/

/-- The three decimal digits of a register go to the cells at the index register. -/
theorem exists_effect_storeDecimal {x : UInt8} (hx : x < 16) (hi : m.view.i + 3 ≤ 4096)
    (hpc : m.registers.pc.toNat ≤ 4094) :
    ∃ m', m.effect? (.storeDecimal x) = .ok m' ∧
      m'.view =
        { m.view with
          cell := update (update (update m.view.cell m.view.i (m.view.v x.toNat / 100))
            (m.view.i + 1) (m.view.v x.toNat / 10 % 10))
            (m.view.i + 2) (m.view.v x.toNat % 10)
          pc := m.view.pc + 2 } := by
  obtain ⟨a, ha, hva⟩ := m.exists_get hx
  have hin : Memory.InBounds m.registers.index (decimalDigits a).length := hi
  have hwrite : m.memory.writeRange? m.registers.index (decimalDigits a) = .ok _ := if_pos hin
  refine ⟨_, by rw [effect?, ha, ok_bind, hwrite]; rfl, ?_⟩
  rw [view_next _ (by exact hpc), ← hva]
  have hindex : m.registers.index.toNat = m.view.i := rfl
  have hcell :
      (⟨overlay m.memory.cells m.registers.index.toNat (decimalDigits a)⟩ : Memory).value =
      update (update (update m.view.cell m.view.i (a.toNat / 100))
        (m.view.i + 1) (a.toNat / 10 % 10)) (m.view.i + 2) (a.toNat % 10) := by
    funext c
    rw [Memory.value_overlay _ _ _ hin, hindex]
    by_cases hc : m.view.i ≤ c ∧ c - m.view.i < 3
    · obtain ⟨k, rfl⟩ := Nat.exists_eq_add_of_le hc.1
      obtain rfl | rfl | rfl : k = 0 ∨ k = 1 ∨ k = 2 := by omega
      · simp [decimalDigits]
      · simp [decimalDigits]
      · simp [decimalDigits]
    · have hdigits : ¬(m.view.i ≤ c ∧ c - m.view.i < (decimalDigits a).length) := hc
      have h0 : c ≠ m.view.i := by omega
      have h1 : c ≠ m.view.i + 1 := by omega
      have h2 : c ≠ m.view.i + 2 := by omega
      rw [if_neg hdigits, update_of_ne h2, update_of_ne h1, update_of_ne h0]
      rfl
  rw [← hcell]
  rfl

/-- The bytes of registers 0 to `x`, if there is a register `x`. -/
theorem exists_range (m : Machine) {x : UInt8} (hx : x < 16) :
    ∃ bytes, m.registers.range? x = .ok bytes ∧ bytes.length = x.toNat + 1 ∧
      ∀ k ≤ x.toNat, (bytes[k]?.getD 0).toNat = m.view.v k := by
  have hlt := toNat_lt_registerCount hx
  refine ⟨m.registers.data.toList.take (x.toNat + 1), if_pos hlt, ?_, ?_⟩
  · rw [List.length_take, Vector.length_toList]
    exact Nat.min_eq_left hlt
  · intro k hk
    rw [List.getElem?_take_of_lt (Nat.lt_succ_of_le hk), Vector.getElem?_toList]
    rfl

/-- The first registers go to the cells from the index register on, each to its own. -/
theorem exists_effect_storeRegisters {x : UInt8} (hx : x < 16)
    (hi : m.view.i + x.toNat + 1 ≤ 4096) (hpc : m.registers.pc.toNat ≤ 4094) :
    ∃ m', m.effect? (.storeRegisters x) = .ok m' ∧
      m'.view =
        { m.view with
          cell := fun a =>
            if m.view.i ≤ a ∧ a ≤ m.view.i + x.toNat then m.view.v (a - m.view.i)
            else m.view.cell a
          pc := m.view.pc + 2 } := by
  obtain ⟨bytes, hrange, hlen, hbytes⟩ := m.exists_range hx
  have hin : Memory.InBounds m.registers.index bytes.length := by
    rw [hlen]
    exact hi
  have hwrite : m.memory.writeRange? m.registers.index bytes = .ok _ := if_pos hin
  refine ⟨_, by rw [effect?, hrange, ok_bind, hwrite]; rfl, ?_⟩
  rw [view_next _ (by exact hpc)]
  have hindex : m.registers.index.toNat = m.view.i := rfl
  have hcell :
      (⟨overlay m.memory.cells m.registers.index.toNat bytes⟩ : Memory).value = fun c =>
      if m.view.i ≤ c ∧ c ≤ m.view.i + x.toNat then m.view.v (c - m.view.i)
      else m.view.cell c := by
    funext c
    rw [Memory.value_overlay _ _ _ hin, hlen, hindex]
    by_cases hc : m.view.i ≤ c ∧ c ≤ m.view.i + x.toNat
    · have hk : c - m.view.i ≤ x.toNat := by omega
      rw [if_pos hc, if_pos ⟨hc.1, Nat.lt_succ_of_le hk⟩, hbytes _ hk]
    · have hout : ¬(m.view.i ≤ c ∧ c - m.view.i < x.toNat + 1) := by omega
      rw [if_neg hc, if_neg hout]
      rfl
  rw [← hcell]
  rfl

/-- The first registers come from the cells from the index register on, each from its own. -/
theorem exists_effect_loadRegisters {x : UInt8} (hx : x < 16)
    (hi : m.view.i + x.toNat + 1 ≤ 4096) (hpc : m.registers.pc.toNat ≤ 4094) :
    ∃ m', m.effect? (.loadRegisters x) = .ok m' ∧
      m'.view =
        { m.view with
          v := fun k => if k ≤ x.toNat then m.view.cell (m.view.i + k) else m.view.v k
          pc := m.view.pc + 2 } := by
  have hlt := toNat_lt_registerCount hx
  have hin : Memory.InBounds m.registers.index (x.toNat + 1) := hi
  have hread : m.memory.readRange? m.registers.index (x.toNat + 1) = .ok _ := dif_pos hin
  have hlen : (m.memory.slice _ _ hin).length ≤ registerCount := by
    rw [Memory.length_slice]
    exact hlt
  have hload : m.registers.load? (m.memory.slice _ _ hin) = .ok _ := if_pos hlen
  refine ⟨_, by rw [effect?, hread, ok_bind, hload]; rfl, ?_⟩
  rw [view_next _ (by exact hpc)]
  have hv : ({ m.registers with data := overlay m.registers.data 0 (m.memory.slice _ _ hin) } :
      Registers).value = fun k =>
      if k ≤ x.toNat then m.view.cell (m.view.i + k) else m.view.v k := by
    funext k
    rw [Registers.value_overlay _ _ hlen, Memory.length_slice]
    by_cases hk : k ≤ x.toNat
    · rw [if_pos hk, if_pos (Nat.lt_succ_of_le hk)]
      exact m.memory.value_slice hin (Nat.lt_succ_of_le hk)
    · rw [if_neg hk, if_neg (mt Nat.le_of_lt_succ hk)]
      rfl
  rw [← hv]
  rfl

/-! ### Operators, in plain numbers -/

end Machine

namespace Operator

/-- A difference that would be negative wraps round 256. -/
theorem toNat_apply_sub (a b : UInt8) :
    (apply .sub a b).toNat = (256 + a.toNat - b.toNat) % 256 := by
  have := b.toNat_lt
  rw [apply, UInt8.toNat_sub]
  omega

/-- A shift to the right halves the second operand. The first does not matter. -/
theorem toNat_apply_shiftRight (a b : UInt8) :
    (apply .shiftRight a b).toNat = b.toNat / 2 := by
  simp [apply, Nat.shiftRight_eq_div_pow]

/-- A shift to the left doubles the second operand, and the bit that falls out is dropped. -/
theorem toNat_apply_shiftLeft (a b : UInt8) :
    (apply .shiftLeft a b).toNat = 2 * b.toNat % 256 := by
  simp [apply, Nat.shiftLeft_eq, Nat.mul_comm]

/-- The bit that falls out at the left is the number of times that 128 goes into the byte. -/
theorem flag_shiftLeft_iff (b : UInt8) :
    decide (128 ≤ b.toNat) = true ↔ b.toNat / 128 = 1 := by
  have := b.toNat_lt
  rw [decide_eq_true_iff]
  omega

end Operator

end Chip8
