import Chip8.Instruction.Encoding

/-!
# Decoding undoes encoding

The decoder and the encoder are written separately, the decoder as a dispatch on the
digits of a word and the encoder as a list of patterns. This module shows that they are
two sides of one table: an instruction whose operands fit its pattern is read back from
its opcode, and what is read from an opcode has operands that fit and is written as that
opcode again.

## Main statements

* `Instruction.ofOpcode?_encode`: an encodable instruction is read back from its opcode.
* `Instruction.spells_of_ofOpcode?`: what is read from an opcode has operands that fit,
  and is written as that opcode again.
* `Instruction.decode_eq_ok_iff_spells`: the two together, as an equivalence.
-/

namespace Chip8

namespace Opcode

/-! ### Fields of words put together from fields -/

variable {f : Nat} {x y n nn : UInt8} {a : Address}

/-- The first of four digits is read back as it was put in. -/
@[simp] theorem family_ofXYN (hf : f < 16) (hx : x < 16) (hy : y < 16) (hn : n < 16) :
    (ofXYN f x y n).family = f := by
  have hw := toNat_ofXYN hx hy hn hf
  simp only [UInt8.lt_iff_toNat_lt, UInt8.reduceToNat] at hx hy hn
  simp only [family, hw]
  omega

/-- So is the second digit. -/
@[simp] theorem x_ofXYN (hf : f < 16) (hx : x < 16) (hy : y < 16) (hn : n < 16) :
    (ofXYN f x y n).x = x := by
  have hw := toNat_ofXYN hx hy hn hf
  simp only [UInt8.lt_iff_toNat_lt, UInt8.reduceToNat] at hx hy hn
  simp only [← UInt8.toNat_inj, toNat_x, hw]
  omega

/-- So is the third digit. -/
@[simp] theorem y_ofXYN (hf : f < 16) (hx : x < 16) (hy : y < 16) (hn : n < 16) :
    (ofXYN f x y n).y = y := by
  have hw := toNat_ofXYN hx hy hn hf
  simp only [UInt8.lt_iff_toNat_lt, UInt8.reduceToNat] at hx hy hn
  simp only [← UInt8.toNat_inj, toNat_y, hw]
  omega

/-- So is the fourth digit. -/
@[simp] theorem n_ofXYN (hf : f < 16) (hx : x < 16) (hy : y < 16) (hn : n < 16) :
    (ofXYN f x y n).n = n := by
  have hw := toNat_ofXYN hx hy hn hf
  simp only [UInt8.lt_iff_toNat_lt, UInt8.reduceToNat] at hx hy hn
  simp only [← UInt8.toNat_inj, toNat_n, hw]
  omega

/-- The first digit in front of a digit and a byte is read back. -/
@[simp] theorem family_ofXNN (hf : f < 16) (hx : x < 16) : (ofXNN f x nn).family = f := by
  have hw : (ofXNN f x nn).toNat = _ := toNat_ofXNN hx hf
  have := nn.toNat_lt
  simp only [UInt8.lt_iff_toNat_lt, UInt8.reduceToNat] at hx
  simp only [family, hw]
  omega

/-- So is the digit behind it. -/
@[simp] theorem x_ofXNN (hf : f < 16) (hx : x < 16) : (ofXNN f x nn).x = x := by
  have hw : (ofXNN f x nn).toNat = _ := toNat_ofXNN hx hf
  have := nn.toNat_lt
  simp only [UInt8.lt_iff_toNat_lt, UInt8.reduceToNat] at hx
  simp only [← UInt8.toNat_inj, toNat_x, hw]
  omega

/-- The byte at the end of a word is read back whole. -/
@[simp] theorem nn_ofXNN (hf : f < 16) (hx : x < 16) : (ofXNN f x nn).nn = nn := by
  have hw : (ofXNN f x nn).toNat = _ := toNat_ofXNN hx hf
  have := nn.toNat_lt
  simp only [← UInt8.toNat_inj, toNat_nn, hw]
  omega

/-- The digit in front of an address is read back, as long as the address has three digits. -/
@[simp] theorem family_ofNNN (hf : f < 16) (ha : a < 0x1000) : (ofNNN f a).family = f := by
  have hw := toNat_ofNNN ha hf
  simp only [UInt16.lt_iff_toNat_lt, UInt16.reduceToNat] at ha
  simp only [family, hw]
  omega

/-- So is the address, if it has three digits. -/
@[simp] theorem nnn_ofNNN (hf : f < 16) (ha : a < 0x1000) : (ofNNN f a).nnn = a := by
  have hw := toNat_ofNNN ha hf
  simp only [UInt16.lt_iff_toNat_lt, UInt16.reduceToNat] at ha
  simp only [← UInt16.toNat_inj, toNat_nnn, hw]
  omega

end Opcode

/-! ### Operators -/

/-- Every operator is the one that its digit stands for. -/
@[simp] theorem Operator.ofDigit?_digit (o : Operator) : ofDigit? o.digit = some o := by
  cases o <;> rfl

/-- The number of an operator is a digit. -/
theorem Operator.digit_lt (o : Operator) : o.digit < 16 := by
  cases o <;> decide

/-- No operator has the digit zero, which stands for a copy. -/
theorem Operator.digit_ne_zero (o : Operator) : o.digit ≠ 0 := by
  cases o <;> decide

/-- The operator that is read from a digit has that digit. -/
theorem Operator.digit_of_ofDigit? {d : UInt8} {o : Operator} (h : ofDigit? d = some o) :
    o.digit = d := by
  refine UInt8.toNat_inj.1 ?_
  rw [ofDigit?] at h
  split at h <;> cases h <;> exact Eq.symm ‹_›

namespace Instruction

open Opcode

/-! ### From instructions to opcodes and back -/

/-- An encodable instruction is read back from its opcode. -/
theorem ofOpcode?_encode {i : Instruction} (h : i.Encodable) :
    ofOpcode? i.encode = some i := by
  cases i with
  | clearScreen | ret => rfl
  | jump a | call a | setIndex a | jumpOffset a =>
    simp only [Encodable] at h
    simp [encode, ofOpcode?, h]
  | skipIf c =>
    simp only [Encodable] at h
    cases c <;> simp only [Condition.Encodable] at h <;>
      simp [encode, ofOpcode?, ofKeyQuery?, h]
  | setByte x nn | addByte x nn | random x nn =>
    simp only [Encodable] at h
    simp [encode, ofOpcode?, h]
  | copy x y | draw x y height =>
    simp only [Encodable] at h
    simp [encode, ofOpcode?, ofRegisterPair?, h]
  | combine o x y =>
    simp only [Encodable] at h
    simp [encode, ofOpcode?, ofRegisterPair?, h, o.digit_lt, o.digit_ne_zero]
  | readDelay x | awaitKey x | setDelay x | setSound x | addIndex x | pointGlyph x
  | storeDecimal x | storeRegisters x | loadRegisters x =>
    simp only [Encodable] at h
    simp [encode, ofOpcode?, ofSelector?, h]

/-- Encodable instructions have different opcodes. -/
theorem encode_injective {i i' : Instruction} (h : i.Encodable) (h' : i'.Encodable)
    (heq : i.encode = i'.encode) : i = i' := by
  have hread := ofOpcode?_encode h
  rw [heq, ofOpcode?_encode h'] at hread
  exact (Option.some.inj hread).symm

/-! ### From opcodes to instructions and back -/

/-- The instruction `i` has operands that fit, and its opcode is `w`. -/
def Spells (i : Instruction) (w : Opcode) : Prop :=
  i.Encodable ∧ i.encode = w

/-- What is read from a word `8XYN` is written as that word. -/
theorem spells_of_ofRegisterPair? {x y d : UInt8} {i : Instruction} (hx : x < 16)
    (hy : y < 16) (h : ofRegisterPair? x y d = some i) : i.Spells (ofXYN 0x8 x y d) := by
  rw [ofRegisterPair?] at h
  split at h
  · next hd =>
    cases h
    exact ⟨⟨hx, hy⟩, by rw [hd, encode]⟩
  · obtain ⟨o, ho, rfl⟩ := Option.map_eq_some_iff.1 h
    exact ⟨⟨hx, hy⟩, by rw [encode, Operator.digit_of_ofDigit? ho]⟩

/-- What is read from a word `EXNN` is written as that word. -/
theorem spells_of_ofKeyQuery? {x selector : UInt8} {i : Instruction} (hx : x < 16)
    (h : ofKeyQuery? x selector = some i) : i.Spells (ofXNN 0xE x selector) := by
  rw [ofKeyQuery?] at h
  split at h <;> cases h <;> next hs =>
    exact ⟨hx, by simp only [encode, ofXNN, hs, UInt8.reduceToNat]⟩

/-- What is read from a word `FXNN` is written as that word. -/
theorem spells_of_ofSelector? {x selector : UInt8} {i : Instruction} (hx : x < 16)
    (h : ofSelector? x selector = some i) : i.Spells (ofXNN 0xF x selector) := by
  rw [ofSelector?] at h
  split at h <;> cases h <;> next hs =>
    exact ⟨hx, by simp only [encode, ofXNN, hs, UInt8.reduceToNat]⟩

/-- A decoded instruction spells the opcode that it was read from. -/
theorem spells_of_ofOpcode? {w : Opcode} {i : Instruction} (h : ofOpcode? w = some i) :
    i.Spells w := by
  have byAddress : ofNNN w.family w.nnn = w := w.ofNNN_fields
  have byConstant : ofXNN w.family w.x w.nn = w := w.ofXNN_fields
  have byDigits : ofXYN w.family w.x w.y w.n = w := w.ofXYN_fields
  rw [ofOpcode?] at h
  split at h
  case h_17 => cases h
  all_goals
    rename_i hf
    rw [hf] at byAddress byConstant byDigits
  -- family 0 has two words of its own
  case h_1 =>
    split at h
    · next hw =>
      cases h
      exact ⟨trivial, hw.symm⟩
    · split at h <;> cases h
      next hw => exact ⟨trivial, hw.symm⟩
  -- families with an address
  case h_2 | h_3 | h_11 | h_12 =>
    cases h
    exact ⟨w.nnn_lt, byAddress⟩
  -- families with a register and a constant
  case h_4 | h_5 | h_7 | h_8 | h_13 =>
    cases h
    exact ⟨w.x_lt, byConstant⟩
  -- families with two registers and a zero
  case h_6 | h_10 =>
    split at h <;> cases h
    next hn => exact ⟨⟨w.x_lt, w.y_lt⟩, by rwa [hn] at byDigits⟩
  case h_9 => exact byDigits ▸ spells_of_ofRegisterPair? w.x_lt w.y_lt h
  case h_14 =>
    cases h
    exact ⟨⟨w.x_lt, w.y_lt, w.n_lt⟩, byDigits⟩
  case h_15 => exact byConstant ▸ spells_of_ofKeyQuery? w.x_lt h
  case h_16 => exact byConstant ▸ spells_of_ofSelector? w.x_lt h

/-- A word is read as exactly the instruction that spells it. -/
theorem decode_eq_ok_iff_spells {w : Opcode} {i : Instruction} :
    decode w = .ok i ↔ i.Spells w := by
  rw [decode_eq_ok_iff]
  constructor
  · exact spells_of_ofOpcode?
  · rintro ⟨h, rfl⟩
    exact ofOpcode?_encode h

end Instruction

end Chip8
