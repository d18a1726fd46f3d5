/-!
# Opcodes

An instruction is stored as a sixteen-bit word, read as four hexadecimal digits. The first
digit is the *family*; the others hold operands, which overlap: `x`, `y` and `n` are the
second, third and fourth digit, `nn` is the last two and `nnn` the last three. The fields
are defined by division, and `ofXYN`, `ofXNN` and `ofNNN` put a word together again.
-/

namespace Chip8

/-- A place in memory, or a number that is about to be used as one. Only addresses below
4096 name a cell; the bound is checked where an address is used. -/
abbrev Address := UInt16

/-- A word that may encode an instruction. -/
abbrev Opcode := UInt16

namespace Opcode

/-! ### Fields -/

/-- The first digit, which selects the group of instructions. -/
def family (w : Opcode) : Nat :=
  w.toNat / 0x1000

/-- The second digit, a register number. -/
def x (w : Opcode) : UInt8 :=
  UInt8.ofNat (w.toNat / 0x100 % 0x10)

/-- The third digit, a register number. -/
def y (w : Opcode) : UInt8 :=
  UInt8.ofNat (w.toNat / 0x10 % 0x10)

/-- The fourth digit. -/
def n (w : Opcode) : UInt8 :=
  UInt8.ofNat (w.toNat % 0x10)

/-- The last two digits, a constant. -/
def nn (w : Opcode) : UInt8 :=
  UInt8.ofNat (w.toNat % 0x100)

/-- The last three digits, an address. -/
def nnn (w : Opcode) : Address :=
  UInt16.ofNat (w.toNat % 0x1000)

/-- The second digit as a number. -/
@[simp] theorem toNat_x (w : Opcode) : w.x.toNat = w.toNat / 0x100 % 0x10 := by
  simp only [x, UInt8.toNat_ofNat']
  omega

/-- The third digit as a number. -/
@[simp] theorem toNat_y (w : Opcode) : w.y.toNat = w.toNat / 0x10 % 0x10 := by
  simp only [y, UInt8.toNat_ofNat']
  omega

/-- The fourth digit as a number. -/
@[simp] theorem toNat_n (w : Opcode) : w.n.toNat = w.toNat % 0x10 := by
  simp only [n, UInt8.toNat_ofNat']
  omega

/-- The last two digits as a number. -/
@[simp] theorem toNat_nn (w : Opcode) : w.nn.toNat = w.toNat % 0x100 := by
  simp only [nn, UInt8.toNat_ofNat']
  omega

/-- The last three digits as a number. -/
@[simp] theorem toNat_nnn (w : Opcode) : w.nnn.toNat = w.toNat % 0x1000 := by
  simp only [nnn, UInt16.toNat_ofNat']
  omega

/-- No word names a register past the last one in its second digit. -/
theorem x_lt (w : Opcode) : w.x < 16 := by
  simp only [UInt8.lt_iff_toNat_lt, toNat_x, UInt8.reduceToNat]
  omega

/-- No word names one in its third digit either. -/
theorem y_lt (w : Opcode) : w.y < 16 := by
  simp only [UInt8.lt_iff_toNat_lt, toNat_y, UInt8.reduceToNat]
  omega

/-- The fourth digit is one digit, so sprites are at most fifteen rows high. -/
theorem n_lt (w : Opcode) : w.n < 16 := by
  simp only [UInt8.lt_iff_toNat_lt, toNat_n, UInt8.reduceToNat]
  omega

/-- An address in a word names a cell. -/
theorem nnn_lt (w : Opcode) : w.nnn < 0x1000 := by
  simp only [UInt16.lt_iff_toNat_lt, toNat_nnn, UInt16.reduceToNat]
  omega

/-! ### Words from fields -/

/-- The word with these four digits. -/
def ofXYN (family : Nat) (x y n : UInt8) : Opcode :=
  UInt16.ofNat (family * 0x1000 + x.toNat * 0x100 + y.toNat * 0x10 + n.toNat)

/-- The word with two leading digits and a constant. -/
def ofXNN (family : Nat) (x nn : UInt8) : Opcode :=
  UInt16.ofNat (family * 0x1000 + x.toNat * 0x100 + nn.toNat)

/-- The word with a leading digit and an address. -/
def ofNNN (family : Nat) (nnn : Address) : Opcode :=
  UInt16.ofNat (family * 0x1000 + nnn.toNat)

/-- The word of four digits, as a number. -/
theorem toNat_ofXYN {f : Nat} {x y n : UInt8} (hx : x < 16) (hy : y < 16)
    (hn : n < 16 := by decide) (hf : f < 16 := by decide) :
    (ofXYN f x y n).toNat = f * 0x1000 + 0x100 * x.toNat + 0x10 * y.toNat + n.toNat := by
  simp only [UInt8.lt_iff_toNat_lt, UInt8.reduceToNat] at hx hy hn
  simp only [ofXYN, UInt16.toNat_ofNat']
  omega

/-- The word of two digits and a constant, as a number. -/
theorem toNat_ofXNN {f : Nat} {x nn : UInt8} (hx : x < 16) (hf : f < 16 := by decide) :
    (ofXNN f x nn).toNat = f * 0x1000 + 0x100 * x.toNat + nn.toNat := by
  have := nn.toNat_lt
  simp only [UInt8.lt_iff_toNat_lt, UInt8.reduceToNat] at hx
  simp only [ofXNN, UInt16.toNat_ofNat']
  omega

/-- The word of a digit and an address, as a number. -/
theorem toNat_ofNNN {f : Nat} {nnn : Address} (hn : nnn < 0x1000) (hf : f < 16 := by decide) :
    (ofNNN f nnn).toNat = f * 0x1000 + nnn.toNat := by
  simp only [UInt16.lt_iff_toNat_lt, UInt16.reduceToNat] at hn
  simp only [ofNNN, UInt16.toNat_ofNat']
  omega

/-- A word is put together again from its four digits. -/
theorem ofXYN_fields (w : Opcode) : ofXYN w.family w.x w.y w.n = w := by
  refine UInt16.toNat_inj.1 ?_
  simp only [ofXYN, UInt16.toNat_ofNat', toNat_x, toNat_y, toNat_n, family]
  have := w.toNat_lt
  omega

/-- A word is put together again from two digits and a constant. -/
theorem ofXNN_fields (w : Opcode) : ofXNN w.family w.x w.nn = w := by
  refine UInt16.toNat_inj.1 ?_
  simp only [ofXNN, UInt16.toNat_ofNat', toNat_x, toNat_nn, family]
  have := w.toNat_lt
  omega

/-- A word is put together again from a digit and an address. -/
theorem ofNNN_fields (w : Opcode) : ofNNN w.family w.nnn = w := by
  refine UInt16.toNat_inj.1 ?_
  simp only [ofNNN, UInt16.toNat_ofNat', toNat_nnn, family]
  have := w.toNat_lt
  omega

/-- The word that two bytes hold, the more significant byte first. -/
def ofBytes (high low : UInt8) : Opcode :=
  UInt16.ofNat (high.toNat * 0x100 + low.toNat)

/-- Two bytes make up a number below 65536, so nothing of it is cut off. -/
theorem toNat_ofBytes (high low : UInt8) :
    (ofBytes high low).toNat = high.toNat * 0x100 + low.toNat := by
  have := high.toNat_lt
  have := low.toNat_lt
  simp only [ofBytes, UInt16.toNat_ofNat']
  omega

/-- The more significant byte of a word. -/
def highByte (w : Opcode) : UInt8 :=
  UInt8.ofNat (w.toNat / 0x100)

/-- The word as it lies in memory, the more significant byte first. -/
def toBytes (w : Opcode) : List UInt8 :=
  [w.highByte, w.nn]

/-- A word is read back from the two bytes that it is written as. -/
theorem ofBytes_highByte_nn (w : Opcode) : ofBytes w.highByte w.nn = w := by
  have := w.toNat_lt
  refine UInt16.toNat_inj.1 ?_
  simp only [toNat_ofBytes, highByte, UInt8.toNat_ofNat', toNat_nn]
  omega

end Opcode

end Chip8
