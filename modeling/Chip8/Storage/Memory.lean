import Chip8.Fault
import Chip8.Instruction.Opcode
import Chip8.Storage.Font
import Chip8.Storage.Overlay

/-!
# Memory

A flat row of 4096 bytes. The font lies from address 0x50 on, programs are loaded from
0x200 on, and all other cells are zero at power-on.

Every access names a *span*, a start and a length, and is refused as a whole unless the
span lies inside memory (`InBounds`). An empty span is inside as long as it starts no
later than just behind the last cell. The check is made in natural numbers, so no sum
wraps, and a refused write changes nothing.

## Main definitions

* `Memory.powerOn`: the memory before any program is loaded.
* `Memory.readRange?`, `Memory.read?`, `Memory.readOpcode?`: reads.
* `Memory.writeRange?`, `Memory.write?`, `Memory.load?`: writes.
-/

namespace Chip8

/-- The number of cells. -/
def memorySize : Nat := 4096

/-- Where programs are loaded and execution starts. -/
def programStart : Address := 0x200

/-- Where the font lies. -/
def fontStart : Address := 0x50

/-- The largest program that fits behind `programStart`. -/
def programLimit : Nat := memorySize - programStart.toNat

/-- The cells of the machine. -/
structure Memory where
  cells : Vector UInt8 memorySize
deriving DecidableEq

namespace Memory

/-! ### Layout -/

/-- The byte in the cell at `i` before any program is loaded. -/
def powerOnByte (i : Nat) : UInt8 :=
  if fontStart.toNat ≤ i then (Font.glyphs[i - fontStart.toNat]?).getD 0 else 0

/-- The font in its place and zeros elsewhere. -/
def powerOn : Memory :=
  ⟨Vector.ofFn fun i => powerOnByte i⟩

/-- Where the glyph of a digit lies. Numbers from 16 on lead past the font. -/
def glyphAddress (digit : UInt8) : Address :=
  fontStart + digit.toUInt16 * UInt16.ofNat Font.glyphSize

/-! ### Bounds -/

/-- The `length` cells from `start` on lie in memory. -/
def InBounds (start : Address) (length : Nat) : Prop :=
  start.toNat + length ≤ memorySize

instance (start : Address) (length : Nat) : Decidable (InBounds start length) :=
  inferInstanceAs (Decidable (_ ≤ _))

/-- The refusal of a span that does not lie in memory. -/
def outOfRange (start : Address) (length : Nat) : Fault :=
  .addressOutOfRange start.toNat length

/-! ### Reading -/

/-- The bytes of a span that lies in memory. -/
def slice (m : Memory) (start : Address) (length : Nat) (h : InBounds start length) :
    List UInt8 :=
  List.ofFn fun i : Fin length =>
    have : start.toNat + i.val < memorySize :=
      Nat.lt_of_lt_of_le (Nat.add_lt_add_left i.isLt _) h
    m.cells[start.toNat + i.val]

/-- The bytes of a span. -/
def readRange? (m : Memory) (start : Address) (length : Nat) : Except Fault (List UInt8) :=
  if h : InBounds start length then .ok (m.slice start length h)
  else .error (outOfRange start length)

/-- The byte of one cell. -/
def read? (m : Memory) (start : Address) : Except Fault UInt8 :=
  if h : start.toNat < memorySize then .ok m.cells[start.toNat]
  else .error (outOfRange start 1)

/-- The opcode in two neighbouring cells, the more significant byte first. -/
def readOpcode? (m : Memory) (start : Address) : Except Fault Opcode :=
  if h : start.toNat + 1 < memorySize then
    .ok (.ofBytes m.cells[start.toNat] m.cells[start.toNat + 1])
  else .error (outOfRange start 2)

/-- A span gives as many bytes as it has cells. -/
@[simp] theorem length_slice (m : Memory) (start : Address) (length : Nat)
    (h : InBounds start length) : (m.slice start length h).length = length := by
  simp only [slice, List.length_ofFn]

/-- Each of them is the byte of its cell. -/
theorem getElem?_slice (m : Memory) (start : Address) (length : Nat)
    (h : InBounds start length) {i : Nat} (hi : i < length) :
    (m.slice start length h)[i]? = m.cells[start.toNat + i]? := by
  have : start.toNat + i < memorySize := Nat.lt_of_lt_of_le (Nat.add_lt_add_left hi _) h
  simp [slice, hi, this]

/-! ### Writing -/

/-- Writes all of `bytes`, or nothing at all. -/
def writeRange? (m : Memory) (start : Address) (bytes : List UInt8) : Except Fault Memory :=
  if InBounds start bytes.length then .ok ⟨overlay m.cells start.toNat bytes⟩
  else .error (outOfRange start bytes.length)

/-- Writes one cell. -/
def write? (m : Memory) (start : Address) (byte : UInt8) : Except Fault Memory :=
  m.writeRange? start [byte]

/-- Puts a program where execution starts. Its size is checked against the space reserved
for programs, so that the refusal reports the size and not a span. -/
def load? (m : Memory) (program : List UInt8) : Except Fault Memory :=
  if program.length ≤ programLimit then m.writeRange? programStart program
  else .error (.programTooLarge program.length programLimit)

/-- A program of an allowed size always fits. -/
theorem load?_eq_ok {m : Memory} {program : List UInt8} (h : program.length ≤ programLimit) :
    m.load? program = .ok ⟨overlay m.cells programStart.toNat program⟩ := by
  have hb : InBounds programStart program.length := by
    simp only [InBounds, programLimit, programStart, memorySize] at h ⊢
    simp at h ⊢
    omega
  rw [load?, if_pos h, writeRange?, if_pos hb]

end Memory

end Chip8
