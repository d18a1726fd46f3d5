import Chip8.Proofs.SpritePixels
import Chip8.Proofs.View

/-!
# The table of instructions

The instruction set as a manual writes it down: one row for each pattern of digits, with
what the instruction does to a state in plain numbers. `Row s w s'` says that the row of
the opcode `w` takes the state `s` to the state `s'`. Every right-hand side is computed
from `s` alone, and the components that it does not name stay.

Opcodes are sums of their digits, so `0x8000 + 0x100 * x + 0x10 * y + 0x4` is the
pattern `8XY4`. A row that needs something from the call stack or from memory has that
as a premise and is missing otherwise.

Where two registers are written, the inner `update` is the flag and the outer one the
result, so the result is what stays when both are register F.
-/

open Function (update)

namespace Chip8

namespace View

/-- A sprite of `n` rows at the index register, drawn at (`x`, `y`), covers a pixel. -/
def Covered (s : View) (x y n cx cy : Nat) : Prop :=
  Covers x y n (fun j => s.cell (s.i + j)) cx cy

instance (s : View) (x y n cx cy : Nat) : Decidable (s.Covered x y n cx cy) :=
  inferInstanceAs (Decidable (Covers ..))

/-- Drawing that sprite turns a pixel off. -/
def Collides (s : View) (x y n : Nat) : Prop :=
  ∃ cx < gridWidth, ∃ cy < gridHeight, s.pixel cx cy = true ∧ s.Covered x y n cx cy

instance (s : View) (x y n : Nat) : Decidable (s.Collides x y n) :=
  inferInstanceAs (Decidable (∃ cx < gridWidth, _))

/-- The word at the program counter, the more significant byte first. -/
def word (s : View) : Nat :=
  0x100 * s.cell s.pc + s.cell (s.pc + 1)

/-- The state behind the next instruction, and behind one more if the condition holds. -/
def skipIf (s : View) (p : Prop) [Decidable p] : View :=
  { s with pc := s.pc + if p then 4 else 2 }

/-- The state behind the next instruction, with register `x` written. -/
def write (s : View) (x b : Nat) : View :=
  { s with v := update s.v x b, pc := s.pc + 2 }

/-- The state behind the next instruction, with the flag written first and then register
`x`. -/
def writeFlagged (s : View) (x b : Nat) (p : Prop) [Decidable p] : View :=
  { s with v := update (update s.v 0xF (if p then 1 else 0)) x b, pc := s.pc + 2 }

end View

open View

/-- The rows of the table. -/
inductive Row (s : View) : Nat → View → Prop
  /-- `00E0` -/
  | clearScreen : Row s 0x00E0 { s with pixel := fun _ _ => false, pc := s.pc + 2 }
  /-- `00EE` -/
  | ret {a : Nat} {rest : List Nat} (hs : s.stack = a :: rest) :
    Row s 0x00EE { s with stack := rest, pc := a }
  /-- `1NNN` -/
  | jump {nnn : Nat} (hn : nnn < 0x1000) : Row s (0x1000 + nnn) { s with pc := nnn }
  /-- `2NNN` -/
  | call {nnn : Nat} (hn : nnn < 0x1000) (hs : s.stack.length < 16) :
    Row s (0x2000 + nnn) { s with stack := (s.pc + 2) :: s.stack, pc := nnn }
  /-- `3XNN` -/
  | skipEqualsByte {x nn : Nat} (hx : x < 16) (hn : nn < 256) :
    Row s (0x3000 + 0x100 * x + nn) (s.skipIf (s.v x = nn))
  /-- `4XNN` -/
  | skipDiffersByte {x nn : Nat} (hx : x < 16) (hn : nn < 256) :
    Row s (0x4000 + 0x100 * x + nn) (s.skipIf (s.v x ≠ nn))
  /-- `5XY0` -/
  | skipEquals {x y : Nat} (hx : x < 16) (hy : y < 16) :
    Row s (0x5000 + 0x100 * x + 0x10 * y) (s.skipIf (s.v x = s.v y))
  /-- `6XNN` -/
  | setByte {x nn : Nat} (hx : x < 16) (hn : nn < 256) :
    Row s (0x6000 + 0x100 * x + nn) (s.write x nn)
  /-- `7XNN` -/
  | addByte {x nn : Nat} (hx : x < 16) (hn : nn < 256) :
    Row s (0x7000 + 0x100 * x + nn) (s.write x ((s.v x + nn) % 256))
  /-- `8XY0` -/
  | copy {x y : Nat} (hx : x < 16) (hy : y < 16) :
    Row s (0x8000 + 0x100 * x + 0x10 * y) (s.write x (s.v y))
  /-- `8XY1` -/
  | or {x y : Nat} (hx : x < 16) (hy : y < 16) :
    Row s (0x8000 + 0x100 * x + 0x10 * y + 0x1) (s.write x (s.v x ||| s.v y))
  /-- `8XY2` -/
  | and {x y : Nat} (hx : x < 16) (hy : y < 16) :
    Row s (0x8000 + 0x100 * x + 0x10 * y + 0x2) (s.write x (s.v x &&& s.v y))
  /-- `8XY3` -/
  | xor {x y : Nat} (hx : x < 16) (hy : y < 16) :
    Row s (0x8000 + 0x100 * x + 0x10 * y + 0x3) (s.write x (s.v x ^^^ s.v y))
  /-- `8XY4` -/
  | add {x y : Nat} (hx : x < 16) (hy : y < 16) :
    Row s (0x8000 + 0x100 * x + 0x10 * y + 0x4)
      (s.writeFlagged x ((s.v x + s.v y) % 256) (255 < s.v x + s.v y))
  /-- `8XY5` -/
  | sub {x y : Nat} (hx : x < 16) (hy : y < 16) :
    Row s (0x8000 + 0x100 * x + 0x10 * y + 0x5)
      (s.writeFlagged x ((256 + s.v x - s.v y) % 256) (s.v y ≤ s.v x))
  /-- `8XY6` -/
  | shiftRight {x y : Nat} (hx : x < 16) (hy : y < 16) :
    Row s (0x8000 + 0x100 * x + 0x10 * y + 0x6)
      (s.writeFlagged x (s.v y / 2) (s.v y % 2 = 1))
  /-- `8XY7` -/
  | subFrom {x y : Nat} (hx : x < 16) (hy : y < 16) :
    Row s (0x8000 + 0x100 * x + 0x10 * y + 0x7)
      (s.writeFlagged x ((256 + s.v y - s.v x) % 256) (s.v x ≤ s.v y))
  /-- `8XYE` -/
  | shiftLeft {x y : Nat} (hx : x < 16) (hy : y < 16) :
    Row s (0x8000 + 0x100 * x + 0x10 * y + 0xE)
      (s.writeFlagged x (2 * s.v y % 256) (s.v y / 128 = 1))
  /-- `9XY0` -/
  | skipDiffers {x y : Nat} (hx : x < 16) (hy : y < 16) :
    Row s (0x9000 + 0x100 * x + 0x10 * y) (s.skipIf (s.v x ≠ s.v y))
  /-- `ANNN` -/
  | setIndex {nnn : Nat} (hn : nnn < 0x1000) :
    Row s (0xA000 + nnn) { s with i := nnn, pc := s.pc + 2 }
  /-- `BNNN` -/
  | jumpOffset {nnn : Nat} (hn : nnn < 0x1000) :
    Row s (0xB000 + nnn) { s with pc := nnn + s.v 0 }
  /-- `CXNN` -/
  | random {x nn : Nat} (hx : x < 16) (hn : nn < 256) :
    Row s (0xC000 + 0x100 * x + nn)
      { s.write x (s.random.head.toNat &&& nn) with random := s.random.tail }
  /-- `DXYN` -/
  | draw {x y n : Nat} (hx : x < 16) (hy : y < 16) (hn : n < 16) (hi : s.i + n ≤ 4096) :
    Row s (0xD000 + 0x100 * x + 0x10 * y + n)
      { s with
        pixel := fun cx cy => s.pixel cx cy ^^ decide (s.Covered (s.v x) (s.v y) n cx cy)
        v := update s.v 0xF (if s.Collides (s.v x) (s.v y) n then 1 else 0)
        pc := s.pc + 2 }
  /-- `EX9E` -/
  | skipPressed {x : Nat} (hx : x < 16) :
    Row s (0xE000 + 0x100 * x + 0x9E) (s.skipIf (s.held (s.v x) = true))
  /-- `EXA1` -/
  | skipReleased {x : Nat} (hx : x < 16) :
    Row s (0xE000 + 0x100 * x + 0xA1) (s.skipIf (s.held (s.v x) = false))
  /-- `FX07` -/
  | readDelay {x : Nat} (hx : x < 16) : Row s (0xF000 + 0x100 * x + 0x07) (s.write x s.delay)
  /-- `FX0A` -/
  | awaitKey {x : Nat} (hx : x < 16) :
    Row s (0xF000 + 0x100 * x + 0x0A)
      { s with pending := none, state := .waiting (UInt8.ofNat x) }
  /-- `FX15` -/
  | setDelay {x : Nat} (hx : x < 16) :
    Row s (0xF000 + 0x100 * x + 0x15) { s with delay := s.v x, pc := s.pc + 2 }
  /-- `FX18` -/
  | setSound {x : Nat} (hx : x < 16) :
    Row s (0xF000 + 0x100 * x + 0x18) { s with sound := s.v x, pc := s.pc + 2 }
  /-- `FX1E` -/
  | addIndex {x : Nat} (hx : x < 16) :
    Row s (0xF000 + 0x100 * x + 0x1E) { s with i := (s.i + s.v x) % 65536, pc := s.pc + 2 }
  /-- `FX29` -/
  | pointGlyph {x : Nat} (hx : x < 16) :
    Row s (0xF000 + 0x100 * x + 0x29) { s with i := 0x50 + 5 * s.v x, pc := s.pc + 2 }
  /-- `FX33` -/
  | storeDecimal {x : Nat} (hx : x < 16) (hi : s.i + 3 ≤ 4096) :
    Row s (0xF000 + 0x100 * x + 0x33)
      { s with
        cell := update (update (update s.cell s.i (s.v x / 100)) (s.i + 1) (s.v x / 10 % 10))
          (s.i + 2) (s.v x % 10)
        pc := s.pc + 2 }
  /-- `FX55` -/
  | storeRegisters {x : Nat} (hx : x < 16) (hi : s.i + x + 1 ≤ 4096) :
    Row s (0xF000 + 0x100 * x + 0x55)
      { s with
        cell := fun a => if s.i ≤ a ∧ a ≤ s.i + x then s.v (a - s.i) else s.cell a
        pc := s.pc + 2 }
  /-- `FX65` -/
  | loadRegisters {x : Nat} (hx : x < 16) (hi : s.i + x + 1 ≤ 4096) :
    Row s (0xF000 + 0x100 * x + 0x65)
      { s with
        v := fun k => if k ≤ x then s.cell (s.i + k) else s.v k
        pc := s.pc + 2 }

/-- Some machine has a row for the opcode. -/
def InTable (w : Nat) : Prop :=
  ∃ (m : Machine) (s' : View), Row m.view w s'

end Chip8
