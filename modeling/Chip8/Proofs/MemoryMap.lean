import Chip8.Storage.Memory
import Mathlib.Data.List.Basic
import Mathlib.Data.List.Induction

/-!
# Memory as a map

What a cell holds is the byte that was written to it last. A write covers the cells of its
span, and it counts only if it is not refused; a cell that no write has covered holds what it
held at power-on. This is shown for runs of writes of all three kinds, that may overlap, touch
the end of memory or be refused, so it says at the same time that a refused write leaves every
cell alone and that a write leaves alone the cells next to its span.

Reads give back what the cells hold. A longer read agrees with the reads of its cells one by one,
and is refused only if its span does not lie in memory. In particular what has been written to a
span is read from it, and writing back what has been read changes nothing.

## Main statements

* `Memory.readRange?_overlay`, `Memory.writeRange?_of_readRange?`: a span is written and read.
* `Memory.request?_of_fits`, `Memory.request?_of_not_fits`: when a write is refused.
* `Memory.read?_afterWrites`: the latest write that covers a cell.
* `Memory.readOpcode?_eq_ok_iff`: an opcode is read from two cells.
* `Memory.last_write_wins`: all of this together.
-/

namespace Chip8

/-- What can be written to memory. -/
inductive MemoryWrite where
  | byte (start : Address) (byte : UInt8)
  | range (start : Address) (bytes : List UInt8)
  | program (bytes : List UInt8)

namespace MemoryWrite

/-- Where the write begins. -/
def start : MemoryWrite → Address
  | .byte start _ | .range start _ => start
  | .program _ => programStart

/-- What is written, from there on. -/
def bytes : MemoryWrite → List UInt8
  | .byte _ b => [b]
  | .range _ bs | .program bs => bs

/-- The write lies in memory. A program must fit into the space that is reserved for it. -/
def Fits : MemoryWrite → Prop
  | .byte start _ => start.toNat + 1 ≤ 4096
  | .range start bs => start.toNat + bs.length ≤ 4096
  | .program bs => bs.length ≤ 3584

instance : DecidablePred Fits
  | .byte start _ => inferInstanceAs (Decidable (start.toNat + 1 ≤ 4096))
  | .range start bs => inferInstanceAs (Decidable (start.toNat + bs.length ≤ 4096))
  | .program bs => inferInstanceAs (Decidable (bs.length ≤ 3584))

/-- Why the write is refused, if it is. -/
def refusal : MemoryWrite → Fault
  | .byte start _ => .addressOutOfRange start.toNat 1
  | .range start bs => .addressOutOfRange start.toNat bs.length
  | .program bs => .programTooLarge bs.length 3584

/-- The byte that the write puts into a cell, if it covers the cell. -/
def given? (w : MemoryWrite) (a : Nat) : Option UInt8 :=
  if w.start.toNat ≤ a then w.bytes[a - w.start.toNat]? else none

/-- The byte that the latest of some writes puts into a cell, among those that fit and cover
it. -/
def lastGiven? (ws : List MemoryWrite) (a : Nat) : Option UInt8 :=
  (ws.reverse.filter Fits).findSome? (·.given? a)

/-- The last request decides where it fits and gives the cell a byte, and else those before it. -/
theorem lastGiven?_concat (ws : List MemoryWrite) (w : MemoryWrite) (a : Nat) :
    lastGiven? (ws ++ [w]) a =
      (if w.Fits then w.given? a else none).or (lastGiven? ws a) := by
  rw [lastGiven?, List.reverse_concat]
  by_cases hfits : w.Fits
  · rw [List.filter_cons_of_pos (by simpa using hfits), List.findSome?_cons, if_pos hfits]
    cases w.given? a <;> rfl
  · rw [List.filter_cons_of_neg (by simpa using hfits), if_neg hfits, Option.none_or, lastGiven?]

end MemoryWrite

namespace Memory

open MemoryWrite (lastGiven?)

variable {m : Memory} {w : MemoryWrite} {ws : List MemoryWrite} {start : Address}
  {length a : Nat} {bytes : List UInt8}

/-! ### Spans -/

/-- What has been written to a span is read from it. -/
theorem readRange?_overlay (h : InBounds start bytes.length) :
    (Memory.mk (overlay m.cells start.toNat bytes)).readRange? start bytes.length = .ok bytes := by
  rw [readRange?, dif_pos h]
  refine congrArg Except.ok (List.ext_getElem (length_slice ..) fun k hk hk' => ?_)
  simp only [slice, List.getElem_ofFn, getElem_overlay]
  simp [hk']

/-- Writing back what has been read changes nothing. -/
theorem writeRange?_of_readRange? (h : m.readRange? start length = .ok bytes) :
    m.writeRange? start bytes = .ok m := by
  rw [readRange?] at h
  split at h
  · next hin =>
    obtain rfl := Except.ok.inj h
    have hin' : InBounds start (m.slice start length hin).length := by rwa [length_slice]
    rw [writeRange?, if_pos hin']
    refine congrArg (Except.ok ∘ Memory.mk) (Vector.ext fun i hi => ?_)
    rw [getElem_overlay]
    split
    · simp only [slice, List.getElem_ofFn]
      congr 1
      omega
    · rfl
  · cases h

/-! ### Writes -/

/-- The memory after a write, or why the write is refused. -/
def request? (m : Memory) : MemoryWrite → Except Fault Memory
  | .byte start byte => m.write? start byte
  | .range start bytes => m.writeRange? start bytes
  | .program bytes => m.load? bytes

/-- The memory after a write, be it that the write is refused. -/
def afterWrite (m : Memory) (w : MemoryWrite) : Memory :=
  match m.request? w with
  | .ok m' => m'
  | .error _ => m

/-- The memory after some writes, in order. -/
def afterWrites (m : Memory) (ws : List MemoryWrite) : Memory :=
  ws.foldl afterWrite m

/-- A request that fits puts its bytes over the cells from its start on. -/
theorem request?_of_fits (h : w.Fits) :
    m.request? w = .ok ⟨overlay m.cells w.start.toNat w.bytes⟩ := by
  cases w with
  | byte start b =>
    have hin : InBounds start [b].length := h
    rw [request?, write?, writeRange?, if_pos hin]
    rfl
  | range start bs =>
    have hin : InBounds start bs.length := h
    rw [request?, writeRange?, if_pos hin]
    rfl
  | program bs =>
    have hfits : bs.length ≤ programLimit := h
    exact load?_eq_ok hfits

/-- A request that does not fit is refused, and for a reason that depends on it alone. -/
theorem request?_of_not_fits (h : ¬w.Fits) : m.request? w = .error w.refusal := by
  cases w with
  | byte start b =>
    have hout : ¬InBounds start [b].length := h
    rw [request?, write?, writeRange?, if_neg hout]
    rfl
  | range start bs =>
    have hout : ¬InBounds start bs.length := h
    rw [request?, writeRange?, if_neg hout]
    rfl
  | program bs =>
    have hlarge : ¬bs.length ≤ programLimit := h
    rw [request?, load?, if_neg hlarge]
    rfl

/-- So a request is granted if and only if it fits, whatever memory holds. -/
theorem request?_eq_ok_iff : (∃ m', m.request? w = .ok m') ↔ w.Fits := by
  by_cases h : w.Fits
  · rw [request?_of_fits h]
    exact iff_of_true ⟨_, rfl⟩ h
  · rw [request?_of_not_fits h]
    exact iff_of_false (fun ⟨_, h⟩ => by cases h) h

/-- A refused write leaves memory alone. -/
theorem afterWrite_of_not_fits (h : ¬w.Fits) : m.afterWrite w = m := by
  rw [afterWrite, request?_of_not_fits h]

/-- A cell after a write holds what the write has put there, or what it held before. -/
theorem cell_afterWrite (m : Memory) (w : MemoryWrite) (ha : a < memorySize) :
    (m.afterWrite w).cells[a] = ((if w.Fits then w.given? a else none).getD m.cells[a]) := by
  by_cases h : w.Fits
  · rw [afterWrite, request?_of_fits h, if_pos h, MemoryWrite.given?]
    simp only [getElem_overlay]
    by_cases hle : w.start.toNat ≤ a
    · rw [if_pos hle]
      by_cases hlt : a - w.start.toNat < w.bytes.length
      · simp [hle, hlt]
      · simp [hlt]
    · simp [hle]
  · rw [afterWrite_of_not_fits h, if_neg h, Option.getD_none]

/-- A cell after some writes holds what the latest that covers it has put there. -/
theorem cell_afterWrites (m : Memory) (ws : List MemoryWrite) (ha : a < memorySize) :
    (m.afterWrites ws).cells[a] = (lastGiven? ws a).getD m.cells[a] := by
  induction ws using List.reverseRecOn with
  | nil => rfl
  | append_singleton ws w ih =>
    have hlast : m.afterWrites (ws ++ [w]) = (m.afterWrites ws).afterWrite w :=
      List.foldl_concat ..
    rw [hlast, cell_afterWrite _ _ ha, ih, MemoryWrite.lastGiven?_concat]
    cases if w.Fits then w.given? a else none <;> rfl

/-! ### Reads -/

/-- A cell that exists is read. -/
theorem read?_of_lt (h : start.toNat < memorySize) : m.read? start = .ok m.cells[start.toNat] :=
  dif_pos h

/-- A cell that does not exist is out of range, for a length of one. -/
theorem read?_of_not_lt (h : ¬start.toNat < memorySize) :
    m.read? start = .error (outOfRange start 1) :=
  dif_neg h

/-- What is read is the byte of the cell, and there is a cell. -/
theorem read?_eq_ok_iff {b : UInt8} :
    m.read? start = .ok b ↔ ∃ h : start.toNat < memorySize, m.cells[start.toNat] = b := by
  by_cases h : start.toNat < memorySize
  · rw [read?_of_lt h, Except.ok.injEq]
    exact ⟨fun heq => ⟨h, heq⟩, fun ⟨_, heq⟩ => heq⟩
  · rw [read?_of_not_lt h]
    exact iff_of_false nofun fun ⟨hlt, _⟩ => h hlt

/-- A cell after some writes that start at power-on. -/
theorem read?_afterWrites (ws : List MemoryWrite) (h : start.toNat < memorySize) :
    (powerOn.afterWrites ws).read? start =
      .ok ((lastGiven? ws start.toNat).getD (powerOnByte start.toNat)) := by
  rw [read?_of_lt h, cell_afterWrites _ _ h]
  simp only [powerOn, Vector.getElem_ofFn]

/-- Within memory, no address that is counted from another one wraps around. -/
theorem toNat_add_ofNat {k : Nat} (h : start.toNat + k ≤ memorySize) :
    (start + UInt16.ofNat k).toNat = start.toNat + k := by
  simp only [memorySize] at h
  rw [UInt16.toNat_add, UInt16.toNat_ofNat']
  omega

/-- A range is read if and only if it ends within memory. The empty one behind the last cell does.
-/
theorem readRange?_eq_ok_iff :
    (∃ bytes, m.readRange? start length = .ok bytes) ↔ InBounds start length := by
  rw [readRange?]
  split
  · next hin => exact iff_of_true ⟨_, rfl⟩ hin
  · next hout => exact iff_of_false nofun hout

/-- A read of a span gives the cells of the span, one by one. -/
theorem getElem?_of_readRange? (h : m.readRange? start length = .ok bytes) :
    bytes.length = length ∧
      ∀ k < length, ∃ b, bytes[k]? = some b ∧ m.read? (start + UInt16.ofNat k) = .ok b := by
  rw [readRange?] at h
  split at h
  · next hin =>
    obtain rfl := Except.ok.inj h
    refine ⟨length_slice .., fun k hk => ?_⟩
    have hlt : start.toNat + k < memorySize :=
      Nat.lt_of_lt_of_le (Nat.add_lt_add_left hk _) hin
    refine ⟨m.cells[start.toNat + k], ?_, read?_eq_ok_iff.2 ?_⟩
    · rw [getElem?_slice m start length hin hk, Vector.getElem?_eq_getElem hlt]
    · simp only [toNat_add_ofNat (Nat.le_of_lt hlt)]
      exact ⟨hlt, trivial⟩
  · cases h

/-- An opcode is read from two neighbouring cells. -/
theorem readOpcode?_eq_ok_iff {word : Opcode} :
    m.readOpcode? start = .ok word ↔
      ∃ b b', m.read? start = .ok b ∧ m.read? (start + 1) = .ok b' ∧
        word.toNat = 256 * b.toNat + b'.toNat := by
  rw [readOpcode?]
  split
  · next hin =>
    have hnext : (start + 1).toNat = start.toNat + 1 :=
      toNat_add_ofNat (k := 1) (Nat.le_of_lt hin)
    have hread : m.read? start = .ok m.cells[start.toNat] := read?_of_lt (Nat.lt_of_succ_lt hin)
    have hread' : m.read? (start + 1) = .ok m.cells[start.toNat + 1] :=
      read?_eq_ok_iff.2 ⟨hnext ▸ hin, by simp only [hnext]⟩
    simp only [hread, hread', Except.ok.injEq]
    rw [← UInt16.toNat_inj, Opcode.toNat_ofBytes, Nat.mul_comm, eq_comm]
    simp
  · next hout =>
    refine iff_of_false nofun ?_
    rintro ⟨b, b', hread, hread', -⟩
    -- the first cell is the last one there is, so there is no second
    obtain ⟨hlt, -⟩ := read?_eq_ok_iff.1 hread
    obtain ⟨hlt', -⟩ := read?_eq_ok_iff.1 hread'
    have hnext : (start + 1).toNat = start.toNat + 1 := toNat_add_ofNat (k := 1) hlt
    exact hout (hnext ▸ hlt')

/-- An opcode is read where two bytes can be read. -/
theorem readOpcode?_eq_error_iff {f : Fault} :
    m.readOpcode? start = .error f ↔ m.readRange? start 2 = .error f := by
  rw [readOpcode?, readRange?]
  by_cases hin : InBounds start 2
  · have hlt : start.toNat + 1 < memorySize := hin
    rw [dif_pos hlt, dif_pos hin]
    exact iff_of_false nofun nofun
  · have hout : ¬start.toNat + 1 < memorySize := hin
    rw [dif_neg hout, dif_neg hin, Except.error.injEq, Except.error.injEq]

/-! ### Power-on -/

/-- The font stands at 0x50. -/
theorem powerOnByte_font {k : Nat} (hk : k < 80) :
    powerOnByte (0x50 + k) = Font.glyphs[k] := by
  have hstart : fontStart.toNat = 0x50 := rfl
  rw [powerOnByte, hstart, if_pos (Nat.le_add_right _ _), Nat.add_sub_cancel_left,
    Vector.getElem?_eq_getElem hk, Option.getD_some]

/-- All around the font there are zeros. -/
theorem powerOnByte_zero (h : a < 0x50 ∨ 0xA0 ≤ a) : powerOnByte a = 0 := by
  have hstart : fontStart.toNat = 0x50 := rfl
  rw [powerOnByte, hstart]
  split
  · rw [Vector.getElem?_eq_none (by omega), Option.getD_none]
  · rfl

/-- **The last write wins.** A write succeeds if and only if its span lies in memory, or the
program fits into the space for programs, and else it is refused with its span or size and
changes nothing. After any writes to a memory at power-on, a cell holds the byte that the latest
of them has put there that succeeded and covers it, or the byte from power-on, which belongs to
the font or is zero.

The bytes of a span can be read if and only if it lies in memory, and they are those that are
read from its cells one by one; an opcode is read from two cells, and refused as the span of the
two is. -/
theorem last_write_wins :
    (∀ (m : Memory) (w : MemoryWrite),
      ((∃ m', m.request? w = .ok m') ↔ w.Fits) ∧
      (¬w.Fits → m.request? w = .error w.refusal ∧ m.afterWrite w = m)) ∧
    (∀ (ws : List MemoryWrite) (a : Address), a.toNat < 4096 →
      (powerOn.afterWrites ws).read? a =
        .ok ((lastGiven? ws a.toNat).getD (powerOnByte a.toNat))) ∧
    (∀ (k : Nat) (hk : k < 80), powerOnByte (0x50 + k) = Font.glyphs[k]) ∧
    (∀ a : Nat, a < 0x50 ∨ 0xA0 ≤ a → powerOnByte a = 0) ∧
    (∀ (m : Memory) (a : Address), 4096 ≤ a.toNat →
      m.read? a = .error (.addressOutOfRange a.toNat 1)) ∧
    (∀ (m : Memory) (a : Address) (length : Nat),
      ((∃ bytes, m.readRange? a length = .ok bytes) ↔ a.toNat + length ≤ 4096) ∧
      (4096 < a.toNat + length →
        m.readRange? a length = .error (.addressOutOfRange a.toNat length)) ∧
      ∀ bytes, m.readRange? a length = .ok bytes →
        bytes.length = length ∧
          ∀ k < length, ∃ b, bytes[k]? = some b ∧ m.read? (a + UInt16.ofNat k) = .ok b) ∧
    ∀ (m : Memory) (a : Address),
      (∀ word : Opcode, m.readOpcode? a = .ok word ↔
        ∃ b b', m.read? a = .ok b ∧ m.read? (a + 1) = .ok b' ∧
          word.toNat = 256 * b.toNat + b'.toNat) ∧
      ∀ f, m.readOpcode? a = .error f ↔ m.readRange? a 2 = .error f := by
  refine ⟨fun m w => ⟨request?_eq_ok_iff, fun h => ⟨request?_of_not_fits h, ?_⟩⟩,
    fun ws a ha => read?_afterWrites ws ha, fun k hk => powerOnByte_font hk,
    fun a ha => powerOnByte_zero ha, fun m a ha => read?_of_not_lt (Nat.not_lt.2 ha),
    fun m a length => ⟨readRange?_eq_ok_iff, fun hout => ?_, fun bytes h => ?_⟩,
    fun m a => ⟨fun word => readOpcode?_eq_ok_iff, fun f => readOpcode?_eq_error_iff⟩⟩
  · exact afterWrite_of_not_fits h
  · exact dif_neg (Nat.not_le.2 hout)
  · exact getElem?_of_readRange? h

/-- A program is loaded, one of its bytes is overwritten, and a write over the end of memory is
refused. -/
theorem last_write_wins_overlapping :
    let m := powerOn.afterWrites
      [.program [0x12, 0x34], .byte 0x201 0x56, .range 0xFFF [0x78, 0x9A]]
    m.read? 0x200 = .ok 0x12 ∧ m.read? 0x201 = .ok 0x56 ∧ m.read? 0xFFF = .ok 0 ∧
      m.read? 0x1000 = .error (.addressOutOfRange 0x1000 1) ∧
      m.request? (.range 0xFFF [0x78, 0x9A]) = .error (.addressOutOfRange 0xFFF 2) ∧
      m.read? 0x50 = .ok 0xF0 ∧ m.readOpcode? 0x200 = .ok 0x1256 := by
  intro m
  obtain ⟨hwrite, hread, hfont, hzero, hout, -, hopcode⟩ := last_write_wins
  have hfirst : m.read? 0x200 = .ok 0x12 := hread _ 0x200 (by decide)
  have hsecond : m.read? 0x201 = .ok 0x56 := hread _ 0x201 (by decide)
  refine ⟨hfirst, hsecond, ?_, hout m 0x1000 (by decide), ((hwrite m _).2 (by decide)).1, ?_,
    ((hopcode m 0x200).1 0x1256).2 ⟨0x12, 0x56, hfirst, hsecond, by decide⟩⟩
  · refine (hread _ 0xFFF (by decide)).trans ?_
    exact congrArg Except.ok (hzero 0xFFF (by decide))
  · refine (hread _ 0x50 (by decide)).trans ?_
    exact congrArg Except.ok (hfont 0 (by decide))

end Memory

end Chip8
