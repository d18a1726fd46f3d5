import Chip8.Proofs.Run
import Mathlib.Data.Set.Function

/-!
# Assembled programs

A program is written down as a list of instructions and put into memory as a list of bytes:
the opcodes one after the other, each with its more significant byte first. Nothing is lost on
the way. Opcodes and instructions correspond one to one, and what a machine fetches from the
place of an instruction is that instruction again, with its opcode.

## Main statements

* `Instruction.bijOn_decode`: the decoder matches the opcodes that it accepts one to one with
  the instructions whose operands fit.
* `Machine.fetch?_assemble`: an instruction of a loaded program is fetched from its place.
* `Machine.assembled_round_trip`: both together.
-/

namespace Chip8

/-! ### Opcodes and bytes -/

/-- The two bytes of an opcode give its number. -/
theorem Opcode.toNat_eq_bytes (w : Opcode) :
    w.toNat = 0x100 * w.highByte.toNat + w.nn.toNat := by
  have hread := congrArg UInt16.toNat w.ofBytes_highByte_nn
  rw [toNat_ofBytes, Nat.mul_comm] at hread
  exact hread.symm

namespace Instruction

/-- An instruction that fits is read from its own opcode and from no other. -/
theorem decode_eq_ok_iff_eq_encode {i : Instruction} (h : i.Encodable) {w : Opcode} :
    decode w = .ok i ↔ w = i.encode := by
  rw [decode_eq_ok_iff_spells]
  constructor
  · rintro ⟨-, rfl⟩
    rfl
  · rintro rfl
    exact ⟨h, rfl⟩

/-- The decoder matches the opcodes that it accepts one to one with the instructions whose
operands fit. -/
theorem bijOn_decode :
    Set.BijOn decode {w | ∃ i, decode w = .ok i} (Except.ok '' {i | i.Encodable}) := by
  refine ⟨?_, ?_, ?_⟩
  · rintro w ⟨i, hi⟩
    exact ⟨i, (decode_eq_ok_iff_spells.1 hi).1, hi.symm⟩
  · rintro w ⟨i, hi⟩ w' - hsame
    obtain ⟨hfits, rfl⟩ := decode_eq_ok_iff_spells.1 hi
    exact ((decode_eq_ok_iff_eq_encode hfits).1 (hsame.symm.trans hi)).symm
  · rintro - ⟨i, hfits, rfl⟩
    have hi : decode i.encode = .ok i := (decode_eq_ok_iff_eq_encode hfits).2 rfl
    exact ⟨i.encode, ⟨i, hi⟩, hi⟩

/-- A word that is the opcode of no instruction is refused with itself as the reason. -/
theorem decode_of_not_accepted {w : Opcode} (h : ∀ i, decode w ≠ .ok i) :
    decode w = .error (.unknownOpcode w) := by
  cases hw : decode w with
  | ok i => exact absurd hw (h i)
  | error f => rw [(decode_eq_error_iff.1 hw).2]

end Instruction

/-! ### Programs -/

/-- The bytes of a program. -/
def assemble (program : List Instruction) : List UInt8 :=
  program.flatMap fun i => i.encode.toBytes

/-- Each instruction comes to two bytes, the upper one first. -/
theorem assemble_cons (i : Instruction) (rest : List Instruction) :
    assemble (i :: rest) = i.encode.highByte :: i.encode.nn :: assemble rest := rfl

/-- So a program has twice as many bytes as instructions. -/
theorem length_assemble (program : List Instruction) :
    (assemble program).length = 2 * program.length := by
  induction program with
  | nil => rfl
  | cons i rest ih =>
    rw [assemble_cons, List.length_cons, List.length_cons, ih, List.length_cons]
    omega

/-- The bytes of instruction number `k` are number `2 * k` and the one behind it. -/
theorem getElem?_assemble (program : List Instruction) (k : Nat) :
    (assemble program)[2 * k]? = program[k]?.map (·.encode.highByte) ∧
      (assemble program)[2 * k + 1]? = program[k]?.map (·.encode.nn) := by
  induction program generalizing k with
  | nil => exact ⟨rfl, rfl⟩
  | cons i rest ih =>
    cases k with
    | zero => exact ⟨rfl, rfl⟩
    | succ k => exact ih k

/-- So they give its opcode. -/
theorem toNat_encode_eq_bytes {program : List Instruction} {k : Nat} (hk : k < program.length)
    (hin : 2 * k + 1 < (assemble program).length) :
    program[k].encode.toNat =
      0x100 * (assemble program)[2 * k].toNat + (assemble program)[2 * k + 1].toNat := by
  obtain ⟨hhigh, hlow⟩ := getElem?_assemble program k
  rw [List.getElem?_eq_getElem hk, List.getElem?_eq_getElem (Nat.lt_of_succ_lt hin)] at hhigh
  rw [List.getElem?_eq_getElem hk, List.getElem?_eq_getElem hin] at hlow
  rw [Option.some.inj hhigh, Option.some.inj hlow]
  exact Opcode.toNat_eq_bytes _

namespace Machine

/-- An instruction of a loaded program is fetched from its place. -/
theorem fetch?_assemble (m : Machine) {program : List Instruction}
    (hfits : (assemble program).length ≤ programLimit) {k : Nat} (hk : k < program.length)
    (hi : program[k].Encodable) :
    ((m.load (assemble program)).machine.follow
        (.jump (UInt16.ofNat (programStart.toNat + 2 * k)))).fetch? =
      .ok (program[k].encode, program[k]) := by
  have hin : 2 * k + 1 < (assemble program).length := by
    rw [length_assemble]
    omega
  -- the addresses of a program that fits do not wrap
  have hpc : (UInt16.ofNat (programStart.toNat + 2 * k)).toNat = programStart.toNat + 2 * k := by
    have hlimit : programStart.toNat + programLimit < 2 ^ 16 := by decide
    rw [UInt16.toNat_ofNat']
    exact Nat.mod_eq_of_lt (by omega)
  exact fetch?_load (assemble program) hfits rfl hin hpc hi (toNat_encode_eq_bytes hk hin)

/-- Assembling, loading and fetching lose nothing.

The decoder is a bijection between the opcodes that it accepts and the instructions whose
operands fit: each of these is read from its own opcode and from no other, and every other word
is refused with itself as the reason. So from a program of at most 1792 such instructions that
is loaded into any machine, each instruction is fetched from its place, with its opcode,
whatever was in memory before. -/
theorem assembled_round_trip :
    Set.BijOn Instruction.decode {w | ∃ i, Instruction.decode w = .ok i}
      (Except.ok '' {i | i.Encodable}) ∧
    (∀ i : Instruction, i.Encodable → ∀ w, Instruction.decode w = .ok i ↔ w = i.encode) ∧
    (∀ w, (∀ i, Instruction.decode w ≠ .ok i) →
      Instruction.decode w = .error (.unknownOpcode w)) ∧
    ∀ (m : Machine) (program : List Instruction), program.length ≤ 1792 →
      (∀ i ∈ program, i.Encodable) →
      let loaded := m.load (assemble program)
      loaded.result = .ok () ∧
        ∀ k (hk : k < program.length),
          (loaded.machine.follow (.jump (UInt16.ofNat (0x200 + 2 * k)))).fetch? =
            .ok (program[k].encode, program[k]) := by
  refine ⟨Instruction.bijOn_decode, fun i h w => Instruction.decode_eq_ok_iff_eq_encode h,
    fun w => Instruction.decode_of_not_accepted, ?_⟩
  intro m program hlength hencodable loaded
  have hfits : (assemble program).length ≤ programLimit := by
    have hlimit : 2 * 1792 ≤ programLimit := by decide
    rw [length_assemble]
    omega
  have hloaded : loaded.result = .ok () := congrArg Outcome.result (load_of_fits hfits)
  exact ⟨hloaded, fun k hk =>
    m.fetch?_assemble hfits hk (hencodable _ (List.getElem_mem hk))⟩

/-- A program whose operands use their digits to the full, in a memory that was full of ones. -/
theorem assembled_round_trip_overOnes :
    let m := { withoutProgram with memory := ⟨Vector.replicate memorySize 0xFF⟩ }
    let program : List Instruction := [.combine .shiftLeft 0xF 0x3, .draw 0x0 0xF 0xF, .jump 0xFFF]
    let loaded := (m.load (assemble program)).machine
    (loaded.follow (.jump 0x202)).fetch? = .ok (0xD0FF, .draw 0x0 0xF 0xF) ∧
      (loaded.follow (.jump 0x204)).fetch? = .ok (0x1FFF, .jump 0xFFF) ∧
      Instruction.decode 0x8F3F = .error (.unknownOpcode 0x8F3F) := by
  intro m program loaded
  obtain ⟨-, -, hrefused, hload⟩ := assembled_round_trip
  have hencodable : ∀ i ∈ program, i.Encodable := by
    simp [program, Instruction.Encodable]
  obtain ⟨-, hfetch⟩ := hload m program (by decide) hencodable
  have hunknown : ∀ i, Instruction.decode 0x8F3F ≠ .ok i := by
    intro i hi
    cases hi
  exact ⟨hfetch 1 (by decide), hfetch 2 (by decide), hrefused 0x8F3F hunknown⟩

end Machine

end Chip8
