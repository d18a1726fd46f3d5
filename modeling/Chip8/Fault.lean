import Chip8.Text.Numeral

/-!
# Faults

Every way in which an operation of the machine can be refused, with the facts that the
refusal reports. `Fault.message` is the wording shown to the user. Of all faults only an
unknown opcode leaves the machine in a state that can be trusted, so it alone may be
stepped over: `Fault.isDecodeFailure` tells it from the rest.

A step that can be refused is a value of `Except Fault`, and steps are chained with `do`. The
module ends with what such a chain comes to.
-/

namespace Chip8

/-- The cause of a refused operation. -/
inductive Fault where
  /-- The `length` cells from `start` on do not all lie in memory. -/
  | addressOutOfRange (start length : Nat)
  /-- There is no data register, or key, with this number. -/
  | invalidIndex (index : UInt8)
  /-- A call was made with the call stack full. -/
  | stackOverflow
  /-- A return was made with the call stack empty. -/
  | stackUnderflow
  /-- The word is the encoding of no instruction. -/
  | unknownOpcode (word : UInt16)
  /-- A program of `size` bytes does not fit into the `limit` bytes reserved for it. -/
  | programTooLarge (size limit : Nat)
  /-- The machine did not halt on an unknown opcode, so there is nothing to step over. -/
  | notResumable
deriving DecidableEq, Repr

namespace Fault

open Numeral in
/-- The wording of a fault. Addresses and opcodes have at least four hexadecimal digits,
a register number has no padding, and counts of bytes are in base ten. -/
def message : Fault → String
  | addressOutOfRange start length =>
    "memory access out of range at 0x" ++ hex .upper 4 start ++
      " (len " ++ decimal length ++ ")"
  | invalidIndex index => "invalid register index V" ++ hex .upper 1 index.toNat
  | stackOverflow => "stack overflow: call depth exceeded"
  | stackUnderflow => "stack underflow: return with empty call stack"
  | unknownOpcode word => "unimplemented opcode 0x" ++ hex .upper 4 word.toNat
  | programTooLarge size limit =>
    "program is too large (" ++ decimal size ++ " bytes), max size is " ++
      decimal limit ++ " bytes"
  | notResumable => "machine is halted and cannot resume"

/-- Only a word that encodes no instruction fails before anything has been done. -/
def isDecodeFailure : Fault → Bool
  | unknownOpcode _ => true
  | _ => false

/-- A failure to decode reports the word that was not understood. -/
theorem isDecodeFailure_iff {f : Fault} :
    f.isDecodeFailure = true ↔ ∃ word, f = unknownOpcode word := by
  cases f <;> simp [isDecodeFailure]

end Fault

/-! ### Chains of refusable steps -/

variable {α β : Type}

@[simp] theorem ok_bind (a : α) (k : α → Except Fault β) : (Except.ok a >>= k) = k a := rfl

@[simp] theorem error_bind (f : Fault) (k : α → Except Fault β) :
    (Except.error f >>= k) = .error f := rfl

/-- A chain comes to a value if its first step does and the rest does with that. -/
theorem bind_eq_ok_iff {x : Except Fault α} {k : α → Except Fault β} {b : β} :
    x >>= k = .ok b ↔ ∃ a, x = .ok a ∧ k a = .ok b := by
  cases x <;> simp

/-- What is done to the value of a chain can be done to that of its last step. -/
theorem map_bind {γ : Type} (g : β → γ) (x : Except Fault α) (k : α → Except Fault β) :
    (x >>= k).map g = x >>= fun a => (k a).map g := by
  cases x <;> rfl

end Chip8
