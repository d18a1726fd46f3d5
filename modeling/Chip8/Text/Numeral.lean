/-!
# Numerals

Texts of natural numbers. `digits` gives the digits of a number in any base from two
upwards, most significant first, and `value` reads them back; `value_digits` says that
nothing is lost on the way. Messages and mnemonics write numbers in only two ways, both
defined here over `digits`: `decimal`, and `hex`, which pads with zeros up to a least
number of digits and never cuts a longer numeral.
-/

namespace Chip8.Numeral

/-! ### Digits -/

/-- The digits of `n` in the given base, most significant first. Zero has the one digit
`0`, and below base two, where there is nothing to divide by, a number is its own digit. -/
def digits (base n : Nat) : List Nat :=
  if _h : 2 ≤ base ∧ base ≤ n then digits base (n / base) ++ [n % base] else [n]
termination_by n
decreasing_by exact Nat.div_lt_self (by omega) (by omega)

/-- The number that a list of digits stands for in the given base. -/
def value (base : Nat) (ds : List Nat) : Nat :=
  ds.foldl (fun acc d => acc * base + d) 0

/-- A digit put behind the others moves them up by one place. -/
theorem value_append_singleton (base : Nat) (ds : List Nat) (d : Nat) :
    value base (ds ++ [d]) = value base ds * base + d := by
  simp only [value, List.foldl_append, List.foldl_cons, List.foldl_nil]

/-- Reading the digits of a number back gives the number. -/
theorem value_digits (base n : Nat) : value base (digits base n) = n := by
  induction n using Nat.strongRecOn with
  | ind n ih =>
    rw [digits]
    split
    · next h =>
      rw [value_append_singleton, ih _ (Nat.div_lt_self (by omega) (by omega))]
      exact Nat.div_add_mod' n base
    · simp [value]

/-- Every digit is below the base. -/
theorem digits_lt {base n : Nat} (h : 2 ≤ base) : ∀ d ∈ digits base n, d < base := by
  induction n using Nat.strongRecOn with
  | ind n ih =>
    rw [digits]
    split
    · next hb =>
      intro d hd
      rcases List.mem_append.1 hd with hd | hd
      · exact ih _ (Nat.div_lt_self (by omega) (by omega)) d hd
      · rw [List.mem_singleton.1 hd]
        exact Nat.mod_lt _ (by omega)
    · intro d hd
      rw [List.mem_singleton.1 hd]
      omega

/-! ### Texts -/

/-- Which letters stand for the digits from ten upwards. -/
inductive LetterCase where
  | lower
  | upper
deriving DecidableEq, Repr

/-- The code point of the letter for ten. -/
def LetterCase.ten : LetterCase → Nat
  | .lower => 97
  | .upper => 65

/-- The character of one digit: `0` to `9`, then letters. -/
def digitChar (letters : LetterCase) (d : Nat) : Char :=
  Char.ofNat (if d < 10 then 48 + d else letters.ten + (d - 10))

/-- The numeral of `n` in base ten, without padding. -/
def decimal (n : Nat) : String :=
  String.ofList ((digits 10 n).map (digitChar .lower))

/-- The numeral of `n` in base sixteen, filled up with zeros to `width` digits. -/
def hex (letters : LetterCase) (width n : Nat) : String :=
  let ds := digits 16 n
  String.ofList ((List.replicate (width - ds.length) 0 ++ ds).map (digitChar letters))

end Chip8.Numeral
