import Chip8.Text.Numeral
import Mathlib.Algebra.Group.Nat.Defs
import Mathlib.Data.List.TakeWhile

/-!
# Reading numerals back

A numeral can be read back, also a hexadecimal one that was padded, and it can be found at the
beginning of a longer text if what follows it is not a digit. So a text that consists of numerals
with such characters between them has only one reading.

## Main statements

* `Numeral.value_hex`, `Numeral.value_decimal`: reading a numeral back gives its number.
* `Numeral.length_hex`: how long a numeral is.
* `Numeral.hex_append_cons`: a numeral and the text behind it, told from the two together.
-/

namespace Chip8.Numeral

variable {letters : LetterCase} {width a b n : Nat} {c : Char} {rest rest' : List Char}

/-- The digit that a character stands for. -/
def digitOfChar (letters : LetterCase) (c : Char) : Nat :=
  if c.toNat < 58 then c.toNat - 48 else c.toNat - letters.ten + 10

/-- A digit is read back from the character that stands for it, in both cases of the letters. -/
theorem digitOfChar_digitChar (letters : LetterCase) :
    ∀ d < 16, digitOfChar letters (digitChar letters d) = d := by
  cases letters <;> decide

/-- Digits are read back from their characters. -/
theorem map_digitOfChar {ds : List Nat} (h : ∀ d ∈ ds, d < 16) :
    (ds.map (digitChar letters)).map (digitOfChar letters) = ds := by
  have hread : ds.map (digitOfChar letters ∘ digitChar letters) = ds.map id :=
    List.map_congr_left fun d hd => digitOfChar_digitChar letters d (h d hd)
  rw [List.map_map, hread, List.map_id]

/-- Zeros in front do not change the value. -/
theorem value_replicate_zero_append (base k : Nat) (ds : List Nat) :
    value base (List.replicate k 0 ++ ds) = value base ds := by
  induction k with
  | zero => rfl
  | succ k ih => simpa [value, List.replicate_succ] using ih

/-- The digits of a numeral, with the zeros in front. -/
def paddedDigits (width n : Nat) : List Nat :=
  List.replicate (width - (digits 16 n).length) 0 ++ digits 16 n

/-- The characters of a hexadecimal numeral are those of its digits, with the zeros in front. -/
theorem toList_hex (letters : LetterCase) (width n : Nat) :
    (hex letters width n).toList = (paddedDigits width n).map (digitChar letters) :=
  String.toList_ofList

/-- The zeros in front of a numeral are digits as well. -/
theorem paddedDigits_lt : ∀ d ∈ paddedDigits width n, d < 16 := by
  intro d hd
  rcases List.mem_append.1 hd with hzero | hdigit
  · rw [List.eq_of_mem_replicate hzero]
    exact Nat.succ_pos _
  · exact digits_lt (by decide) d hdigit

/-- Reading a numeral back gives its number. -/
theorem value_hex (letters : LetterCase) (width n : Nat) :
    value 16 ((hex letters width n).toList.map (digitOfChar letters)) = n := by
  rw [toList_hex, map_digitOfChar paddedDigits_lt, paddedDigits, value_replicate_zero_append,
    value_digits]

/-- The characters of a numeral in base ten. No letters occur, so the case does not matter. -/
theorem toList_decimal (n : Nat) :
    (decimal n).toList = (digits 10 n).map (digitChar .lower) :=
  String.toList_ofList

/-- A numeral in base ten is read back as well. -/
theorem value_decimal (n : Nat) :
    value 10 ((decimal n).toList.map (digitOfChar .lower)) = n := by
  have hdigits : ∀ d ∈ digits 10 n, d < 16 := fun d hd =>
    Nat.lt_trans (digits_lt (by decide) d hd) (by decide)
  rw [toList_decimal, map_digitOfChar hdigits, value_digits]

/-- A numeral in base ten is written with the ten digits and nothing else. -/
theorem isDigit_of_mem_decimal (n : Nat) : ∀ c ∈ (decimal n).toList, c.isDigit = true := by
  have hten : ∀ d < 10, (digitChar .lower d).isDigit = true := by decide
  intro c hc
  rw [toList_decimal] at hc
  obtain ⟨d, hd, rfl⟩ := List.mem_map.1 hc
  exact hten d (digits_lt (by decide) d hd)

/-! ### Lengths -/

/-- A number below a power of the base has no more digits than that. -/
theorem length_digits_le {base k n : Nat} (h : n < base ^ (k + 1)) :
    (digits base n).length ≤ k + 1 := by
  induction k generalizing n with
  | zero =>
    rw [Nat.zero_add, Nat.pow_one] at h
    rw [digits, dif_neg (by omega)]
    exact Nat.le_refl 1
  | succ k ih =>
    rw [digits]
    split
    · rw [List.length_append, List.length_singleton]
      exact Nat.succ_le_succ (ih (Nat.div_lt_of_lt_mul (by rwa [← Nat.pow_succ'])))
    · exact Nat.succ_le_succ (Nat.zero_le _)

/-- A numeral is as long as it is padded to, or longer. -/
theorem length_hex (letters : LetterCase) (width n : Nat) :
    (hex letters width n).toList.length = max width (digits 16 n).length := by
  rw [toList_hex, List.length_map, paddedDigits, List.length_append, List.length_replicate]
  omega

/-! ### Numerals in longer texts -/

/-- No digit is written as this character. -/
def Separates (letters : LetterCase) (c : Char) : Prop :=
  ∀ d < 16, digitChar letters d ≠ c

instance (letters : LetterCase) (c : Char) : Decidable (Separates letters c) :=
  inferInstanceAs (Decidable (∀ d < 16, _))

/-- Nor does the character occur in a numeral. -/
theorem Separates.ne (h : Separates letters c) : ∀ c' ∈ (hex letters width n).toList, c' ≠ c := by
  intro c' hc'
  rw [toList_hex] at hc'
  obtain ⟨d, hd, rfl⟩ := List.mem_map.1 hc'
  exact h d (paddedDigits_lt d hd)

/-- A numeral ends where a character follows that is not a digit. -/
theorem Separates.takeWhile (h : Separates letters c) (rest : List Char) :
    ((hex letters width n).toList ++ c :: rest).takeWhile (· ≠ c) =
      (hex letters width n).toList := by
  rw [List.takeWhile_append_of_pos fun c' hc' => decide_eq_true (h.ne c' hc'),
    List.takeWhile_cons_of_neg (by simp), List.append_nil]

/-- A numeral and the text behind it, told from the two together. -/
theorem hex_append_cons (hc : Separates letters c)
    (h : (hex letters width a).toList ++ c :: rest = (hex letters width b).toList ++ c :: rest') :
    a = b ∧ rest = rest' := by
  have hnumeral : (hex letters width a).toList = (hex letters width b).toList := by
    rw [← hc.takeWhile rest, h, hc.takeWhile rest']
  have hrest := h
  rw [hnumeral, List.append_cancel_left_eq] at hrest
  refine ⟨?_, (List.cons.inj hrest).2⟩
  rw [← value_hex letters width a, hnumeral, value_hex]

end Chip8.Numeral
