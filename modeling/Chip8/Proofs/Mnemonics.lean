import Chip8.Instruction.Mnemonic
import Chip8.Proofs.Decoding
import Chip8.Proofs.Numerals

/-!
# Reading mnemonics back

Many instructions share a name: eleven are called `LD`, three `ADD`, and three more names have two
each. So the name of a line does not tell the instruction, but the line as a whole does. The name
ends at the first space and each operand but the last at a comma. The spelling of an operand
tells its kind, and its number if it has one. The kinds of the operands leave at most a handful of
instructions, and of these no two have the same name.

## Main statements

* `Operand.ofText_text`: an operand is read back from its spelling.
* `Instruction.ofParts?_parts`: an instruction is read back from its name and its operands.
* `Instruction.parts_of_mnemonic`: lines that are the same have the same parts.
* `Instruction.mnemonics_unambiguous`: so they stand for the same instruction.
-/

namespace Chip8

/-! ### Operands -/

namespace Operand

open Numeral

/-- The operand with a spelling. Constants and addresses differ in the number of their digits. -/
def ofText (cs : List Char) : Operand :=
  if cs.all Char.isDigit then .count (.ofNat (value 10 (cs.map (digitOfChar .lower))))
  else
    match cs with
    | 'V' :: ds => .register (.ofNat (value 16 (ds.map (digitOfChar .upper))))
    | '0' :: 'x' :: ds =>
      let n := value 16 (ds.map (digitOfChar .upper))
      if ds.length ≤ 2 then .byte (.ofNat n) else .address (.ofNat n)
    | ['I'] => .index
    | ['[', 'I', ']'] => .cells
    | ['D', 'T'] => .delay
    | ['S', 'T'] => .sound
    | ['K'] => .key
    | ['F'] => .glyph
    | _ => .decimal

/-- A spelling of nothing but decimal digits is that of a number. -/
theorem ofText_of_digits {cs : List Char} (h : cs.all Char.isDigit = true) :
    ofText cs = .count (.ofNat (value 10 (cs.map (digitOfChar .lower)))) :=
  if_pos h

/-- A spelling that begins with `V` is that of a register. -/
theorem ofText_register (ds : List Char) :
    ofText ('V' :: ds) = .register (.ofNat (value 16 (ds.map (digitOfChar .upper)))) := rfl

/-- A spelling that begins with `0x` is that of a constant if two digits follow at most, and else
that of an address. -/
theorem ofText_prefixed (ds : List Char) :
    ofText ('0' :: 'x' :: ds) =
      if ds.length ≤ 2 then .byte (.ofNat (value 16 (ds.map (digitOfChar .upper))))
      else .address (.ofNat (value 16 (ds.map (digitOfChar .upper)))) := rfl

/-- A register is spelled with one digit. -/
theorem toList_text_register (number : UInt8) :
    (register number).text.toList = 'V' :: (hex .upper 1 number.toNat).toList := by
  simp [text]

/-- A constant is spelled with two digits. -/
theorem toList_text_byte (nn : UInt8) :
    (byte nn).text.toList = '0' :: 'x' :: (hex .upper 2 nn.toNat).toList := by
  simp [text]

/-- An address is spelled with three digits, or with four if it is past the end of memory. -/
theorem toList_text_address (target : Address) :
    (address target).text.toList = '0' :: 'x' :: (hex .upper 3 target.toNat).toList := by
  simp [text]

/-- An operand is read back from its spelling. -/
theorem ofText_text (o : Operand) : ofText o.text.toList = o := by
  cases o with
  | register number =>
    rw [toList_text_register, ofText_register, value_hex, UInt8.ofNat_toNat]
  | byte nn =>
    have hlength : (hex .upper 2 nn.toNat).toList.length ≤ 2 := by
      rw [length_hex]
      exact Nat.max_le.2 ⟨Nat.le_refl 2, length_digits_le nn.toNat_lt⟩
    rw [toList_text_byte, ofText_prefixed, if_pos hlength, value_hex, UInt8.ofNat_toNat]
  | address target =>
    have hlength : ¬(hex .upper 3 target.toNat).toList.length ≤ 2 := by
      rw [length_hex]
      omega
    rw [toList_text_address, ofText_prefixed, if_neg hlength, value_hex, UInt16.ofNat_toNat]
  | count n =>
    have hdigits : (text (count n)).toList.all Char.isDigit = true :=
      List.all_eq_true.2 (isDigit_of_mem_decimal n.toNat)
    rw [ofText_of_digits hdigits, text, value_decimal, UInt8.ofNat_toNat]
  | _ => decide

/-- Operands that are spelled alike are the same. -/
theorem text_injective : Function.Injective text := by
  intro o o' h
  rw [← ofText_text o, h, ofText_text]

/-- No operand is spelled with a comma. -/
theorem comma_notMem_text (o : Operand) : ',' ∉ o.text.toList := by
  have hhex : ∀ width n, ',' ∉ (hex .upper width n).toList := fun width n h =>
    Separates.ne (by decide) ',' h rfl
  cases o with
  | register number =>
    rw [toList_text_register]
    simp [hhex]
  | byte nn =>
    rw [toList_text_byte]
    simp [hhex]
  | address target =>
    rw [toList_text_address]
    simp [hhex]
  | count n =>
    intro h
    have hdigit := isDigit_of_mem_decimal n.toNat ',' h
    exact absurd hdigit (by decide)
  | _ => decide

end Operand

/-! ### Names and kinds -/

namespace Operator

/-- The operator with a name. -/
def ofName? (name : String) : Option Operator :=
  [or, and, xor, add, sub, shiftRight, subFrom, shiftLeft].find? (·.name = name)

end Operator

namespace Instruction

/-- The instructions with two registers: a skip, a copy, or one of the operators. -/
def ofRegisters? (name : String) (x y : UInt8) : Option Instruction :=
  if name = "SE" then some (.skipIf (.equals x y))
  else if name = "SNE" then some (.skipIf (.differs x y))
  else if name = "LD" then some (.copy x y)
  else (Operator.ofName? name).map fun operator => .combine operator x y

/-- The instructions with a register and a constant. -/
def ofRegisterByte? (name : String) (x nn : UInt8) : Option Instruction :=
  if name = "SE" then some (.skipIf (.equalsByte x nn))
  else if name = "SNE" then some (.skipIf (.differsByte x nn))
  else if name = "LD" then some (.setByte x nn)
  else if name = "ADD" then some (.addByte x nn)
  else if name = "RND" then some (.random x nn)
  else none

/-- The instruction with a name and operands. The kinds of the operands come first, because they
leave the fewer instructions. -/
def ofParts? (name : String) : List Operand → Option Instruction
  | [] => if name = "CLS" then some .clearScreen else some .ret
  | [.address target] => if name = "JP" then some (.jump target) else some (.call target)
  | [.register x] =>
    if name = "SKP" then some (.skipIf (.pressed x)) else some (.skipIf (.released x))
  | [.register x, .byte nn] => ofRegisterByte? name x nn
  | [.register x, .register y] => ofRegisters? name x y
  | [.register _, .address base] => some (.jumpOffset base)
  | [.register x, .register y, .count height] => some (.draw x y height)
  | [.register x, .delay] => some (.readDelay x)
  | [.register x, .key] => some (.awaitKey x)
  | [.register x, .cells] => some (.loadRegisters x)
  | [.index, .address target] => some (.setIndex target)
  | [.index, .register x] => some (.addIndex x)
  | [.delay, .register x] => some (.setDelay x)
  | [.sound, .register x] => some (.setSound x)
  | [.glyph, .register x] => some (.pointGlyph x)
  | [.decimal, .register x] => some (.storeDecimal x)
  | [.cells, .register x] => some (.storeRegisters x)
  | _ => none

/-- An instruction is read back from its name and its operands. -/
theorem ofParts?_parts (i : Instruction) : ofParts? i.name i.operands = some i := by
  cases i with
  | skipIf c => cases c <;> rfl
  | combine o x y => cases o <;> rfl
  | _ => rfl

end Instruction

/-! ### Lines -/

/-- What a line shows of the operands behind the first. -/
def laterOperands : List Operand → List Char
  | [] => []
  | o :: rest => ',' :: ' ' :: (o.text.toList ++ laterOperands rest)

/-- What a line shows behind the name. -/
def allOperands : List Operand → List Char
  | [] => []
  | o :: rest => ' ' :: (o.text.toList ++ laterOperands rest)

/-- Operands that are joined by commas, one after the other. -/
theorem toList_intercalate (o : Operand) (rest : List Operand) :
    (", ".intercalate ((o :: rest).map Operand.text)).toList =
      o.text.toList ++ laterOperands rest := by
  induction rest generalizing o with
  | nil => simp [laterOperands]
  | cons o' rest ih =>
    rw [List.map_cons, List.map_cons, String.intercalate_cons_cons, ← List.map_cons,
      String.toList_append, String.toList_append, ih, laterOperands]
    simp

/-- A line is the name and behind it what is shown of the operands. -/
theorem toList_mnemonic (i : Instruction) :
    i.mnemonic.toList = i.name.toList ++ allOperands i.operands := by
  rw [Instruction.mnemonic]
  split
  · next hnone => rw [hnone, allOperands, List.append_nil]
  · next hsome =>
    cases hops : i.operands with
    | nil => exact absurd hops hsome
    | cons o rest =>
      rw [String.toList_append, String.toList_append, toList_intercalate, allOperands]
      simp

/-! ### Words -/

section Words

variable {c : Char} {w w' t t' : List Char}

/-- A word ends at the first separator behind it, or where the text ends. -/
theorem takeWhile_word (hw : c ∉ w) (ht : ∀ d ∈ t.head?, d = c) :
    (w ++ t).takeWhile (· ≠ c) = w := by
  have hinside : ∀ d ∈ w, decide (d ≠ c) = true := fun d hd =>
    decide_eq_true (ne_of_mem_of_not_mem hd hw)
  have hstop : t.takeWhile (· ≠ c) = [] := by
    cases t with
    | nil => rfl
    | cons d t => exact List.takeWhile_cons_of_neg (by simpa using ht d rfl)
  rw [List.takeWhile_append_of_pos hinside, hstop, List.append_nil]

/-- So the word and what is behind it can be told from the text. -/
theorem word_eq_of_append (hw : c ∉ w) (hw' : c ∉ w') (ht : ∀ d ∈ t.head?, d = c)
    (ht' : ∀ d ∈ t'.head?, d = c) (h : w ++ t = w' ++ t') : w = w' ∧ t = t' := by
  have hsame : w = w' := by rw [← takeWhile_word hw ht, h, takeWhile_word hw' ht']
  rw [hsame, List.append_cancel_left_eq] at h
  exact ⟨hsame, h⟩

end Words

/-- Behind an operand comes a comma, or nothing. -/
theorem head?_laterOperands (ops : List Operand) : ∀ d ∈ (laterOperands ops).head?, d = ',' := by
  cases ops with
  | nil => nofun
  | cons o rest => exact fun d hd => (Option.some.inj hd).symm

/-- Behind the name comes a space, or nothing. -/
theorem head?_allOperands (ops : List Operand) : ∀ d ∈ (allOperands ops).head?, d = ' ' := by
  cases ops with
  | nil => nofun
  | cons o rest => exact fun d hd => (Option.some.inj hd).symm

/-- An operand and those behind it can be told from the text. -/
theorem operand_eq_of_append {o o' : Operand} {rest rest' : List Operand}
    (h : o.text.toList ++ laterOperands rest = o'.text.toList ++ laterOperands rest') :
    o = o' ∧ laterOperands rest = laterOperands rest' := by
  obtain ⟨htext, hrest⟩ := word_eq_of_append o.comma_notMem_text o'.comma_notMem_text
    (head?_laterOperands rest) (head?_laterOperands rest') h
  exact ⟨Operand.text_injective (String.toList_inj.1 htext), hrest⟩

/-- The operands behind the first can be told from the text. -/
theorem laterOperands_injective : Function.Injective laterOperands := by
  intro ops
  induction ops with
  | nil =>
    intro ops' h
    cases ops' with
    | nil => rfl
    | cons o' rest' => cases h
  | cons o rest ih =>
    intro ops' h
    cases ops' with
    | nil => cases h
    | cons o' rest' =>
      obtain ⟨rfl, hrest⟩ := operand_eq_of_append (List.cons.inj (List.cons.inj h).2).2
      rw [ih hrest]

/-- All operands can be told from the text behind the name. -/
theorem allOperands_injective : Function.Injective allOperands := by
  intro ops ops' h
  cases ops with
  | nil =>
    cases ops' with
    | nil => rfl
    | cons o' rest' => cases h
  | cons o rest =>
    cases ops' with
    | nil => cases h
    | cons o' rest' =>
      obtain ⟨rfl, hrest⟩ := operand_eq_of_append (List.cons.inj h).2
      rw [laterOperands_injective hrest]

namespace Instruction

/-- No name has a space in it. -/
theorem space_notMem_name (i : Instruction) : ' ' ∉ i.name.toList := by
  cases i with
  | skipIf c => cases c <;> simp [name, Condition.name]
  | combine o x y => cases o <;> simp [name, Operator.name]
  | _ => simp [name]

/-- Lines that are the same have the same parts. -/
theorem parts_of_mnemonic {i i' : Instruction} (h : i.mnemonic = i'.mnemonic) :
    i.name = i'.name ∧ i.operands = i'.operands := by
  have hchars := congrArg String.toList h
  rw [toList_mnemonic, toList_mnemonic] at hchars
  obtain ⟨hname, hoperands⟩ := word_eq_of_append i.space_notMem_name i'.space_notMem_name
    (head?_allOperands _) (head?_allOperands _) hchars
  exact ⟨String.toList_inj.1 hname, allOperands_injective hoperands⟩

/-- An instruction can be told from its line. -/
theorem mnemonic_injective : Function.Injective mnemonic := by
  intro i i' h
  obtain ⟨hname, hoperands⟩ := parts_of_mnemonic h
  have hread := ofParts?_parts i
  rw [hname, hoperands, ofParts?_parts] at hread
  exact (Option.some.inj hread).symm

/-- Mnemonics are unambiguous: two instructions, whatever their operands, have the same line of
assembly only if they are the same. So two opcodes that are accepted have the same line only if
they are the same word. -/
theorem mnemonics_unambiguous :
    (∀ i i' : Instruction, i.mnemonic = i'.mnemonic → i = i') ∧
      ∀ w w' i i', decode w = .ok i → decode w' = .ok i' → i.mnemonic = i'.mnemonic → w = w' := by
  refine ⟨fun i i' h => mnemonic_injective h, fun w w' i i' hw hw' h => ?_⟩
  obtain rfl := mnemonic_injective h
  rw [← (decode_eq_ok_iff_spells.1 hw).2, (decode_eq_ok_iff_spells.1 hw').2]

/-- Two lines that begin with `ADD`, and the only opcode whose line is `ADD VA, 0x10`. -/
theorem mnemonics_unambiguous_add :
    (addByte 0xA 0x10).mnemonic ≠ (addIndex 0xA).mnemonic ∧
      decode 0x7A10 = .ok (addByte 0xA 0x10) ∧ 0x7A10 = (addByte 0xA 0x10).encode := by
  obtain ⟨hinstructions, hopcodes⟩ := mnemonics_unambiguous
  refine ⟨fun h => ?_, rfl, hopcodes 0x7A10 _ _ _ rfl rfl rfl⟩
  cases hinstructions _ _ h

end Instruction

end Chip8
