import Chip8.Proofs.Atomicity

/-!
# Registers that do not exist

Registers and keys are named by whole bytes, and of these only the first sixteen name one. An
operation on any other is refused, and the refusal reports the name. This holds for an instruction
too, whatever its operands, because the parts that it is made of are such operations, and a chain
of refusable steps is refused by one of its steps.

A copy of bytes to the registers is given no name. It makes one up from the number of bytes, modulo
256, when there are too many of them. From 257 bytes on this can be the name of a register that
exists, although the copy is refused all the same.

## Main statements

* `NamesMissing.bind`: a chain of steps reports no more than its steps do.
* `Machine.namesMissing_effect?`: what an instruction reports.
* `Registers.namesMissing_load?_iff`: what a copy to the registers reports.
* `Machine.missing_register_named`: all of it, for each operation that takes a name.
-/

namespace Chip8

variable {α β : Type}

/-- A step that is refused for a register, or for a key, is refused for one that does not exist. -/
def NamesMissing (x : Except Fault α) : Prop :=
  ∀ k, x = .error (.invalidIndex k) → 16 ≤ k.toNat

/-- A step is refused if and only if this number names nothing, and then for this number. -/
def IsRefusedFor (number : UInt8) (x : Except Fault α) : Prop :=
  ∀ f, x = .error f ↔ 16 ≤ number.toNat ∧ f = .invalidIndex number

/-! ### Chains of steps -/

/-- A step that succeeds reports nothing. -/
theorem namesMissing_ok (a : α) : NamesMissing (.ok a) :=
  nofun

/-- Nor does one that is refused for another reason. -/
theorem namesMissing_error {f : Fault} (h : ∀ k, f ≠ .invalidIndex k) :
    NamesMissing (.error f : Except Fault α) :=
  fun k hk => absurd (Except.error.inj hk) (h k)

/-- Whoever is refused for the number that was given names nothing that exists. -/
theorem IsRefusedFor.namesMissing {number : UInt8} {x : Except Fault α}
    (h : IsRefusedFor number x) : NamesMissing x := by
  intro k hk
  obtain ⟨hnumber, hfault⟩ := (h _).1 hk
  rwa [Fault.invalidIndex.inj hfault]

/-- A chain is refused by its first step or by what comes behind it. -/
theorem NamesMissing.bind {x : Except Fault α} {k : α → Except Fault β} (hx : NamesMissing x)
    (hk : ∀ a, x = .ok a → NamesMissing (k a)) : NamesMissing (x >>= k) := by
  cases x with
  | ok a => exact hk a rfl
  | error f => exact fun n hn => hx n (congrArg Except.error (Except.error.inj hn))

/-- A chain whose later steps do not fail. -/
theorem NamesMissing.map {x : Except Fault α} (hx : NamesMissing x) (g : α → β) :
    NamesMissing (x >>= fun a => .ok (g a)) :=
  hx.bind fun a _ => namesMissing_ok (g a)

/-- A step that checks the number and does nothing else that can fail. -/
theorem isRefusedFor_of_check {number : UInt8} (a : number.toNat < 16 → α) :
    IsRefusedFor number
      (if h : number.toNat < 16 then .ok (a h) else .error (.invalidIndex number)) := by
  intro f
  split
  · next h => exact ⟨nofun, fun hmissing => absurd hmissing.1 (Nat.not_le_of_lt h)⟩
  · next h =>
    rw [Except.error.injEq, eq_comm]
    exact ⟨fun hf => ⟨Nat.not_lt.1 h, hf⟩, And.right⟩

/-! ### Registers and keys -/

namespace Registers

/-- A register is read if it exists. -/
theorem get?_refused (r : Registers) (number : UInt8) : IsRefusedFor number (r.get? number) :=
  isRefusedFor_of_check _

/-- It is written if it exists. -/
theorem set?_refused (r : Registers) (number value : UInt8) :
    IsRefusedFor number (r.set? number value) :=
  isRefusedFor_of_check _

/-- The registers up to a last one are given if the last one exists. -/
theorem range?_refused (r : Registers) (last : UInt8) : IsRefusedFor last (r.range? last) :=
  isRefusedFor_of_check _

/-- An addition reads the register before it is written, so it is the read that is refused. -/
theorem add?_refused (r : Registers) (number value : UInt8) :
    IsRefusedFor number (r.add? number value) := by
  rw [add?]
  by_cases h : number.toNat < registerCount
  · rw [get?_of_lt h]
    exact r.set?_refused number _
  · have hget := r.get?_refused number
    rw [get?_of_not_lt h] at hget ⊢
    intro f
    rw [← hget f]
    exact ⟨fun hf => congrArg Except.error (Except.error.inj hf),
      fun hf => congrArg Except.error (Except.error.inj hf)⟩

end Registers

namespace Keypad

/-- A key can be reported to be down if it exists. -/
theorem keyDown?_refused (k : Keypad) (key : UInt8) : IsRefusedFor key (k.keyDown? key) :=
  isRefusedFor_of_check _

/-- A key can be reported to be up if it exists. -/
theorem keyUp?_refused (k : Keypad) (key : UInt8) : IsRefusedFor key (k.keyUp? key) :=
  isRefusedFor_of_check _

end Keypad

/-! ### Copies to the registers -/

namespace Registers

variable {r : Registers} {values : List UInt8}

/-- Up to sixteen bytes are copied over the first registers. -/
theorem load?_of_le (h : values.length ≤ 16) :
    r.load? values = .ok { r with data := overlay r.data 0 values } :=
  if_pos h

/-- More are refused, for a name that is made up from their number. -/
theorem load?_of_lt (h : 16 < values.length) :
    r.load? values = .error (.invalidIndex (UInt8.ofNat values.length - 1)) :=
  if_neg (Nat.not_le_of_lt h)

/-- The name that is made up for a number of bytes. -/
theorem toNat_ofNat_sub_one (n : Nat) : (UInt8.ofNat n - 1).toNat = (n + 255) % 256 := by
  rw [UInt8.toNat_sub, UInt8.toNat_ofNat']
  simp
  omega

/-- A copy of too many bytes is refused for a register that does not exist, unless their number is
1 to 16 more than a multiple of 256 that is not zero. -/
theorem namesMissing_load?_iff (r : Registers) (values : List UInt8) :
    NamesMissing (r.load? values) ↔
      ¬(256 < values.length ∧ 1 ≤ values.length % 256 ∧ values.length % 256 ≤ 16) := by
  rcases Nat.lt_or_ge 16 values.length with hmany | hfew
  · have hname := toNat_ofNat_sub_one values.length
    rw [load?_of_lt hmany]
    constructor
    · intro h
      have hlow := h _ rfl
      omega
    · intro h k hk
      rw [← Fault.invalidIndex.inj (Except.error.inj hk)]
      omega
  · rw [load?_of_le hfew]
    exact iff_of_true (namesMissing_ok _) (by omega)

end Registers

/-! ### Instructions -/

namespace Memory

/-- Memory does not refuse a read for a register. -/
theorem namesMissing_readRange? (memory : Memory) (start : Address) (length : Nat) :
    NamesMissing (memory.readRange? start length) := by
  rw [readRange?]
  split
  · exact namesMissing_ok _
  · exact namesMissing_error fun _ hf => by cases hf

/-- Nor does it refuse a write for one. -/
theorem namesMissing_writeRange? (memory : Memory) (start : Address) (bytes : List UInt8) :
    NamesMissing (memory.writeRange? start bytes) := by
  rw [writeRange?]
  split
  · exact namesMissing_ok _
  · exact namesMissing_error fun _ hf => by cases hf

end Memory

namespace Machine

variable {m : Machine}

/-- The registers of a machine, read. -/
theorem namesMissing_get? (m : Machine) (x : UInt8) : NamesMissing (m.registers.get? x) :=
  (m.registers.get?_refused x).namesMissing

/-- The registers of a machine, written. -/
theorem namesMissing_set? (m : Machine) (x value : UInt8) :
    NamesMissing (m.registers.set? x value) :=
  (m.registers.set?_refused x value).namesMissing

/-- A condition reads one register or two. -/
theorem namesMissing_holds? (m : Machine) (c : Condition) : NamesMissing (m.holds? c) := by
  cases c with
  | equalsByte x nn | differsByte x nn | pressed x | released x =>
    exact (m.namesMissing_get? x).map _
  | equals x y | differs x y =>
    exact (m.namesMissing_get? x).bind fun _ _ => (m.namesMissing_get? y).map _

/-- What an instruction reports, whatever its operands. -/
theorem namesMissing_effect? (m : Machine) (i : Instruction) : NamesMissing (m.effect? i) := by
  cases i with
  | clearScreen | jump target | setIndex target => exact namesMissing_ok _
  | ret =>
    refine NamesMissing.map ?_ _
    rw [Registers.pop?]
    split
    · exact namesMissing_error fun _ hf => by cases hf
    · exact namesMissing_ok _
  | call target =>
    refine NamesMissing.map ?_ _
    rw [Registers.push?]
    split
    · exact namesMissing_error fun _ hf => by cases hf
    · exact namesMissing_ok _
  | skipIf c => exact (m.namesMissing_holds? c).map _
  | setByte x nn | random x nn | readDelay x => exact (m.namesMissing_set? x _).map _
  | addByte x nn => exact (m.registers.add?_refused x nn).namesMissing.map _
  | copy x y =>
    exact (m.namesMissing_get? y).bind fun b _ => (m.namesMissing_set? x b).map _
  | combine o x y =>
    exact (m.namesMissing_get? x).bind fun _ _ => (m.namesMissing_get? y).bind fun _ _ =>
      (Registers.set?_refused _ x _).namesMissing.map _
  | jumpOffset base => exact (m.namesMissing_get? 0).map _
  | draw x y height =>
    exact (m.namesMissing_get? x).bind fun _ _ => (m.namesMissing_get? y).bind fun _ _ =>
      (m.memory.namesMissing_readRange? _ _).map _
  | awaitKey x | setDelay x | setSound x | addIndex x | pointGlyph x =>
    exact (m.namesMissing_get? x).map _
  | storeDecimal x =>
    exact (m.namesMissing_get? x).bind fun _ _ => (m.memory.namesMissing_writeRange? _ _).map _
  | storeRegisters x =>
    exact (m.registers.range?_refused x).namesMissing.bind fun _ _ =>
      (m.memory.namesMissing_writeRange? _ _).map _
  | loadRegisters x =>
    refine (m.memory.namesMissing_readRange? _ _).bind fun bytes hread => ?_
    -- at most 256 bytes have been read, as many as a byte can name registers
    have hlength : bytes.length = x.toNat + 1 := by
      rw [Memory.readRange?] at hread
      split at hread
      · rw [← Except.ok.inj hread, Memory.length_slice]
      · cases hread
    have hx := x.toNat_lt
    refine NamesMissing.map ((Registers.namesMissing_load?_iff _ bytes).2 ?_) _
    omega

/-- What an instruction reports is what is refused in its effect. -/
theorem namesMissing_execute (m : Machine) (i : Instruction) :
    NamesMissing (m.execute i).result := by
  have heffect := m.namesMissing_effect? i
  rw [execute_eq]
  cases heffect' : m.effect? i with
  | ok m' => exact namesMissing_ok ()
  | error f =>
    intro k hk
    exact heffect k (heffect'.trans (congrArg Except.error (Except.error.inj hk)))

/-- A refusal for a register, or for a key, names one that does not exist.

The operations on a single register or key, and the one that gives the registers up to a last one,
are refused if and only if the number that they are given is 16 or more, and then for this number.
An instruction, whatever its operands, is not refused for a register that exists. A copy of bytes
to the registers succeeds if and only if there are at most sixteen of them. It then overwrites as
many registers from the first on and leaves the rest, and when it is refused it leaves them all.
It is refused for a register that does not exist, unless the number of bytes is more than 256 and
at most 16 more than a multiple of 256. -/
theorem missing_register_named (m : Machine) :
    (∀ x value, IsRefusedFor x (m.registers.get? x) ∧
      IsRefusedFor x (m.registers.set? x value) ∧
      IsRefusedFor x (m.registers.add? x value) ∧
      IsRefusedFor x (m.registers.range? x)) ∧
    (∀ key, IsRefusedFor key (m.keypad.keyDown? key) ∧
      IsRefusedFor key (m.keypad.keyUp? key)) ∧
    (∀ i, NamesMissing (m.execute i).result) ∧
    ∀ values : List UInt8,
      (values.length ≤ 16 → ∃ data,
        Action.loadRegisters values m = .ok () (m.withRegisters { m.registers with data }) ∧
        ∀ i, (hi : i < registerCount) →
          data[i] = if h : i < values.length then values[i] else m.registers.data[i]) ∧
      (16 < values.length →
        ∃ k, Action.loadRegisters values m = .error (.invalidIndex k) m) ∧
      (¬256 ∣ values.length →
        (NamesMissing (m.registers.load? values) ↔
          ¬(256 < values.length ∧ values.length % 256 ≤ 16))) := by
  refine ⟨fun x value => ⟨m.registers.get?_refused x, m.registers.set?_refused x value,
    m.registers.add?_refused x value, m.registers.range?_refused x⟩,
    fun key => ⟨m.keypad.keyDown?_refused key, m.keypad.keyUp?_refused key⟩,
    m.namesMissing_execute, fun values => ⟨fun hfew => ?_, fun hmany => ?_, fun hrest => ?_⟩⟩
  · refine ⟨overlay m.registers.data 0 values, ?_, fun i hi => ?_⟩
    · rw [Action.loadRegisters, Action.write, Registers.load?_of_le hfew]
      rfl
    · rw [getElem_overlay]
      simp only [Nat.zero_le, true_and, Nat.sub_zero]
  · refine ⟨UInt8.ofNat values.length - 1, ?_⟩
    rw [Action.loadRegisters, Action.write, Registers.load?_of_lt hmany]
    rfl
  · rw [Registers.namesMissing_load?_iff]
    omega

/-- Two bytes are copied, seventeen are refused for register 16, which does not exist, and 257 are
refused for register 0. -/
theorem missing_register_named_withoutProgram :
    (∃ m, Action.loadRegisters [7, 8] withoutProgram = .ok () m ∧
      m.registers.get? 1 = .ok 8 ∧ m.registers.get? 2 = .ok 0) ∧
      NamesMissing (withoutProgram.registers.load? (List.replicate 17 1)) ∧
      (∃ k, Action.loadRegisters (List.replicate 257 1) withoutProgram =
        .error (.invalidIndex k) withoutProgram) ∧
      ¬NamesMissing (withoutProgram.registers.load? (List.replicate 257 1)) := by
  obtain ⟨-, -, -, hcopies⟩ := missing_register_named withoutProgram
  obtain ⟨data, hload, hdata⟩ := (hcopies [7, 8]).1 (by decide)
  obtain ⟨-, -, hseventeen⟩ := hcopies (List.replicate 17 1)
  obtain ⟨-, hrefused, hnames⟩ := hcopies (List.replicate 257 1)
  rw [List.length_replicate] at hseventeen hrefused hnames
  have hcopied : data[1] = 8 := hdata 1 (by decide)
  have hleft : data[2] = 0 := hdata 2 (by decide)
  exact ⟨⟨_, hload, congrArg Except.ok hcopied, congrArg Except.ok hleft⟩,
    (hseventeen (by decide)).2 (by decide), hrefused (by decide),
    fun h => (hnames (by decide)).1 h (by decide)⟩

/-- A copy of 257 bytes is refused for register 0, which exists. -/
theorem copy_names_present :
    ¬∀ (r : Registers) (values : List UInt8), ¬(values.length ≠ 0 ∧ 256 ∣ values.length) →
      NamesMissing (r.load? values) := by
  intro h
  have hlength : (List.replicate 257 (1 : UInt8)).length = 257 := List.length_replicate
  have hnames := h .powerOn (List.replicate 257 1) (by rw [hlength]; decide)
  rw [Registers.namesMissing_load?_iff, hlength] at hnames
  exact hnames (by decide)

end Machine

end Chip8
