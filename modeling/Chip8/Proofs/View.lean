import Chip8.Machine.Basic
import Mathlib.Data.List.Basic
import Mathlib.Data.Option.Basic

/-!
# The machine in plain numbers

`View` is the state of a machine without bytes and words: registers, cells and pixels
are functions, addresses and counts are natural numbers, and nothing wraps. It is the
language in which the instruction set is written down in `Chip8.Proofs.Table`, so that
the table owes nothing to the way in which the machine is stored.

## Main statements

* `Machine.view_injective`: no two machines look the same, so a statement about the view
  after an instruction is a statement about the whole machine.
* `Registers.value_set`, `Memory.value_overlay` and their neighbours: what writes do to
  the view.
-/

open Function (update update_of_ne)

namespace Chip8

/-- The state of a machine in plain numbers. Registers and cells that do not exist are
zero, and pixels wrap at the edges. -/
@[ext]
structure View where
  /-- The data registers. -/
  v : Nat → Nat
  /-- The index register. -/
  i : Nat
  pc : Nat
  /-- The return addresses of the open calls, innermost first. -/
  stack : List Nat
  /-- The cells of memory. -/
  cell : Nat → Nat
  /-- The pixels, by column and row. -/
  pixel : Nat → Nat → Bool
  /-- The keys that are held. -/
  held : Nat → Bool
  pending : Option Nat
  quit : Bool
  delay : Nat
  sound : Nat
  state : RunState
  fault : Option Fault
  pacer : Pacer
  random : ByteStream
  program : List UInt8

/-! ### Views of the parts -/

/-- The number in a data register. -/
def Registers.value (r : Registers) (k : Nat) : Nat :=
  (r.data[k]?.getD 0).toNat

/-- The number in a cell. -/
def Memory.value (m : Memory) (a : Nat) : Nat :=
  (m.cells[a]?.getD 0).toNat

/-- Whether the key with a number is held. -/
def Keypad.value (k : Keypad) (key : Nat) : Bool :=
  k.held[key]?.getD false

/-- The machine in plain numbers. -/
def Machine.view (m : Machine) : View where
  v := m.registers.value
  i := m.registers.index.toNat
  pc := m.registers.pc.toNat
  stack := m.registers.stack.map UInt16.toNat
  cell := m.memory.value
  pixel := m.grid.pixel
  held := m.keypad.value
  pending := m.keypad.pending.map UInt8.toNat
  quit := m.keypad.quit
  delay := m.delay.count.toNat
  sound := m.sound.count.toNat
  state := m.state
  fault := m.fault
  pacer := m.pacer
  random := m.random
  program := m.program

/-! ### What writes do to the view -/

namespace Registers

/-- The number in a register that exists is the byte that is in it. -/
theorem value_of_lt (r : Registers) {x : UInt8} (hx : x.toNat < registerCount) :
    r.value x.toNat = r.data[x.toNat].toNat := by
  rw [value, Vector.getElem?_eq_getElem hx, Option.getD_some]

/-- A write to a register changes the number in that register alone. -/
theorem value_set (r : Registers) {k : Nat} (hk : k < registerCount) (b : UInt8) :
    ({ r with data := r.data.set k b hk } : Registers).value = update r.value k b.toNat := by
  funext j
  by_cases h : j = k
  · subst h
    simp [value]
  · rw [update_of_ne h]
    simp [value, Vector.getElem?_set_ne hk (Ne.symm h)]

/-- The flag is register `F`, as one or zero. -/
theorem value_setFlag (r : Registers) (c : Bool) :
    (r.setFlag c).value = update r.value 0xF (if c then 1 else 0) := by
  rw [setFlag, value_set]
  congr 1
  cases c <;> rfl

/-- Registers under loaded values hold these, the others what they held before. -/
theorem value_overlay (r : Registers) (bytes : List UInt8) (h : bytes.length ≤ registerCount)
    (k : Nat) :
    ({ r with data := overlay r.data 0 bytes } : Registers).value k =
      if k < bytes.length then (bytes[k]?.getD 0).toNat else r.value k := by
  by_cases hk : k < registerCount
  · simp only [value, Vector.getElem?_eq_getElem hk, getElem_overlay, Option.getD_some]
    by_cases hin : k < bytes.length
    · simp [hin]
    · simp [hin]
  · have hout : ¬k < bytes.length := fun hlt => hk (Nat.lt_of_lt_of_le hlt h)
    simp [value, hk, hout]

end Registers

namespace Memory

/-- A cell that exists is shown as its byte. -/
theorem value_of_lt (m : Memory) {a : Nat} (ha : a < memorySize) :
    m.value a = m.cells[a].toNat := by
  rw [value, Vector.getElem?_eq_getElem ha, Option.getD_some]

/-- Cells under written bytes hold these, the others what they held before. -/
theorem value_overlay (m : Memory) (start : Nat) (bytes : List UInt8)
    (h : start + bytes.length ≤ memorySize) (a : Nat) :
    (⟨overlay m.cells start bytes⟩ : Memory).value a =
      if start ≤ a ∧ a - start < bytes.length then (bytes[a - start]?.getD 0).toNat
      else m.value a := by
  by_cases ha : a < memorySize
  · simp only [value, Vector.getElem?_eq_getElem ha, getElem_overlay, Option.getD_some]
    by_cases hin : start ≤ a ∧ a - start < bytes.length
    · simp [hin]
    · simp [hin]
  · have hout : ¬(start ≤ a ∧ a - start < bytes.length) := by omega
    simp [value, ha, hout]

/-- The bytes of a span are the numbers in its cells. -/
theorem value_slice (m : Memory) {start : Address} {length : Nat} (h : InBounds start length)
    {k : Nat} (hk : k < length) :
    ((m.slice start length h)[k]?.getD 0).toNat = m.value (start.toNat + k) := by
  rw [getElem?_slice m start length h hk, value]

end Memory

/-! ### The view is faithful -/

/-- A row is known by its items, each at least a default. -/
theorem vector_ext_getD {α : Type} {n : Nat} {u v : Vector α n} (d : α)
    (h : ∀ k : Nat, u[k]?.getD d = v[k]?.getD d) : u = v := by
  refine Vector.ext fun k hk => ?_
  simpa [hk] using h k

/-- Registers with the same numbers in them hold the same bytes. -/
theorem Registers.data_eq_of_value {r r' : Registers} (h : r.value = r'.value) :
    r.data = r'.data :=
  vector_ext_getD 0 fun k => UInt8.toNat_inj.1 (congrFun h k)

/-- So it is with the cells of memory. -/
theorem Memory.eq_of_value {m m' : Memory} (h : m.value = m'.value) : m = m' := by
  obtain ⟨cells⟩ := m
  obtain ⟨cells'⟩ := m'
  congr 1
  exact vector_ext_getD 0 fun a => UInt8.toNat_inj.1 (congrFun h a)

/-- Pictures with the same pixels are the same picture. -/
theorem Grid.eq_of_pixel {g g' : Grid} (h : g.pixel = g'.pixel) : g = g' :=
  Grid.ext_pixel fun x _ y _ => congrFun (congrFun h x) y

/-- Keypads that answer the same about all keys hold the same keys. -/
theorem Keypad.held_eq_of_value {k k' : Keypad} (h : k.value = k'.value) : k.held = k'.held :=
  vector_ext_getD false (congrFun h)

/-- No two machines look the same. -/
theorem Machine.view_injective : Function.Injective Machine.view := by
  intro m m' h
  obtain ⟨memory, ⟨data, index, pc, stack⟩, grid, ⟨held, pending, quit⟩, ⟨delay⟩, ⟨sound⟩,
    state, fault, pacer, random, program⟩ := m
  obtain ⟨memory', ⟨data', index', pc', stack'⟩, grid', ⟨held', pending', quit'⟩, ⟨delay'⟩,
    ⟨sound'⟩, state', fault', pacer', random', program'⟩ := m'
  simp only [Machine.view, View.mk.injEq] at h
  obtain ⟨hdata, hindex, hpc, hstack, hmemory, hgrid, hheld, hpending, rfl, hdelay, hsound,
    rfl, rfl, rfl, rfl, rfl⟩ := h
  obtain rfl := UInt16.toNat_inj.1 hindex
  obtain rfl := UInt16.toNat_inj.1 hpc
  obtain rfl := UInt8.toNat_inj.1 hdelay
  obtain rfl := UInt8.toNat_inj.1 hsound
  obtain rfl := List.map_injective_iff.2 (fun _ _ => UInt16.toNat_inj.1) hstack
  obtain rfl := Option.map_injective (fun _ _ => UInt8.toNat_inj.1) hpending
  obtain rfl := Registers.data_eq_of_value hdata
  obtain rfl := Memory.eq_of_value hmemory
  obtain rfl := Grid.eq_of_pixel hgrid
  obtain rfl := Keypad.held_eq_of_value hheld
  rfl

end Chip8
