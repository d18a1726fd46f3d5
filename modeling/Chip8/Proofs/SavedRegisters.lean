import Chip8.Proofs.MemoryMap
import Chip8.Proofs.RandomBytes

/-!
# Registers saved in memory

A program saves registers with `FX55` and gets them back with `FX65`. In between it may do what
it likes with the registers, as long as it leaves the saved bytes alone and points the index
register back at them. That it leaves them alone is certain if it writes nothing to memory, and
only two instructions do so. So memory is followed through everything that can be done with a
machine, and the two copies, from the registers and back to them, are put together at its ends.

## Main statements

* `Machine.memory_through`: a run that writes nothing to memory.
* `Machine.effect?_storeRegisters`, `Machine.effect?_loadRegisters`: the two copies.
* `Machine.saved_registers_restored`: registers are restored after any such run.
-/

namespace Chip8

/-- The instruction writes to memory. -/
def Instruction.WritesMemory : Instruction → Prop
  | .storeDecimal _ | .storeRegisters _ => True
  | _ => False

/-- The intervention writes to memory, not by way of an instruction. -/
def Intervention.SetsMemory : Intervention → Prop
  | .ask (.load _) | .ask .reset | .setMemory _ => True
  | _ => False

namespace Machine

variable {m m' : Machine} {i : Instruction} {a : Intervention} {acts : List Intervention}
  {x : UInt8} {bytes : List UInt8} {nanos : Nat}

/-! ### What leaves memory alone -/

/-- The other instructions leave memory as it is. -/
theorem memory_effect? (hi : ¬i.WritesMemory) (h : m.effect? i = .ok m') :
    m'.memory = m.memory := by
  cases effect?_touches h with
  | storeDecimal | storeRegisters => exact absurd trivial hi
  | _ => rfl

/-- A refused instruction leaves memory alone as well. -/
theorem memory_execute (hi : ¬i.WritesMemory) : (m.execute i).machine.memory = m.memory := by
  rw [execute_eq]
  cases heffect : m.effect? i with
  | ok m' => exact memory_effect? hi heffect
  | error f => cases i <;> rfl

/-- So does a cycle that executes one of them, or none. -/
theorem memory_cycle (hreads : ∀ i ∈ m.executed?, ¬i.WritesMemory) :
    m.cycle.machine.memory = m.memory := by
  cases m.cycleTurn with
  | executes hi => exact memory_effect? (hreads _ hi) (effect?_of_executed hi).1
  | fails _ hmachine => rw [hmachine]
  | stays hcycle | takes _ hcycle | loses hcycle => rw [hcycle]

/-- Ticks do not touch memory. -/
theorem memory_afterAll_ticks (m : Machine) (k : Nat) :
    (m.afterAll (.replicate k .tick)).memory = m.memory := by
  rw [afterAll_ticks_eq]

/-- The cycles of a slice of time that write nothing to memory. -/
theorem memory_slice (due : Due) (left ticked : Nat) (m : Machine) (log : Log)
    (hreads : ∀ i ∈ executedInSlice due left ticked m, ¬i.WritesMemory) :
    (slice due left ticked m log).machine.memory = m.memory := by
  induction left generalizing ticked m log with
  | zero =>
    rw [slice, ticks_eq]
    exact memory_afterAll_ticks _ _
  | succ left ih =>
    rw [executedInSlice, List.forall_mem_append] at hreads
    obtain ⟨hfirst, hrest⟩ := hreads
    have hcycle : m.cycle.machine.memory = m.memory :=
      memory_cycle fun i hi => hfirst i (Option.mem_toList.2 hi)
    by_cases hrun : m.cycle.result = .ok .running
    · rw [if_pos hrun] at hrest
      rw [slice_succ_of_running hrun, ih _ _ _ hrest, memory_afterAll_ticks, hcycle]
    · rw [slice_of_stop hrun]
      exact hcycle

/-- Time that goes by writes to memory only by the instructions that are executed in it. -/
theorem memory_advance (hreads : ∀ i ∈ m.executedIn (.ask (.advance nanos)), ¬i.WritesMemory) :
    (m.advance nanos).machine.memory = m.memory := by
  cases hquit : m.keypad.quit with
  | true =>
    rw [advance_of_quit hquit]
    rfl
  | false =>
    rw [executedIn, if_neg (ne_true_of_eq_false hquit)] at hreads
    rw [advance_of_not_quit hquit]
    exact memory_slice _ _ _ _ _ hreads

/-- A report about a key does not touch memory, refused or not. -/
theorem memory_reportKey (m : Machine) (k : Except Fault Keypad) :
    (m.reportKey k).memory = m.memory := by
  cases k <;> rfl

/-- What can be done with a machine without writing to memory. -/
theorem memory_intervene (ha : ¬a.SetsMemory) (hreads : ∀ i ∈ m.executedIn a, ¬i.WritesMemory) :
    (m.intervene a).machine.memory = m.memory := by
  cases a with
  | execute i => exact memory_execute (hreads i (List.mem_singleton_self i))
  | setMemory memory => exact absurd trivial ha
  | setRegisters registers | setKeypad keypad | setDelay delay | setSound sound => rfl
  | ask o =>
    rw [intervene]
    cases o with
    | load program | reset => exact absurd trivial ha
    | cycle => exact memory_cycle fun i hi => hreads i (Option.mem_toList.2 hi)
    | tick => rw [after, tick_eq]
    | advance nanos => exact memory_advance hreads
    | skip =>
      rw [after, skip]
      split <;> rfl
    | keyDown key | keyUp key => exact m.memory_reportKey _
    | halt | clearPending | requestQuit | releaseKeys => rfl

/-- A run that writes nothing to memory. -/
theorem memory_through (hacts : ∀ a ∈ acts, ¬a.SetsMemory)
    (hreads : ∀ i ∈ m.executedThrough acts, ¬i.WritesMemory) :
    (m.through acts).memory = m.memory := by
  induction acts generalizing m with
  | nil => rfl
  | cons a acts ih =>
    obtain ⟨ha, hacts⟩ := List.forall_mem_cons.1 hacts
    rw [executedThrough, List.forall_mem_append] at hreads
    obtain ⟨hfirst, hrest⟩ := hreads
    rw [through_cons, ih hacts hrest, memory_intervene ha hfirst]

/-! ### The two copies -/

/-- The bytes in registers 0 to `x`. -/
def firstBytes (m : Machine) (x : UInt8) : List UInt8 :=
  m.registers.data.toList.take (x.toNat + 1)

/-- There is a register `x`, and there are cells for the registers up to it. -/
def CanSave (m : Machine) (x : UInt8) : Prop :=
  x.toNat < registerCount ∧ Memory.InBounds m.registers.index (x.toNat + 1)

/-- There are `x + 1` of them, register 0 included. -/
theorem length_firstBytes (m : Machine) (hx : x.toNat < registerCount) :
    (m.firstBytes x).length = x.toNat + 1 := by
  rw [firstBytes, List.length_take, Vector.length_toList]
  exact Nat.min_eq_left hx

/-- `FX55` copies the registers to memory. -/
theorem effect?_storeRegisters (h : m.CanSave x) :
    m.effect? (.storeRegisters x) =
      .ok ({ m with
        memory := ⟨overlay m.memory.cells m.registers.index.toNat (m.firstBytes x)⟩ }.follow
          .next) := by
  obtain ⟨hx, hin⟩ := h
  have hrange : m.registers.range? x = .ok (m.firstBytes x) := if_pos hx
  rw [← m.length_firstBytes hx] at hin
  rw [effect?, hrange, ok_bind, Memory.writeRange?, if_pos hin]
  rfl

/-- `FX65` copies them back, if the bytes can be read. -/
theorem effect?_loadRegisters (hx : x.toNat < registerCount)
    (hread : m.memory.readRange? m.registers.index (x.toNat + 1) = .ok bytes) :
    m.effect? (.loadRegisters x) =
      .ok ((m.withRegisters
        { m.registers with data := overlay m.registers.data 0 bytes }).follow .next) := by
  obtain ⟨hlength, -⟩ := Memory.getElem?_of_readRange? hread
  have hfits : bytes.length ≤ registerCount := hlength ▸ hx
  rw [effect?, hread, ok_bind, Registers.load?, if_pos hfits]
  rfl

/-- Without room, `FX55` is refused. -/
theorem canSave_of_storeRegisters (h : m.effect? (.storeRegisters x) = .ok m') :
    m.CanSave x := by
  obtain ⟨bytes, hrange, h⟩ := bind_eq_ok_iff.1 h
  obtain ⟨memory, hwrite, -⟩ := bind_eq_ok_iff.1 h
  rw [Registers.range?] at hrange
  split at hrange
  · next hx =>
    obtain rfl := Except.ok.inj hrange
    rw [Memory.writeRange?] at hwrite
    split at hwrite
    · next hin => exact ⟨hx, m.length_firstBytes hx ▸ hin⟩
    · cases hwrite
  · cases hrange

/-- So is `FX65`, by the registers where memory does not refuse it. -/
theorem canSave_of_loadRegisters (h : m.effect? (.loadRegisters x) = .ok m') :
    m.CanSave x := by
  obtain ⟨bytes, hread, h⟩ := bind_eq_ok_iff.1 h
  obtain ⟨registers, hload, -⟩ := bind_eq_ok_iff.1 h
  obtain ⟨hlength, -⟩ := Memory.getElem?_of_readRange? hread
  rw [Registers.load?] at hload
  split at hload
  · next hfits =>
    rw [hlength] at hfits
    exact ⟨hfits, Memory.readRange?_eq_ok_iff.1 ⟨bytes, hread⟩⟩
  · cases hload

/-- If there is no such register or no room, both copies are refused, and nothing has been
changed. -/
theorem execute_of_not_canSave (h : ¬m.CanSave x) :
    (m.execute (.storeRegisters x)).machine = m ∧
      (m.execute (.loadRegisters x)).machine = m := by
  constructor
  · rw [execute_eq]
    cases heffect : m.effect? (.storeRegisters x) with
    | ok m' => exact absurd (canSave_of_storeRegisters heffect) h
    | error f => rfl
  · rw [execute_eq]
    cases heffect : m.effect? (.loadRegisters x) with
    | ok m' => exact absurd (canSave_of_loadRegisters heffect) h
    | error f => rfl

/-- `FX55` writes the cells from the index register on, one for each register, and no others. -/
theorem cells_storeRegisters (m : Machine) (x : UInt8) {c : Nat}
    (hc : c < m.registers.index.toNat ∨ m.registers.index.toNat + x.toNat < c) :
    (m.execute (.storeRegisters x)).machine.memory.cells[c]? = m.memory.cells[c]? := by
  by_cases h : m.CanSave x
  · by_cases hlt : c < memorySize
    · rw [execute_eq, effect?_storeRegisters h]
      change (overlay _ _ _)[c]? = _
      rw [Vector.getElem?_eq_getElem hlt, Vector.getElem?_eq_getElem hlt]
      rcases hc with hbelow | habove
      · rw [getElem_overlay_of_lt _ _ _ hbelow]
      · rw [getElem_overlay_of_ge _ _ _ (by rw [m.length_firstBytes h.1]; exact habove)]
    · rw [Vector.getElem?_eq_none (Nat.not_lt.1 hlt), Vector.getElem?_eq_none (Nat.not_lt.1 hlt)]
  · rw [(execute_of_not_canSave h).1]

/-! ### Saving and restoring -/

/-- Bytes that are laid over the first registers are the first registers. -/
theorem take_overlay (v : Vector UInt8 registerCount) (h : bytes.length ≤ registerCount) :
    (overlay v 0 bytes).toList.take bytes.length = bytes := by
  refine List.ext_getElem ?_ fun k hk hk' => ?_
  · rw [List.length_take, Vector.length_toList]
    exact Nat.min_eq_left h
  · rw [List.getElem_take, Vector.getElem_toList, getElem_overlay]
    simp [hk']

/-- The first registers of the one machine are laid over the registers of the other. -/
theorem getElem?_overlay_firstBytes (m : Machine) (v : Vector UInt8 registerCount)
    (hx : x.toNat < registerCount) (k : Nat) :
    (overlay v 0 (m.firstBytes x))[k]? =
      if k ≤ x.toNat then m.registers.data[k]? else v[k]? := by
  by_cases hk : k < registerCount
  · simp only [Vector.getElem?_eq_getElem hk, getElem_overlay, m.length_firstBytes hx]
    by_cases hle : k ≤ x.toNat
    · simp [hle, Nat.lt_succ_of_le hle, firstBytes]
    · simp [hle, mt Nat.le_of_lt_succ hle]
  · have hout := Nat.not_lt.1 hk
    rw [Vector.getElem?_eq_none hout, Vector.getElem?_eq_none hout,
      Vector.getElem?_eq_none hout, ite_self]

/-- A register is read from its own byte. -/
theorem get?_congr {r r' : Registers} (h : r.data[x.toNat]? = r'.data[x.toNat]?) :
    r.get? x = r'.get? x := by
  by_cases hx : x.toNat < registerCount
  · rw [Vector.getElem?_eq_getElem hx, Vector.getElem?_eq_getElem hx] at h
    rw [Registers.get?_of_lt hx, Registers.get?_of_lt hx, Option.some.inj h]
  · rw [Registers.get?_of_not_lt hx, Registers.get?_of_not_lt hx]

/-- What `FX55` has written can be read. -/
theorem readRange?_storeRegisters (h : m.CanSave x) :
    (m.execute (.storeRegisters x)).result = .ok () ∧
      (m.execute (.storeRegisters x)).machine.memory.readRange? m.registers.index
        (x.toNat + 1) = .ok (m.firstBytes x) := by
  have hin : Memory.InBounds m.registers.index (m.firstBytes x).length := by
    rw [m.length_firstBytes h.1]
    exact h.2
  have hread := Memory.readRange?_overlay (m := m.memory) hin
  rw [m.length_firstBytes h.1] at hread
  rw [execute_eq, effect?_storeRegisters h]
  exact ⟨rfl, hread⟩

/-- Where the registers of a machine are read, they are restored. -/
theorem restores_of_readRange? {n : Machine} (hx : x.toNat < registerCount)
    (hread : n.memory.readRange? n.registers.index (x.toNat + 1) = .ok (m.firstBytes x)) :
    (n.execute (.loadRegisters x)).result = .ok () ∧
      (∀ k ≤ x, (n.execute (.loadRegisters x)).machine.registers.get? k = m.registers.get? k) ∧
      (∀ k > x, (n.execute (.loadRegisters x)).machine.registers.get? k = n.registers.get? k) ∧
      (n.execute (.loadRegisters x)).machine =
        { n with
          registers :=
            { n.registers with
              data := (n.execute (.loadRegisters x)).machine.registers.data
              pc := n.registers.pc + 2 } } := by
  rw [execute_eq, effect?_loadRegisters hx hread]
  refine ⟨rfl, fun k hk => get?_congr ?_, fun k hk => get?_congr ?_, rfl⟩
  · refine (getElem?_overlay_firstBytes m _ hx _).trans (if_pos ?_)
    exact UInt8.le_iff_toNat_le.1 hk
  · refine (getElem?_overlay_firstBytes m _ hx _).trans (if_neg ?_)
    exact Nat.not_le.2 (UInt8.lt_iff_toNat_lt.1 hk)

/-- Copying bytes to the registers and back writes them where they are. -/
theorem load_store (h : m.CanSave x) :
    (m.execute (.loadRegisters x)).result = .ok () ∧
      ((m.execute (.loadRegisters x)).machine.execute (.storeRegisters x)).result = .ok () ∧
      ((m.execute (.loadRegisters x)).machine.execute (.storeRegisters x)).machine.memory =
        m.memory := by
  obtain ⟨bytes, hread⟩ := (Memory.readRange?_eq_ok_iff (m := m.memory)).2 h.2
  obtain ⟨hlength, -⟩ := Memory.getElem?_of_readRange? hread
  have hfits : bytes.length ≤ registerCount := hlength ▸ h.1
  obtain ⟨n, hload, hn⟩ : ∃ n, m.effect? (.loadRegisters x) = .ok n ∧
      n = (m.withRegisters { m.registers with
        data := overlay m.registers.data 0 bytes }).follow .next :=
    ⟨_, effect?_loadRegisters h.1 hread, rfl⟩
  have hsave : n.CanSave x := hn ▸ h
  have hfirst : n.firstBytes x = bytes := by
    rw [firstBytes, ← hlength, hn]
    exact take_overlay m.registers.data hfits
  have hback : overlay m.memory.cells m.registers.index.toNat bytes = m.memory.cells := by
    have hwrite := Memory.writeRange?_of_readRange? hread
    rw [Memory.writeRange?, if_pos (hlength ▸ h.2)] at hwrite
    exact congrArg Memory.cells (Except.ok.inj hwrite)
  have hmemory : n.memory = m.memory := hn ▸ rfl
  have hindex : n.registers.index = m.registers.index := hn ▸ rfl
  rw [m.execute_eq, hload]
  change _ ∧ (n.execute _).result = _ ∧ (n.execute _).machine.memory = _
  rw [execute_eq, effect?_storeRegisters hsave, hfirst, hmemory, hindex, hback]
  exact ⟨rfl, rfl, rfl⟩

/-- **Saved registers are restored.** `FX55` writes to the cells from the index register on, one
for each register up to `x`, and to no others, and `FX65` followed by `FX55` leaves memory as it
is.

If `x` is a register and the cells are in memory, neither is refused. In between, anything may
be done with the machine that does not write to memory: if the index register ends up where it
was, `FX65` brings back the bytes that registers 0 to `x` had when they were saved, and except
for the program counter nothing else changes. -/
theorem saved_registers_restored (m : Machine) (x : UInt8) :
    (∀ c, c < m.registers.index.toNat ∨ m.registers.index.toNat + x.toNat < c →
      (m.execute (.storeRegisters x)).machine.memory.cells[c]? = m.memory.cells[c]?) ∧
    ((m.execute (.loadRegisters x)).machine.execute (.storeRegisters x)).machine.memory =
      m.memory ∧
    (x ≤ 15 → m.registers.index.toNat + x.toNat + 1 ≤ 4096 →
      (m.execute (.storeRegisters x)).result = .ok () ∧
      (m.execute (.loadRegisters x)).result = .ok () ∧
      ((m.execute (.loadRegisters x)).machine.execute (.storeRegisters x)).result = .ok () ∧
      ∀ acts : List Intervention,
        let saved := (m.execute (.storeRegisters x)).machine
        let n := saved.through acts
        let restored := (n.execute (.loadRegisters x)).machine
        (∀ a ∈ acts, ¬a.SetsMemory) →
        (∀ i ∈ saved.executedThrough acts, ¬i.WritesMemory) →
        n.registers.index = m.registers.index →
        (n.execute (.loadRegisters x)).result = .ok () ∧
        (∀ k ≤ x, restored.registers.get? k = m.registers.get? k) ∧
        (∀ k > x, restored.registers.get? k = n.registers.get? k) ∧
        restored =
          { n with
            registers :=
              { n.registers with
                data := restored.registers.data
                pc := n.registers.pc + 2 } }) := by
  refine ⟨fun c hc => cells_storeRegisters m x hc, ?_, fun hx hroom => ?_⟩
  · by_cases h : m.CanSave x
    · exact (load_store h).2.2
    · obtain ⟨hstore, hload⟩ := execute_of_not_canSave h
      rw [hload, hstore]
  · have h : m.CanSave x := ⟨Nat.lt_succ_of_le (UInt8.le_iff_toNat_le.1 hx), hroom⟩
    obtain ⟨hstored, hread⟩ := readRange?_storeRegisters h
    obtain ⟨hloaded, hstored', -⟩ := load_store h
    refine ⟨hstored, hloaded, hstored', ?_⟩
    intro acts saved n restored hacts hreads hindex
    -- the bytes are still there, since the run has left memory alone
    rw [← memory_through hacts hreads, ← hindex] at hread
    exact restores_of_readRange? h.1 hread

/-- A machine with something in its first registers. -/
def withBytes : Machine :=
  (powerOn (.start 700 60) .zeros).withRegisters
    { Registers.powerOn with
      data := (Vector.replicate 16 0).set 0 7 |>.set 1 8
      index := 0xFFE }

/-- Both registers are saved at the end of memory, and one of them is overwritten, as is the index
register. When that points back to the end, an instruction executes that is refused. -/
theorem saved_registers_restored_overwritten :
    let acts : List Intervention := [.execute (.setByte 1 0), .execute (.setIndex 0),
      .execute (.setByte 2 9), .execute (.setIndex 0xFFE), .execute .ret]
    let n := (withBytes.execute (.storeRegisters 1)).machine.through acts
    let restored := (n.execute (.loadRegisters 1)).machine
    n.registers.get? 1 = .ok 0 ∧ restored.registers.get? 0 = .ok 7 ∧
      restored.registers.get? 1 = .ok 8 ∧ restored.registers.get? 2 = .ok 9 := by
  intro acts n restored
  obtain ⟨-, -, hrestored⟩ := saved_registers_restored withBytes 1
  obtain ⟨-, -, -, hrun⟩ := hrestored (by decide) (by decide)
  have hacts : ∀ a ∈ acts, ¬a.SetsMemory := by
    simp [acts, Intervention.SetsMemory]
  have hreads : ∀ i ∈ (withBytes.execute (.storeRegisters 1)).machine.executedThrough acts,
      ¬i.WritesMemory := by
    simp [acts, executedThrough, executedIn, Instruction.WritesMemory]
  obtain ⟨-, hfirst, hrest, -⟩ := hrun acts hacts hreads rfl
  exact ⟨rfl, hfirst 0 (by decide), hfirst 1 (by decide), hrest 2 (by decide)⟩

end Machine

end Chip8
