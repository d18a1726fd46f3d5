import Chip8.Proofs.RandomBytes

/-!
# Starting over

A machine that is started over is as good as new. Whatever has been done with it, what comes
of a reset is the machine that is switched on with the same settings and given one program:
the one that was loaded last with success. Only the random bytes go on from where they were,
so that every later run that does not execute `CXNN` is the same on both.

A reset takes the rates of the machine from its pacer and the program from its memory of what
was loaded. So what has to be shown is that nothing that is done with a machine touches these
two, except a load, and that a program that was loaded once can be loaded again.

## Main statements

* `Machine.restartsAs_intervene`: nothing but a load that succeeds has an influence on where
  a reset leads.
* `Machine.program_through`: the machine remembers the program that was loaded last.
* `Machine.reset_is_powerOn`: what a reset leads to.
-/

namespace Chip8

/-- To forget what is left over twice is to forget it once. -/
theorem Pacer.restart_restart (p : Pacer) : p.restart.restart = p.restart := rfl

namespace Machine

variable {m n l : Machine} {a : Intervention} {acts : List Intervention}
  {program : List UInt8}

/-! ### Loading -/

/-- A load that is refused changes nothing. -/
theorem load_of_not_fits (h : ¬program.length ≤ programLimit) :
    m.load program = ⟨.error (.programTooLarge program.length programLimit), m, #[]⟩ := by
  rw [load, Memory.load?, if_neg h]

/-- A load fails for no other reason than that the program is too large. -/
theorem not_fits_of_error {f : Fault} (h : (m.load program).result = .error f) :
    ¬program.length ≤ programLimit := by
  intro hfits
  rw [load_of_fits hfits] at h
  cases h

/-- The program that an intervention loads with success, if it does. -/
def loadedBy (m : Machine) : Intervention → Option (List UInt8)
  | .ask (.load program) => (m.load program).result.toOption.map fun _ => program
  | _ => none

/-- The programs that are loaded with success, in order. -/
def loaded : Machine → List Intervention → List (List UInt8)
  | _, [] => []
  | m, a :: rest => (m.loadedBy a).toList ++ (m.intervene a).machine.loaded rest

/-- The program that is loaded last with success; empty if there is none. -/
def lastLoaded (m : Machine) (acts : List Intervention) : List UInt8 :=
  (m.loaded acts).getLastD []

/-! ### Where a reset leads -/

/-- A reset of the one machine leads to where a reset of the other does, but for the random
bytes. -/
structure RestartsAs (m n : Machine) : Prop where
  program : n.program = m.program
  pacer : n.pacer.restart = m.pacer.restart

/-- What leads to the same restart in two steps does so in one. -/
theorem RestartsAs.trans (h : m.RestartsAs n) (h' : n.RestartsAs l) : m.RestartsAs l :=
  ⟨h'.program.trans h.program, h'.pacer.trans h.pacer⟩

/-- A cycle writes neither the program that is remembered nor the rates. -/
theorem restartsAs_cycle (m : Machine) : m.RestartsAs m.cycle.machine := by
  cases m.cycleTurn with
  | executes hi =>
    obtain ⟨hkeeps, -⟩ := effect?_keeps (effect?_of_executed hi).1
    exact ⟨hkeeps.program, congrArg Pacer.restart hkeeps.pacer⟩
  | fails _ hmachine =>
    rw [hmachine]
    exact ⟨rfl, rfl⟩
  | stays hcycle | takes _ hcycle | loses hcycle =>
    rw [hcycle]
    exact ⟨rfl, rfl⟩

/-- Neither does a tick. -/
theorem restartsAs_tick (m : Machine) : m.RestartsAs m.tick := by
  rw [tick]
  split <;> exact ⟨rfl, rfl⟩

/-- Neither does a report about a key. -/
theorem restartsAs_reportKey (m : Machine) (k : Except Fault Keypad) :
    m.RestartsAs (m.reportKey k) := by
  cases k <;> exact ⟨rfl, rfl⟩

/-- A slice of time moves what is left over of the rates, which a reset forgets. -/
theorem restartsAs_advance (m : Machine) (nanos : Nat) :
    m.RestartsAs (m.advance nanos).machine := by
  refine advance_preserves (P := m.RestartsAs) ?_ ?_ ?_ ?_ nanos ⟨rfl, rfl⟩
  · exact fun n h => h.trans ⟨rfl, rfl⟩
  · exact fun n nanos h => h.trans ⟨rfl, rfl⟩
  · exact fun n h => h.trans n.restartsAs_cycle
  · exact fun n h => h.trans n.restartsAs_tick

/-- A program that was loaded once can be loaded again. -/
theorem reset_of_fits (h : m.program.length ≤ programLimit) :
    m.reset.result = .ok () ∧ m.RestartsAs m.reset.machine := by
  rw [reset_eq, Outcome.result_after, Outcome.machine_after, load_of_fits h]
  exact ⟨rfl, rfl, m.pacer.restart_restart⟩

/-- What a reset leaves behind, component by component: a machine that is switched on, which
remembers the program and has it in memory. -/
theorem reset_machine (h : m.program.length ≤ programLimit) :
    m.reset.machine =
      { powerOn m.pacer.restart m.random with
        memory := ⟨overlay Memory.powerOn.cells programStart.toNat m.program⟩
        program := m.program } := by
  rw [reset_eq, Outcome.machine_after, load_of_fits h]
  rfl

/-- From the start of the program on the cells hold the program. -/
theorem cell_reset (h : m.program.length ≤ programLimit) {k : Nat} (hk : k < m.program.length) :
    m.reset.machine.memory.cells[0x200 + k]? = some m.program[k] := by
  have hin : 0x200 + k < memorySize := by
    have hlimit : 0x200 + programLimit = memorySize := by decide
    omega
  have hstart : programStart.toNat = 0x200 := rfl
  rw [reset_machine h, Vector.getElem?_eq_getElem hin, getElem_overlay]
  simp [hstart, hk]

/-- All other cells are as they were when the machine was switched on. -/
theorem cell_reset_outside (h : m.program.length ≤ programLimit) {a : Nat} (ha : a < memorySize)
    (houtside : a < 0x200 ∨ 0x200 + m.program.length ≤ a) :
    m.reset.machine.memory.cells[a]? = some (Memory.powerOnByte a) := by
  have hkept : (overlay Memory.powerOn.cells programStart.toNat m.program)[a] =
      Memory.powerOn.cells[a] := by
    rcases houtside with hbelow | habove
    · exact getElem_overlay_of_lt _ _ ha hbelow
    · exact getElem_overlay_of_ge _ _ ha habove
  rw [reset_machine h, Vector.getElem?_eq_getElem ha, hkept, Memory.powerOn,
    Vector.getElem_ofFn]

/-- With other random bytes, the machine after a reset is another machine that is switched on
and loads the program. -/
theorem reset_withRandom_eq (m : Machine) (r : ByteStream) :
    m.reset.machine.withRandom r = ((powerOn m.pacer.restart r).load m.program).machine := by
  rw [← powerOn_withRandom _ m.random r, load_withRandom]
  rfl

/-- A reset takes no random byte. -/
theorem reset_withRandom_self (m : Machine) :
    m.reset.machine.withRandom m.random = m.reset.machine := by
  rw [reset_withRandom_eq, reset_eq, Outcome.machine_after]

/-- A second reset comes to the same as the first. -/
theorem reset_reset (h : m.program.length ≤ programLimit) : m.reset.machine.reset = m.reset := by
  obtain ⟨-, hrestarts⟩ := reset_of_fits h
  have hrandom : m.reset.machine.random = m.random := by
    rw [← reset_withRandom_self, random_withRandom]
  rw [reset_eq, hrestarts.pacer, hrestarts.program, hrandom, reset_eq]

/-- Nothing but a load that succeeds has an influence on where a reset leads. -/
theorem restartsAs_intervene (hfits : m.program.length ≤ programLimit)
    (h : m.loadedBy a = none) : m.RestartsAs (m.intervene a).machine := by
  cases a with
  | execute i =>
    obtain ⟨hkeeps, -⟩ := m.execute_keeps i
    exact ⟨hkeeps.program, congrArg Pacer.restart hkeeps.pacer⟩
  | setMemory memory | setRegisters registers | setKeypad keypad | setDelay delay
  | setSound sound => exact ⟨rfl, rfl⟩
  | ask o =>
    rw [intervene]
    cases o with
    | cycle => exact m.restartsAs_cycle
    | tick => exact m.restartsAs_tick
    | advance nanos => exact m.restartsAs_advance nanos
    | reset => exact (reset_of_fits hfits).2
    | load program =>
      by_cases hload : program.length ≤ programLimit
      · rw [loadedBy, load_of_fits hload] at h
        cases h
      · rw [after, load_of_not_fits hload]
        exact ⟨rfl, rfl⟩
    | skip =>
      rw [after, skip]
      split <;> exact ⟨rfl, rfl⟩
    | keyDown key | keyUp key => exact m.restartsAs_reportKey _
    | halt | clearPending | requestQuit | releaseKeys => exact ⟨rfl, rfl⟩

/-- A load that succeeds is remembered. -/
theorem intervene_of_loadedBy (h : m.loadedBy a = some program) :
    program.length ≤ programLimit ∧ (m.intervene a).machine.program = program ∧
      (m.intervene a).machine.pacer = m.pacer := by
  cases a with
  | ask o =>
    cases o with
    | load program' =>
      by_cases hload : program'.length ≤ programLimit
      · rw [loadedBy, load_of_fits hload] at h
        obtain rfl := Option.some.inj h
        rw [intervene, after, load_of_fits hload]
        exact ⟨hload, rfl, rfl⟩
      · rw [loadedBy, load_of_not_fits hload] at h
        cases h
    | _ => cases h
  | _ => cases h

/-! ### Runs -/

/-- The programs that a run loads are those of its parts, one after the other. -/
theorem loaded_append (m : Machine) (acts acts' : List Intervention) :
    m.loaded (acts ++ acts') = m.loaded acts ++ (m.through acts).loaded acts' := by
  induction acts generalizing m with
  | nil => rfl
  | cons a acts ih => simp [loaded, ih]

/-- A load that is refused does not count. -/
theorem lastLoaded_of_not_fits (h : ¬program.length ≤ programLimit) :
    m.lastLoaded (acts ++ [.ask (.load program)]) = m.lastLoaded acts := by
  have hnone : ∀ n : Machine, n.loaded [.ask (.load program)] = [] := by
    intro n
    rw [loaded, loaded, loadedBy, load_of_not_fits h]
    rfl
  rw [lastLoaded, loaded_append, hnone, List.append_nil, lastLoaded]

/-- The machine remembers the program that was loaded last, and it keeps its rates. -/
theorem program_through (acts : List Intervention) (hfits : m.program.length ≤ programLimit) :
    let n := m.through acts
    n.program = (m.loaded acts).getLastD m.program ∧ n.program.length ≤ programLimit ∧
      n.pacer.restart = m.pacer.restart := by
  induction acts generalizing m with
  | nil => exact ⟨rfl, hfits, rfl⟩
  | cons a acts ih =>
    rw [through_cons, loaded]
    cases hloaded : m.loadedBy a with
    | none =>
      have hrestarts := restartsAs_intervene hfits hloaded
      obtain ⟨hprogram, hfits', hpacer⟩ := ih (m := (m.intervene a).machine)
        (by rwa [hrestarts.program])
      rw [hrestarts.program] at hprogram
      exact ⟨hprogram, hfits', hpacer.trans hrestarts.pacer⟩
    | some program =>
      obtain ⟨hfits, hprogram, hpacer⟩ := intervene_of_loadedBy hloaded
      obtain ⟨hlast, hfits', hpacer'⟩ := ih (m := (m.intervene a).machine) (by rwa [hprogram])
      rw [hprogram] at hlast
      refine ⟨hlast.trans ?_, hfits', by rw [hpacer', hpacer]⟩
      exact List.getLastD_cons.symm

/-- A machine that is started over is as good as new.

Whatever has been done with it, the reset succeeds, and the machine is the one that is
switched on with the same rates and loads one program, but for its random bytes. That program
is the one that was loaded last with success, and the empty one if none was. It is what the
machine remembers and what its memory holds from address 0x200 on; every other cell, and
everything else, is as when the machine was switched on. A load that fails changes nothing, and
neither does a second reset. Any later run that does not execute `CXNN` is answered as it is by
the new machine, and leads to the same machine, but for the random bytes. -/
theorem reset_is_powerOn (cycleRate tickRate : Nat) (random : ByteStream)
    (acts : List Intervention) :
    let start := powerOn (.start cycleRate tickRate) random
    let m := start.through acts
    let program := start.lastLoaded acts
    m.reset.result = .ok () ∧
    m.reset.machine =
      { powerOn (.start cycleRate tickRate) m.random with
        memory := m.reset.machine.memory, program } ∧
    (∀ (k : Nat) (hk : k < program.length),
      m.reset.machine.memory.cells[0x200 + k]? = some program[k]) ∧
    (∀ a < memorySize, a < 0x200 ∨ 0x200 + program.length ≤ a →
      m.reset.machine.memory.cells[a]? = some (Memory.powerOnByte a)) ∧
    (∀ random',
      let new := (powerOn (.start cycleRate tickRate) random').load program
      new.result = .ok () ∧ m.reset.machine = new.machine.withRandom m.random ∧
        ∀ later, (∀ i ∈ m.reset.machine.executedThrough later, i.IsSteady) →
          m.reset.machine.responses later = new.machine.responses later ∧
            m.reset.machine.through later =
              (new.machine.through later).withRandom m.random) ∧
    (∀ program' f, (m.load program').result = .error f →
      (m.load program').machine = m ∧
        start.lastLoaded (acts ++ [.ask (.load program')]) = program) ∧
    m.reset.machine.reset = m.reset := by
  intro start m program
  have hempty : start.program.length ≤ programLimit := Nat.zero_le _
  obtain ⟨hprogram, hfits, hpacer⟩ := program_through acts hempty
  obtain ⟨hreset, -⟩ := reset_of_fits hfits
  have hprogram : m.program = program := hprogram
  have hpacer : m.pacer.restart = .start cycleRate tickRate := hpacer
  have hmachine := reset_machine hfits
  rw [hpacer, hprogram] at hmachine
  refine ⟨hreset, ?_, ?_, ?_, fun random' => ?_, fun program' f hfails => ?_,
    reset_reset hfits⟩
  · rw [hmachine]
  · rw [← hprogram]
    exact fun k => cell_reset hfits
  · rw [← hprogram]
    exact fun a => cell_reset_outside hfits
  · intro new
    have hnew : new.machine = m.reset.machine.withRandom random' := by
      rw [reset_withRandom_eq, hpacer, hprogram]
    refine ⟨?_, ?_, fun later hblind => ?_⟩
    · rw [hprogram] at hfits
      exact congrArg Outcome.result (load_of_fits hfits)
    · rw [hnew, withRandom_withRandom, reset_withRandom_self]
    · obtain ⟨hthrough, hresponses⟩ := through_withRandom (r := random') hblind
      obtain ⟨hthrough', -⟩ := through_withRandom (r := m.random) hblind
      rw [reset_withRandom_self] at hthrough'
      rw [hnew, hthrough, hresponses, withRandom_withRandom]
      exact ⟨rfl, hthrough'⟩
  · have hlarge : ¬program'.length ≤ programLimit := not_fits_of_error hfails
    exact ⟨by rw [load_of_not_fits hlarge], lastLoaded_of_not_fits hlarge⟩

/-- A program that does not fit. -/
def oversized : List UInt8 :=
  .replicate 4000 0

/-- It is larger than the space behind address 0x200. -/
theorem not_fits_oversized : ¬oversized.length ≤ programLimit := by
  rw [oversized, List.length_replicate]
  decide

/-- A machine is given a program, and then one that does not fit. It takes a random byte, its
memory is overwritten, and it is halted. -/
def wearAndTear : List Intervention :=
  [.ask (.load [0x12, 0x00]), .ask (.load oversized), .execute (.random 0 0xFF),
    .setMemory ⟨Vector.replicate memorySize 0⟩, .ask .halt]

/-- Of the two loads only the first succeeds. -/
theorem lastLoaded_wearAndTear (m : Machine) : m.lastLoaded wearAndTear = [0x12, 0x00] := by
  have hfits : ∀ n : Machine, n.loadedBy (.ask (.load [0x12, 0x00])) = some [0x12, 0x00] := by
    intro n
    rw [loadedBy, load_of_fits (by decide)]
    rfl
  have hlarge : ∀ n : Machine, n.loadedBy (.ask (.load oversized)) = none := by
    intro n
    rw [loadedBy, load_of_not_fits not_fits_oversized]
    rfl
  simp only [lastLoaded, wearAndTear, loaded, hfits, hlarge]
  rfl

/-- After a reset the machine idles again, like one that has been given the same program. -/
theorem reset_is_powerOn_wearAndTear :
    let m := (powerOn (.start 2 5) .zeros).through wearAndTear
    m.reset.result = .ok () ∧ m.reset.machine = idling.withRandom m.random ∧
      m.reset.machine.memory.cells[0x200]? = some 0x12 ∧
      m.reset.machine.responses [.ask .cycle] = idling.responses [.ask .cycle] ∧
      (m.load oversized).machine = m ∧ m.reset.machine.reset = m.reset := by
  intro m
  obtain ⟨hreset, -, hcells, -, hnew, hload, hagain⟩ :=
    reset_is_powerOn 2 5 .zeros wearAndTear
  rw [lastLoaded_wearAndTear] at hnew hcells
  obtain ⟨-, hsame, hlater⟩ := hnew .zeros
  have hidles : ∀ r, (idling.withRandom r).Idles := fun r =>
    ⟨idles_idling.fetch, idles_idling.pc, idles_idling.state⟩
  have hblind : ∀ r, ∀ i ∈ (idling.withRandom r).executedThrough [.ask .cycle], i.IsSteady := by
    intro r
    have hexecuted : (idling.withRandom r).executed? = some (.jump 0x200) :=
      executed?_of_effect (hidles r).state (hidles r).fetch rfl
    rw [executedThrough, executedIn, hexecuted]
    exact List.forall_mem_singleton.2 fun x nn hrandom => by cases hrandom
  have hsame : m.reset.machine = idling.withRandom m.random := hsame
  obtain ⟨hresponses, -⟩ := hlater [.ask .cycle] (hsame ▸ hblind m.random)
  obtain ⟨hkept, -⟩ := hload oversized _ (by rw [load_of_not_fits not_fits_oversized])
  refine ⟨hreset, hsame, ?_, hresponses, hkept, hagain⟩
  rw [hcells 0 (by decide)]
  rfl

end Machine

end Chip8
