import Chip8.Proofs.Numerals
import Chip8.Proofs.Schedule

/-!
# The trace in the log

Among the lines that a machine logs are those of the levels `TRACE` and `ERROR`. They are a record
of its cycles: a cycle of a running machine has a line with the instruction that it is about to
execute, if one can be fetched, and then a line with the fault, if it fails. Nothing else has such
a line, neither a cycle of a machine that waits or is halted nor any other operation.

A line of the trace begins with an address and an opcode, whose numerals end where a colon and a
space follow. So these two can be read off the line, and the trace of a run tells which words the
machine has executed, and where.

## Main statements

* `Machine.select_cycle`: what a cycle reports at these levels.
* `Machine.select_slice`: what the cycles of a slice of time report.
* `Machine.select_reports`: what a run reports.
* `Event.eq_of_traceLine`: what can be read off a line of the trace.
* `Machine.trace_faithful`: the trace of a run is that of its cycles, and tells what they have
  executed.
-/

namespace Chip8

/-! ### Lines -/

namespace Event

/-- The events of a log at some levels. -/
def select (levels : List Level) (log : Log) : List Event :=
  log.toList.filter (·.level ∈ levels)

/-- The lines of a log at some levels. -/
def linesAt (levels : List Level) (log : Log) : List String :=
  (select levels log).map line

/-- A selection goes through a log from left to right. -/
@[simp] theorem select_append (levels : List Level) (log log' : Log) :
    select levels (log ++ log') = select levels log ++ select levels log' := by
  simp [select]

open Numeral in
/-- The line that is logged before the instruction at an address is executed. -/
def traceLine (pc : Address) (word : Opcode) (i : Instruction) : String :=
  "TRACE " ++
    ("0x" ++ hex .lower 3 pc.toNat ++ ": " ++ hex .upper 4 word.toNat ++ " " ++ i.mnemonic)

open Numeral in
/-- The line that is logged when the machine halts on a fault. -/
def errorLine (pc : Address) (f : Fault) : String :=
  "ERROR " ++ ("halted at " ++ ("0x" ++ hex .lower 3 pc.toNat) ++ ": " ++ f.message)

/-- The trace of a cycle is written in this form. -/
theorem line_executing (pc : Address) (word : Opcode) (i : Instruction) :
    (executing pc word i).line = traceLine pc word i :=
  congrArg (· ++ _) (by decide : Level.trace.name ++ " " = "TRACE ")

/-- The failure of a cycle is written in this form. -/
theorem line_failed (pc : Address) (f : Fault) : (failed pc f).line = errorLine pc f :=
  congrArg (· ++ _) (by decide : Level.error.name ++ " " = "ERROR ")

/-! ### Reading a line of the trace -/

open Numeral in
/-- The characters of a trace, in the parts that it is read by: the address up to the colon, the
opcode up to the space, and the mnemonic. -/
theorem toList_traceLine (pc : Address) (word : Opcode) (i : Instruction) :
    (traceLine pc word i).toList =
      "TRACE 0x".toList ++ ((hex .lower 3 pc.toNat).toList ++ ':' :: ' ' ::
        ((hex .upper 4 word.toNat).toList ++ ' ' :: i.mnemonic.toList)) := by
  simp [traceLine]

/-- The address and the opcode can be read off a line of the trace: their numerals end with the
colon and with the second space. -/
theorem eq_of_traceLine {pc pc' : Address} {word word' : Opcode} {i i' : Instruction}
    (h : traceLine pc word i = traceLine pc' word' i') : pc = pc' ∧ word = word' := by
  have hchars := congrArg String.toList h
  rw [toList_traceLine, toList_traceLine, List.append_cancel_left_eq] at hchars
  obtain ⟨hpc, hrest⟩ := Numeral.hex_append_cons (by decide) hchars
  obtain ⟨hword, -⟩ := Numeral.hex_append_cons (by decide) (List.cons.inj hrest).2
  exact ⟨UInt16.toNat_inj.1 hpc, UInt16.toNat_inj.1 hword⟩

/-- The address and the opcode that a line of the trace is about. -/
def attempt? : Event → Option (Address × Opcode)
  | executing pc word _ => some (pc, word)
  | _ => none

/-- Events with the same lines are about the same addresses and opcodes. -/
theorem filterMap_attempt?_of_lines {es es' : List Event} (hes : ∀ e ∈ es, e.level = .trace)
    (hes' : ∀ e ∈ es', e.level = .trace) (h : es.map line = es'.map line) :
    es.filterMap attempt? = es'.filterMap attempt? := by
  induction es generalizing es' with
  | nil => rw [List.map_eq_nil_iff.1 h.symm]
  | cons e es ih =>
    obtain ⟨e', rest, rfl, hline, hlines⟩ := List.map_eq_cons_iff.1 h.symm
    rw [List.forall_mem_cons] at hes hes'
    have hrest := ih hes.2 hes'.2 hlines.symm
    -- the only events of this level are those of the trace
    cases e <;> try cases hes.1
    cases e' <;> try cases hes'.1
    rw [line_executing, line_executing] at hline
    obtain ⟨rfl, rfl⟩ := eq_of_traceLine hline
    rw [List.filterMap_cons, List.filterMap_cons, hrest]
    rfl

end Event

namespace Machine

variable {m : Machine}

/-! ### Cycles -/

/-- The lines that a cycle is recorded by. -/
def cycleLines (m : Machine) : List String :=
  if m.state = .running then
    (match m.fetch? with
      | .ok (word, i) => [Event.traceLine m.registers.pc word i]
      | .error _ => []) ++
    match m.cycle.result with
      | .ok _ => []
      | .error f => [Event.errorLine m.registers.pc f]
  else []

/-- The events with these lines. -/
def cycleEvents (m : Machine) : List Event :=
  if m.state = .running then
    (match m.fetch? with
      | .ok (word, i) => [.executing m.registers.pc word i]
      | .error _ => []) ++
    match m.cycle.result with
      | .ok _ => []
      | .error f => [.failed m.registers.pc f]
  else []

/-- The lines of a cycle are the lines of its events. -/
theorem map_line_cycleEvents (m : Machine) : m.cycleEvents.map Event.line = m.cycleLines := by
  rw [cycleEvents, cycleLines, apply_ite (List.map Event.line), List.map_append]
  cases m.fetch? <;> cases m.cycle.result <;>
    simp only [List.map_cons, List.map_nil, Event.line_executing, Event.line_failed]

/-- What a cycle reports at these levels. -/
theorem select_cycle (m : Machine) : Event.select [.trace, .error] m.cycle.log = m.cycleEvents := by
  rw [cycleEvents]
  cases hstate : m.state with
  | halted =>
    rw [cycle, hstate]
    rfl
  | waiting r =>
    have hnot : RunState.waiting r ≠ .running := by rintro ⟨⟩
    rw [cycle, hstate, if_neg hnot]
    simp only [poll]
    cases m.keypad.pending with
    | none => rfl
    | some key =>
      dsimp only
      cases m.registers.set? r key <;> rfl
  | running =>
    rw [if_pos rfl]
    cases hfetch : m.fetch? with
    | error f =>
      rw [cycle_of_fetch_error hstate hfetch]
      rfl
    | ok p =>
      obtain ⟨word, i⟩ := p
      rw [cycle_of_fetch hstate hfetch]
      cases m.effect? i with
      | error f => rfl
      | ok m' =>
        -- a wait is reported too, but not at these levels
        cases i <;> rfl

/-! ### Slices of time -/

/-- To halt is reported at another level. -/
theorem select_haltLog (m : Machine) : Event.select [.trace, .error] m.haltLog = [] := by
  rw [haltLog, apply_ite (Event.select _)]
  exact ite_self _

/-- So is the end of the sound. -/
theorem select_tickLog (m : Machine) : Event.select [.trace, .error] m.tickLog = [] := by
  rw [tickLog, apply_ite (Event.select _)]
  exact ite_self _

/-- Hence there is nothing to read between the cycles of a slice. -/
theorem select_reports_ticks (m : Machine) (k : Nat) :
    Event.select [.trace, .error] (m.reports (.replicate k .tick)) = [] := by
  induction k generalizing m with
  | zero => rfl
  | succ k ih =>
    rw [List.replicate_succ, reports, Event.select_append, ih, List.append_nil]
    exact m.select_tickLog

/-- What the last cycles of a slice report, behind what has been reported before. -/
theorem select_slice (due : Due) (left ticked : Nat) (m : Machine) (log : Log) :
    Event.select [.trace, .error] (slice due left ticked m log).log =
      Event.select [.trace, .error] log ++
        (cyclesInSlice due left ticked m).flatMap cycleEvents := by
  induction left generalizing ticked m log with
  | zero =>
    rw [slice, ticks_eq, Event.select_append, select_reports_ticks]
    rfl
  | succ left ih =>
    rw [cyclesInSlice, List.flatMap_cons]
    by_cases hrun : m.cycle.result = .ok .running
    · rw [if_pos hrun, slice_succ_of_running hrun, ih, Event.select_append, Event.select_append,
        select_cycle, select_reports_ticks, List.append_nil, List.append_assoc]
    · rw [if_neg hrun, slice_of_stop hrun, List.flatMap_nil, List.append_nil, ← select_cycle]
      exact Event.select_append _ _ _

/-- A slice of time shows the lines of its cycles, in order. -/
theorem select_advance (m : Machine) (nanos : Nat) :
    Event.select [.trace, .error] (m.advance nanos).log =
      (m.cyclesOf (.advance nanos)).flatMap cycleEvents := by
  cases hquit : m.keypad.quit with
  | true =>
    rw [cyclesOf, if_pos hquit, advance_of_quit hquit, Event.select_append, select_haltLog]
    rfl
  | false =>
    rw [cyclesOf, if_neg (ne_true_of_eq_false hquit), advance_of_not_quit hquit, runDue,
      select_slice]
    rfl

/-! ### Runs -/

/-- To load a program is reported at another level too. -/
theorem select_load (m : Machine) (program : List UInt8) :
    Event.select [.trace, .error] (m.load program).log = [] := by
  rw [load]
  cases m.memory.load? program <;> rfl

/-- What an operation reports. -/
theorem select_report (m : Machine) (o : Operation) :
    Event.select [.trace, .error] (m.report o) = (m.cyclesOf o).flatMap cycleEvents := by
  cases o with
  | cycle =>
    rw [cyclesOf, List.flatMap_singleton]
    exact m.select_cycle
  | advance nanos => exact m.select_advance nanos
  | tick => exact m.select_tickLog
  | load program => exact m.select_load program
  | reset =>
    rw [report, reset_eq, Outcome.log_after, Event.select_append, select_load]
    rfl
  | halt => exact m.select_haltLog
  | skip =>
    rw [report, skip]
    split <;> rfl
  | keyDown key | keyUp key | clearPending | requestQuit | releaseKeys => rfl

/-- The machines on which the cycles of a run begin, those in slices of time included. -/
def cyclesThrough : Machine → List Operation → List Machine
  | _, [] => []
  | m, o :: rest => m.cyclesOf o ++ (m.after o).cyclesThrough rest

/-- What a run reports. -/
theorem select_reports (m : Machine) (ops : List Operation) :
    Event.select [.trace, .error] (m.reports ops) =
      (m.cyclesThrough ops).flatMap cycleEvents := by
  induction ops generalizing m with
  | nil => rfl
  | cons o ops ih =>
    rw [reports, cyclesThrough, Event.select_append, select_report, ih, List.flatMap_append]

/-- The word that a cycle executes, with its address: that at the program counter, if the machine
runs and the word is an instruction. -/
def attempted? (m : Machine) : Option (Address × Opcode) :=
  match m.state, m.fetch? with
  | .running, .ok (word, _) => some (m.registers.pc, word)
  | _, _ => none

/-- Of the events of a cycle one is an attempt at an instruction, unless no instruction was
attempted. -/
theorem filterMap_cycleEvents (m : Machine) :
    m.cycleEvents.filterMap Event.attempt? = m.attempted?.toList := by
  rw [cycleEvents, attempted?]
  cases m.state with
  | running => cases m.fetch? <;> cases m.cycle.result <;> rfl
  | waiting r | halted => rfl

/-- The events of the trace are among those of the cycles. -/
theorem select_trace (m : Machine) (ops : List Operation) :
    Event.select [.trace] (m.reports ops) =
      ((m.cyclesThrough ops).flatMap cycleEvents).filter (·.level = .trace) := by
  rw [← select_reports, Event.select, Event.select, List.filter_filter]
  refine List.filter_congr fun e _ => ?_
  cases e <;> rfl

/-- What a run has executed is what the events of its trace are about. -/
theorem filterMap_select_trace (m : Machine) (ops : List Operation) :
    (Event.select [.trace] (m.reports ops)).filterMap Event.attempt? =
      (m.cyclesThrough ops).filterMap attempted? := by
  rw [select_trace, List.filterMap_filter, List.filterMap_eq_flatMap_toList (f := attempted?)]
  have hothers : (fun e : Event => if e.level = .trace then e.attempt? else none) =
      Event.attempt? := by
    funext e
    cases e <;> rfl
  simp only [decide_eq_true_eq, hothers, List.filterMap_flatMap, filterMap_cycleEvents]

/-- The trace of a run is that of its cycles, and tells what they have executed.

The lines of the levels `TRACE` and `ERROR` that a run logs are those of its cycles, in order, be
they made one by one or in a slice of time: for a cycle of a running machine, the line of the
instruction at the program counter if one can be fetched, and then the line of the fault if the
cycle fails; none for any other cycle, and none for anything else. If two runs have logged the
same lines of the level `TRACE`, they have executed the same words at the same addresses. -/
theorem trace_faithful (m : Machine) (ops : List Operation) :
    Event.linesAt [.trace, .error] (m.reports ops) = (m.cyclesThrough ops).flatMap cycleLines ∧
      ∀ (m' : Machine) (ops' : List Operation),
        Event.linesAt [.trace] (m.reports ops) = Event.linesAt [.trace] (m'.reports ops') →
        (m.cyclesThrough ops).filterMap attempted? =
          (m'.cyclesThrough ops').filterMap attempted? := by
  refine ⟨?_, fun m' ops' h => ?_⟩
  · rw [Event.linesAt, select_reports, List.map_flatMap]
    exact congrArg (List.flatMap · _) (funext map_line_cycleEvents)
  · rw [← filterMap_select_trace, ← filterMap_select_trace]
    have hlevel : ∀ log : Log, ∀ e ∈ Event.select [.trace] log, e.level = .trace := by
      intro log e he
      simpa using (List.mem_filter.1 he).2
    exact Event.filterMap_attempt?_of_lines (hlevel _) (hlevel _) h

/-- A machine that idles is the same after a cycle. -/
theorem Idles.after_cycle (h : m.Idles) : m.after .cycle = m :=
  h.cycle.2

/-- Each of its cycles reports the jump to the place where the jump is. -/
theorem Idles.cycleEvents (h : m.Idles) :
    m.cycleEvents = [.executing 0x200 0x1200 (.jump 0x200)] := by
  rw [Machine.cycleEvents, if_pos h.state, h.fetch, h.cycle.1, h.pc]
  rfl

/-- A machine with the program `00EE`, a return from no call. -/
def returning : Machine :=
  ((powerOn (.start 700 60) .zeros).load [0x00, 0xEE]).machine

/-- Its first cycle executes the return and fails, and so the next one does nothing. -/
theorem cycleEvents_returning :
    returning.cycleEvents = [.executing 0x200 0x00EE .ret, .failed 0x200 .stackUnderflow] ∧
      (returning.after .cycle).cycleEvents = [] := by
  have hrun : returning.state = .running := rfl
  have hfetch : returning.fetch? = .ok (0x00EE, .ret) :=
    fetch?_load [0x00, 0xEE] (i := .ret) (by decide) rfl (k := 0) (by decide) rfl
      (by rw [Instruction.Encodable]; exact trivial) rfl
  have hfails : returning.cycle.result = .error .stackUnderflow := by
    rw [cycle_of_fetch hrun hfetch]
    rfl
  have hhalted : (returning.after .cycle).state = .halted := by
    rw [after, cycle_of_fetch hrun hfetch]
    rfl
  refine ⟨?_, if_neg ?_⟩
  · rw [cycleEvents, if_pos hrun, hfetch, hfails]
    rfl
  · rw [hhalted]
    decide

/-- Two runs of the machine that idles, of one cycle each: before the one there is a tick, and
behind the other a halt and a cycle that does nothing. And a run of a machine whose first cycle
fails, so that its second one does nothing. -/
theorem trace_faithful_idling :
    Event.linesAt [.trace, .error] (idling.reports [.tick, .cycle]) =
        ["TRACE 0x200: 1200 JP 0x200"] ∧
      Event.linesAt [.trace] (idling.reports [.tick, .cycle]) =
        Event.linesAt [.trace] (idling.reports [.cycle, .halt, .cycle]) ∧
      (idling.cyclesThrough [.tick, .cycle]).filterMap attempted? =
        (idling.cyclesThrough [.cycle, .halt, .cycle]).filterMap attempted? ∧
      Event.linesAt [.trace, .error] (returning.reports [.cycle, .cycle]) =
        ["TRACE 0x200: 00EE RET",
          "ERROR halted at 0x200: stack underflow: return with empty call stack"] := by
  have hticked : (idling.after .tick).Idles := idles_idling.tick
  have hone : (idling.cyclesThrough [.tick, .cycle]).flatMap cycleEvents =
      [.executing 0x200 0x1200 (.jump 0x200)] := by
    simp only [cyclesThrough, cyclesOf, List.nil_append, List.append_nil,
      List.flatMap_singleton, hticked.cycleEvents]
  have hhalted : (idling.after .halt).cycleEvents = [] := if_neg nofun
  have hother : (idling.cyclesThrough [.cycle, .halt, .cycle]).flatMap cycleEvents =
      [.executing 0x200 0x1200 (.jump 0x200)] := by
    simp only [cyclesThrough, cyclesOf, List.nil_append, List.append_nil, List.flatMap_append,
      List.flatMap_singleton, idles_idling.after_cycle, idles_idling.cycleEvents, hhalted]
  obtain ⟨hlines, hsame⟩ := trace_faithful idling [.tick, .cycle]
  have htrace : Event.linesAt [.trace] (idling.reports [.tick, .cycle]) =
      Event.linesAt [.trace] (idling.reports [.cycle, .halt, .cycle]) := by
    rw [Event.linesAt, Event.linesAt, select_trace, select_trace, hone, hother]
  obtain ⟨hfirst, hsecond⟩ := cycleEvents_returning
  have hfailing : (returning.cyclesThrough [.cycle, .cycle]).flatMap cycleEvents =
      [.executing 0x200 0x00EE .ret, .failed 0x200 .stackUnderflow] := by
    simp only [cyclesThrough, cyclesOf, List.append_nil, List.flatMap_append,
      List.flatMap_singleton, hfirst, hsecond]
  obtain ⟨hlines', -⟩ := trace_faithful returning [.cycle, .cycle]
  refine ⟨?_, htrace, hsame idling [.cycle, .halt, .cycle] htrace, ?_⟩
  · rw [hlines, ← funext map_line_cycleEvents, ← List.map_flatMap, hone]
    decide +kernel
  · rw [hlines', ← funext map_line_cycleEvents, ← List.map_flatMap, hfailing]
    decide +kernel

end Machine

end Chip8
