import Chip8.Proofs.Schedule

/-!
# Moves

Of all that can be asked of a machine, to let time go by is the one thing that comes to many: to
the cycles and ticks of a slice, as far as they are made, or to a halt, if there is a request to
quit. Each of the others is a single thing. So a run is a list of moves, none of which is made up
of others, and what holds of every move can be said of a run without a word about slices of time.

A move together with the machine that makes it is a moment of the run.

## Main statements

* `Machine.slice_eq`: a slice makes the operations of `Machine.madeInSlice`.
* `Machine.makeAll_movesThrough`: the moves of a run lead to the same machine, and tell the same
  events.
* `Machine.isSingle_of_mem_movesThrough`: none of them is made up of others.
-/

namespace Chip8

/-- What a machine does at a time. -/
inductive Move where
  /-- Something that was asked of it. -/
  | ask (o : Operation)
  /-- A slice of time is taken from the pacer. -/
  | pace (nanos : Nat)
  /-- The request to quit is noticed. -/
  | notice

/-- The move is not made up of others. -/
def Move.IsSingle : Move → Prop
  | .ask (.advance _) => False
  | _ => True

/-- A machine, and the move that it is about to make. -/
structure Moment where
  before : Machine
  move : Move

namespace Moment

/-- The machine after the move. -/
def after (p : Moment) : Machine :=
  match p.move with
  | .ask o => p.before.after o
  | .pace nanos => p.before.paced nanos
  | .notice => p.before

/-- What the move reports. -/
def log (p : Moment) : Log :=
  match p.move with
  | .ask o => p.before.report o
  | .pace _ => #[]
  | .notice => #[.quitting]

/-- The move is a cycle, which executes this instruction. -/
def Executes (p : Moment) (i : Instruction) : Prop :=
  p.move = .ask .cycle ∧ p.before.executed? = some i

/-- What some moments tell, in order. -/
def told (moments : List Moment) : List Event :=
  moments.flatMap fun p => p.log.toList

/-- What is told by some moments is told in their order. -/
theorem told_append (moments moments' : List Moment) :
    told (moments ++ moments') = told moments ++ told moments' :=
  List.flatMap_append

end Moment

namespace Machine

variable {m : Machine} {due : Due} {a : Move} {o : Operation} {ops : List Operation}

/-- The machine after some moves, in order. -/
def makeAll (m : Machine) (moves : List Move) : Machine :=
  moves.foldl (fun m a => Moment.after ⟨m, a⟩) m

/-- The moments of some moves, in order. -/
def moments : Machine → List Move → List Moment
  | _, [] => []
  | m, a :: rest => ⟨m, a⟩ :: (Moment.after ⟨m, a⟩).moments rest

/-- The operations that the last `left` cycles of a slice come to, when `ticked` ticks of it
have been made: the cycles with the ticks that follow them, and the ticks that are missing
after the last. -/
def madeInSlice (due : Due) : (left ticked : Nat) → Machine → List Operation
  | 0, ticked, _ => .replicate (due.ticks - ticked) .tick
  | left + 1, ticked, m =>
    .cycle :: match m.cycle.result with
      | .error _ => []
      | .ok state =>
        let owed := due.owed (due.cycles - left)
        let missing : List Operation := .replicate (owed - ticked) .tick
        if state = .running then
          missing ++ madeInSlice due left (max ticked owed) (m.cycle.machine.afterAll missing)
        else missing

/-- The operations that a slice of time comes to, if nobody has asked to quit. -/
def made (m : Machine) (due : Due) : List Operation :=
  madeInSlice due due.cycles 0 m

/-- The moves that an operation comes to. -/
def moves (m : Machine) : Operation → List Move
  | .advance nanos =>
    if m.keypad.quit then [.notice, .ask .halt]
    else .pace nanos :: ((m.paced nanos).made (m.pacer.due nanos)).map .ask
  | o => [.ask o]

/-- The moves that a run comes to. -/
def movesThrough : Machine → List Operation → List Move
  | _, [] => []
  | m, o :: rest => m.moves o ++ (m.after o).movesThrough rest

/-! ### Moves in parts -/

/-- Moves are made from left to right. -/
@[simp] theorem makeAll_append (m : Machine) (moves moves' : List Move) :
    m.makeAll (moves ++ moves') = (m.makeAll moves).makeAll moves' :=
  List.foldl_append

/-- To make the moves of some operations is to ask for the operations. -/
theorem makeAll_ask (m : Machine) (ops : List Operation) :
    m.makeAll (ops.map .ask) = m.afterAll ops :=
  List.foldl_map

/-- The later moves are made by the machine that the earlier ones leave. -/
@[simp] theorem moments_append (m : Machine) (moves moves' : List Move) :
    m.moments (moves ++ moves') = m.moments moves ++ (m.makeAll moves).moments moves' := by
  induction moves generalizing m with
  | nil => rfl
  | cons a moves ih => exact congrArg (_ :: ·) (ih _)

/-- Such moves tell what the operations report. -/
theorem told_ask (m : Machine) (ops : List Operation) :
    Moment.told (m.moments (ops.map .ask)) = (m.reports ops).toList := by
  induction ops generalizing m with
  | nil => rfl
  | cons o ops ih =>
    rw [reports, Array.toList_append, ← ih]
    rfl

/-! ### Slices of time -/

/-- A slice makes these operations. -/
theorem slice_eq (due : Due) (left ticked : Nat) (m : Machine) (log : Log) :
    (slice due left ticked m log).machine = m.afterAll (madeInSlice due left ticked m) ∧
      (slice due left ticked m log).log =
        log ++ m.reports (madeInSlice due left ticked m) := by
  induction left generalizing ticked m log with
  | zero =>
    rw [slice, ticks_eq]
    exact ⟨rfl, rfl⟩
  | succ left ih =>
    rw [slice, madeInSlice, afterAll_cons, reports, ← Array.append_assoc]
    cases m.cycle.result with
    | error f => exact ⟨rfl, Array.append_empty.symm⟩
    | ok state =>
      simp only [tickUntil_eq, ticks_eq]
      by_cases hrun : state = .running
      · obtain ⟨hmachine, hlog⟩ := ih (max ticked (due.owed (due.cycles - left)))
          (m.cycle.machine.afterAll
            (.replicate (due.owed (due.cycles - left) - ticked) .tick)) _
        rw [if_pos hrun, if_pos hrun, afterAll_append, reports_append, hmachine, hlog,
          ← Array.append_assoc]
        exact ⟨rfl, rfl⟩
      · rw [if_neg hrun, if_neg hrun]
        exact ⟨rfl, rfl⟩

/-- What is due for a slice comes to the operations that the slice makes. -/
theorem runDue_eq (due : Due) (m : Machine) :
    (runDue due m).machine = m.afterAll (m.made due) ∧
      (runDue due m).log = m.reports (m.made due) := by
  obtain ⟨hmachine, hlog⟩ := slice_eq due due.cycles 0 m #[]
  exact ⟨hmachine, hlog.trans Array.empty_append⟩

/-- Nothing but cycles and ticks is made in a slice. -/
theorem cycle_or_tick_of_mem_madeInSlice {left ticked : Nat}
    (h : o ∈ madeInSlice due left ticked m) : o = .cycle ∨ o = .tick := by
  induction left generalizing ticked m with
  | zero => exact .inr (List.eq_of_mem_replicate h)
  | succ left ih =>
    rw [madeInSlice, List.mem_cons] at h
    rcases h with rfl | h
    · exact .inl rfl
    · split at h
      · cases h
      · dsimp only at h
        split at h
        · rcases List.mem_append.1 h with hmem | hmem
          · exact .inr (List.eq_of_mem_replicate hmem)
          · exact ih hmem
        · exact .inr (List.eq_of_mem_replicate h)

/-- What a whole slice comes to is cycles and ticks. -/
theorem cycle_or_tick_of_mem_made (h : o ∈ m.made due) : o = .cycle ∨ o = .tick :=
  cycle_or_tick_of_mem_madeInSlice h

/-! ### Runs -/

/-- An operation comes to moves that are not made up of others. Time that goes by does as well, as
its slice has nothing but cycles and ticks in it. -/
theorem isSingle_of_mem_moves (h : a ∈ m.moves o) : a.IsSingle := by
  cases o with
  | advance nanos =>
    rw [moves] at h
    split at h
    · rcases List.mem_pair.1 h with rfl | rfl <;> trivial
    · rcases List.mem_cons.1 h with rfl | hmem
      · trivial
      · obtain ⟨o, ho, rfl⟩ := List.mem_map.1 hmem
        rcases cycle_or_tick_of_mem_made ho with rfl | rfl <;> trivial
  | _ =>
    obtain rfl := List.mem_singleton.1 h
    trivial

/-- An operation comes to its moves. -/
theorem makeAll_moves (m : Machine) (o : Operation) :
    m.makeAll (m.moves o) = m.after o ∧
      Moment.told (m.moments (m.moves o)) = (m.report o).toList := by
  cases o with
  | advance nanos =>
    rw [after, report, moves]
    cases hquit : m.keypad.quit with
    | true =>
      rw [advance_of_quit hquit, Array.toList_append]
      exact ⟨rfl, congrArg (_ :: ·) (List.append_nil _)⟩
    | false =>
      obtain ⟨hmachine, hlog⟩ := runDue_eq (m.pacer.due nanos) (m.paced nanos)
      rw [advance_of_not_quit hquit, hmachine, hlog, ← makeAll_ask, ← told_ask]
      exact ⟨rfl, rfl⟩
  | _ => exact ⟨rfl, List.append_nil _⟩

/-- A run comes to its moves. -/
theorem makeAll_movesThrough (m : Machine) (ops : List Operation) :
    m.makeAll (m.movesThrough ops) = m.afterAll ops ∧
      Moment.told (m.moments (m.movesThrough ops)) = (m.reports ops).toList := by
  induction ops generalizing m with
  | nil => exact ⟨rfl, rfl⟩
  | cons o ops ih =>
    obtain ⟨hmachine, htold⟩ := m.makeAll_moves o
    rw [movesThrough, makeAll_append, moments_append, Moment.told_append, hmachine, htold, reports,
      Array.toList_append, (ih _).2]
    exact ⟨(ih _).1, rfl⟩

/-- A run comes to moves that are not made up of others. -/
theorem isSingle_of_mem_movesThrough (h : a ∈ m.movesThrough ops) : a.IsSingle := by
  induction ops generalizing m with
  | nil => cases h
  | cons o ops ih =>
    rcases List.mem_append.1 h with hmem | hmem
    · exact isSingle_of_mem_moves hmem
    · exact ih hmem

end Machine

end Chip8
