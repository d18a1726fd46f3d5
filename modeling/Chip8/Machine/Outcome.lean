import Chip8.Machine.Basic
import Chip8.Machine.Event

/-!
# Outcomes

An operation on the machine that can fail or that reports something comes to an `Outcome`:
a result or a fault, the machine afterwards, and the events on the way. The machine is there
in both cases, because some operations leave something behind when they fail.
-/

namespace Chip8

/-- What an operation on the machine comes to. -/
structure Outcome (α : Type) where
  /-- What the operation gives, or why it failed. -/
  result : Except Fault α
  /-- The machine afterwards. -/
  machine : Machine
  /-- What was reported on the way. -/
  log : Log

/-- The outcome with events put before its own. -/
def Outcome.after {α : Type} (log : Log) (o : Outcome α) : Outcome α :=
  { o with log := log ++ o.log }

@[simp] theorem Outcome.result_after {α : Type} (log : Log) (o : Outcome α) :
    (o.after log).result = o.result := rfl

@[simp] theorem Outcome.machine_after {α : Type} (log : Log) (o : Outcome α) :
    (o.after log).machine = o.machine := rfl

@[simp] theorem Outcome.log_after {α : Type} (log : Log) (o : Outcome α) :
    (o.after log).log = log ++ o.log := rfl

end Chip8
