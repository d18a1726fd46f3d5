import Chip8.Machine.Advance

/-!
# Sessions

A session lets a machine run in slices of one frame, a sixtieth of a second, and looks at it
after each. It ends when the machine halts or fails. If the user wants so, a slice that ends
on an unknown opcode steps over it, and the session goes on.
-/

namespace Chip8.Machine

/-- The length of a frame in nanoseconds. -/
def frameNanos : Nat := nanosPerSecond / 60

/-- Steps over the opcode that a slice failed on, if it is one that can be stepped over. -/
def recover (o : Outcome RunState) : Outcome RunState :=
  match o.result with
  | .ok _ => o
  | .error f =>
    if f.isDecodeFailure then
      let skipped := o.machine.skip
      { result := skipped.result.map fun () => skipped.machine.state
        machine := skipped.machine
        log := o.log ++ skipped.log }
    else o

/-- One slice of a session. -/
def frame (m : Machine) (skipUnknown : Bool) : Outcome RunState :=
  let o := m.advance frameNanos
  if skipUnknown then recover o else o

/-- A session of at most so many frames, with the events so far. -/
def session (skipUnknown : Bool) : (frames : Nat) → Machine → Log → Outcome RunState
  | 0, m, log => ⟨.ok m.state, m, log⟩
  | frames + 1, m, log =>
    let o := (m.frame skipUnknown).after log
    match o.result with
    | .error _ | .ok .halted => o
    | .ok _ => session skipUnknown frames o.machine o.log

end Chip8.Machine
