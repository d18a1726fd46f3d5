import Chip8.Host.ChaCha
import Chip8.Host.CommandLine
import Chip8.Host.Session
import Chip8.Host.Sketch

/-!
# The command line program

Runs a program from a file without a window, prints what went wrong on the way, and in the
end shows the picture.

```
chip8 --rom FILE [--ips N] [--timer-hz N] [--scale N] [--seconds N] [--skip-unknown]
```
-/

namespace Chip8.Program

/-- Whether an event is shown to the user. -/
def isShown (e : Event) : Bool :=
  e.level = .warn || e.level = .error

/-- Runs a session and shows how it ended. The exit code is one if the machine failed. -/
def play (options : Options) (program : List UInt8) (seed : UInt64) : IO UInt32 := do
  let loaded := (Machine.ofSeed options.settings seed).load program
  match loaded.result with
  | .error f =>
    IO.eprintln f.message
    return 1
  | .ok () =>
    let o := loaded.machine.session options.skipUnknown (60 * options.seconds) #[]
    for e in o.log do
      if isShown e then IO.eprintln e.line
    for row in o.machine.grid.sketch do
      IO.println row
    return if o.result.isOk then 0 else 1

/-- Reads the options and the program that they name, and plays it. -/
def start (args : List String) : IO UInt32 := do
  match Options.standard.parse args with
  | .error f =>
    IO.eprintln f.message
    return 2
  | .ok options =>
    let path := options.settings.program.getD ""
    try
      let bytes ← IO.FS.readBinFile path
      let seed ← IO.monoNanosNow
      play options bytes.toList (UInt64.ofNat seed)
    catch e =>
      IO.eprintln ("reading ROM " ++ path ++ ": " ++ toString e)
      return 1

end Chip8.Program

def main (args : List String) : IO UInt32 :=
  Chip8.Program.start args
