import Chip8.Settings

/-!
# The command line

The options of a session, each with a long and a short name. An option that is given twice
counts as it was given last. `Options.parse` reads the arguments from left to right, and
everything that it cannot read has its own refusal.
-/

namespace Chip8

/-- What a session is started with. -/
structure Options where
  settings : Settings
  /-- Step over unknown opcodes and do not stop at them. -/
  skipUnknown : Bool
  /-- How long the machine runs, in seconds of its own time. -/
  seconds : Nat
deriving DecidableEq, Repr

/-- Why a command line cannot be used. -/
inductive UsageFault where
  | missingProgram
  | missingValue (option : String)
  | badNumber (option value : String)
  | unknownOption (argument : String)
deriving DecidableEq, Repr

/-- The wording of a refusal. -/
def UsageFault.message : UsageFault → String
  | missingProgram => "no program was given: use --rom FILE"
  | missingValue option => option ++ " needs a value"
  | badNumber option value => option ++ " needs a number, not " ++ value
  | unknownOption argument => argument ++ " is no option"

namespace Options

/-- The options before any argument is read. -/
def standard : Options where
  settings := .standard
  skipUnknown := false
  seconds := 10

/-- The number that an option was given, in decimal digits alone. -/
def number? (option value : String) : Except UsageFault Nat :=
  match value.toNat? with
  | some n => if value.all Char.isDigit then .ok n else .error (.badNumber option value)
  | none => .error (.badNumber option value)

/-- Options that take a value. -/
inductive Valued where
  | rom
  | ips
  | timerRate
  | scale
  | seconds
deriving DecidableEq, Repr

/-- The option with a name. -/
def Valued.ofName? : String → Option Valued
  | "--rom" | "-r" => some .rom
  | "--ips" | "-i" => some .ips
  | "--timer-hz" | "-t" => some .timerRate
  | "--scale" | "-s" => some .scale
  | "--seconds" => some .seconds
  | _ => none

/-- The options with one of them set. -/
def set? (o : Options) (name value : String) : Valued → Except UsageFault Options
  | .rom => .ok { o with settings := { o.settings with program := some value } }
  | .ips => do
    let n ← number? name value
    return { o with settings := { o.settings with cycleRate := n } }
  | .timerRate => do
    let n ← number? name value
    return { o with settings := { o.settings with tickRate := n } }
  | .scale => do
    let n ← number? name value
    return { o with settings := o.settings.withScale n }
  | .seconds => do
    let n ← number? name value
    return { o with seconds := n }

/-- Reads the arguments, starting from the options that have been read before. -/
def parse (o : Options) : List String → Except UsageFault Options
  | [] => if o.settings.program.isSome then .ok o else .error .missingProgram
  | "--skip-unknown" :: rest => parse { o with skipUnknown := true } rest
  | [name] =>
    match Valued.ofName? name with
    | some _ => .error (.missingValue name)
    | none => .error (.unknownOption name)
  | name :: value :: rest =>
    match Valued.ofName? name with
    | some option => do
      let o ← o.set? name value option
      o.parse rest
    | none => .error (.unknownOption name)

end Options

end Chip8
