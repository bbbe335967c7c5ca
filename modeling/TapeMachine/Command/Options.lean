import TapeMachine.Command.Arguments
import TapeMachine.Decimal.Reader
import TapeMachine.Host.Basic
import TapeMachine.Input

/-!
# Checked options

Values are checked in the order in which their options first appear, each by its last value, and
then the script; extra arguments are refused last of all. A request for help wins over all of this.
A value that cannot be a path at all ends the command where a path is wanted.
-/

namespace TapeMachine

namespace Command

/-- The names of the backends a user may choose. -/
def backendNames : List String := ["auto", "interpret", "native"]

structure Options where
  script : String
  input : Option (List CodePoint)
  timeout : Option Float
  backend : String
  directory : Option String
  compiler : Option String
  memoryLimit : Option Int
  emitRust : Bool
  verbosity : Nat
  stats : Bool
  plain : Bool

/-- Why a command does not start. -/
inductive Refusal where
  | usage (error : UsageError)
  | impossiblePath
deriving DecidableEq

/-- Why a value that has to be a path cannot be used; `objection` judges what the path leads to. -/
def pathRefusal (h : Host) (files : Files) (parameter : Parameter) (value : String)
    (objection : Except FileError Entry → Option String) : Option Refusal :=
  if Path.isPossible value then
    (objection (files.locate h.workingDirectory value)).map fun reason =>
      .usage (.badValue parameter reason)
  else some .impossiblePath

def refusal? (h : Host) (files : Files) (parameter : Parameter) (value : String) :
    Option Refusal :=
  let bad (reason : String) : Option Refusal := some (.usage (.badValue parameter reason))
  match parameter with
  | .timeout =>
    if (readFloat? value).isSome then none else bad (quoted value ++ " is not a valid float.")
  | .memoryLimit =>
    if (readInt? value).isSome then none else bad (quoted value ++ " is not a valid integer.")
  | .backend =>
    if backendNames.contains value then none
    else
      let names := String.intercalate ", " (backendNames.map quoted)
      bad (quoted value ++ " is not one of " ++ names ++ ".")
  | .directory =>
    pathRefusal h files parameter value fun
      | .ok .directory => none
      | .ok (.file _) => some ("Directory " ++ quoted value ++ " is a file.")
      | .error _ => some ("Directory " ++ quoted value ++ " does not exist.")
  | .script =>
    if value = "-" then none
    else
      pathRefusal h files parameter value fun
        | .ok (.file _) => none
        | .ok .directory => some ("'" ++ value ++ "': " ++ FileError.isDirectory.message)
        | .error e => some ("'" ++ value ++ "': " ++ e.message)
  | _ => none

/-- The value of a parameter as it was written, which is empty for flags. -/
def writtenValue (a : Arguments) : Parameter → String
  | .script => a.script
  | parameter => (a.value? parameter).getD ""

/-- The first thing wrong with the values. -/
def firstRefusal? (h : Host) (files : Files) (a : Arguments) : Option Refusal :=
  let bad := a.checkOrder.findSome? fun parameter =>
    refusal? h files parameter (writtenValue a parameter)
  match bad with
  | some r => some r
  | none =>
    if a.positional.length ≤ 1 then none
    else some (.usage (.extraArguments (a.positional.drop 1)))

/-- The options that the arguments set, once their values have been checked. -/
def Options.ofArguments (a : Arguments) : Options where
  script := a.script
  input := (a.value? .input).map fun given => given.toList.map .character
  timeout := (a.value? .timeout).bind readFloat?
  backend := (a.value? .backend).getD "auto"
  directory := a.value? .directory
  compiler := a.value? .compiler
  memoryLimit := (a.value? .memoryLimit).bind readInt?
  emitRust := a.has .emitRust
  verbosity := a.count .verbose
  stats := a.has .stats
  plain := a.has .plain

inductive Invocation where
  | help
  | run (options : Options)

def invocation (h : Host) (files : Files) (arguments : List String) :
    Except Refusal Invocation :=
  match Arguments.scan arguments with
  | .error e => .error (.usage e)
  | .ok a =>
    if a.has .help then .ok .help
    else
      match firstRefusal? h files a with
      | some r => .error r
      | none => .ok (.run (Options.ofArguments a))

end Command

end TapeMachine
