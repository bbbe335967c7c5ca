import TapeMachine.Command.UsageError
import TapeMachine.Text.Similarity

/-!
# Arguments

The arguments are scanned from left to right. Options may stand anywhere before a lone `--`; a long
option's value may hang on an equals sign, a short option's value on the letter itself, and short
options without values may share a dash.
-/

namespace TapeMachine

namespace Command

/-- An option with its value as it was written; flags have the empty text. -/
abbrev Occurrence := Parameter × String

structure Arguments where
  /-- In the order in which they were written. -/
  options : List Occurrence
  positional : List String
deriving DecidableEq

/-- An option that waits for its value, under the name by which it was written. -/
structure Pending where
  parameter : Parameter
  name : String
deriving DecidableEq

inductive Stop where
  | done
  | waits (pending : Pending)
  | fails (error : UsageError)
deriving DecidableEq

structure Reading where
  options : List Occurrence
  stop : Stop
deriving DecidableEq

/-- A lone dash is no option. -/
def isOption (argument : String) : Bool :=
  match argument.toList with
  | '-' :: _ :: _ => true
  | _ => false

/-- Split at the first equals sign, if there is one. -/
def splitValue (argument : String) : String × Option String :=
  let chars := argument.toList
  match chars.dropWhile (· ≠ '=') with
  | [] => (argument, none)
  | _ :: value => (String.ofList (chars.takeWhile (· ≠ '=')), some (String.ofList value))

/-- The long options that a misspelt one may stand for, in alphabetical order: at most three, and
each of them alike in three fifths of the characters. -/
def suggestions (name : String) : List String :=
  let names := Parameter.longOptions.map Prod.fst
  (Similarity.closest 3 ⟨3, 5⟩ name names).mergeSort fun x y => !(y < x)

def readLong (name : String) (parameter : Parameter) : Option String → Reading
  | none =>
    if parameter.takesValue then ⟨[], .waits ⟨parameter, name⟩⟩ else ⟨[(parameter, "")], .done⟩
  | some value =>
    if parameter.takesValue then ⟨[(parameter, value)], .done⟩
    else ⟨[], .fails (.unwantedValue name)⟩

/-- Short options behind one dash. -/
def readShort : List Char → Reading
  | [] => ⟨[], .done⟩
  | c :: rest =>
    let name := String.ofList ['-', c]
    match Parameter.ofShort? c with
    | none => ⟨[], .fails (.unknownOption name [])⟩
    | some parameter =>
      if parameter.takesValue then
        if rest.isEmpty then ⟨[], .waits ⟨parameter, name⟩⟩
        else ⟨[(parameter, String.ofList rest)], .done⟩
      else
        let reading := readShort rest
        { reading with options := (parameter, "") :: reading.options }

def readOption (argument : String) : Reading :=
  let (name, value) := splitValue argument
  match Parameter.ofLong? name with
  | some parameter => readLong name parameter value
  | none =>
    if argument.startsWith "--" then ⟨[], .fails (.unknownOption name (suggestions name))⟩
    else readShort (argument.toList.drop 1)

namespace Arguments

def addOptions (a : Arguments) (options : List Occurrence) : Arguments :=
  { a with options := a.options ++ options }

def addPositional (a : Arguments) (arguments : List String) : Arguments :=
  { a with positional := a.positional ++ arguments }

/-- Scan the rest of the arguments as far as they can be read. An option that waits for its value
takes the next argument, whatever that is. -/
def scanFrom (a : Arguments) : List String → Arguments × Option UsageError
  | [] => (a, none)
  | "--" :: rest => (a.addPositional rest, none)
  | argument :: rest =>
    if isOption argument then
      let reading := readOption argument
      let a := a.addOptions reading.options
      match reading.stop with
      | .done => scanFrom a rest
      | .fails e => (a, some e)
      | .waits pending =>
        match rest with
        | [] => (a, some (.missingValue pending.name))
        | value :: rest => scanFrom (a.addOptions [(pending.parameter, value)]) rest
    else scanFrom (a.addPositional [argument]) rest

/-- What can be read of the arguments, up to the first error. -/
def readable (arguments : List String) : Arguments × Option UsageError :=
  scanFrom ⟨[], []⟩ arguments

def scan (arguments : List String) : Except UsageError Arguments :=
  match readable arguments with
  | (a, none) => .ok a
  | (_, some e) => .error e

/-- The last value of an option. -/
def value? (a : Arguments) (parameter : Parameter) : Option String :=
  ((a.options.filter (·.1 = parameter)).getLast?).map Prod.snd

def count (a : Arguments) (parameter : Parameter) : Nat :=
  (a.options.filter (·.1 = parameter)).length

def has (a : Arguments) (parameter : Parameter) : Bool := 0 < a.count parameter

/-- The script as it was written; a dash stands for standard input. -/
def script (a : Arguments) : String := a.positional.headD "-"

/-- The parameters in the order in which their values are checked: options by their first
occurrence, then the script. -/
def checkOrder (a : Arguments) : List Parameter :=
  (a.options.map Prod.fst).eraseDups ++ [.script]

end Arguments

end Command

end TapeMachine
