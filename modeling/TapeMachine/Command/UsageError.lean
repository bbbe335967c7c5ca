import TapeMachine.Command.Parameter
import TapeMachine.Text.Ansi
import TapeMachine.Text.Quoted

/-!
# Usage errors

What can be wrong with the arguments. All but two kinds of error are printed under the usage lines,
and whatever the arguments hold, no terminal code is printed.
-/

namespace TapeMachine

namespace Command

inductive UsageError where
  /-- The suggestions are options that may have been meant. -/
  | unknownOption (name : String) (suggestions : List String)
  | missingValue (name : String)
  | unwantedValue (name : String)
  | badValue (parameter : Parameter) (reason : String)
  | extraArguments (arguments : List String)
deriving DecidableEq

namespace UsageError

/-- What is asked about options that may have been meant. -/
def question : List String → String
  | [] => ""
  | [name] => " Did you mean " ++ quoted name ++ "?"
  | names => " (Did you mean one of: " ++ String.intercalate ", " (names.map quoted) ++ "?)"

def message : UsageError → String
  | .unknownOption name suggestions =>
    "No such option " ++ quoted name ++ "." ++ question suggestions
  | .missingValue name => "Option " ++ quoted name ++ " requires an argument."
  | .unwantedValue name => "Option " ++ quoted name ++ " does not take a value."
  | .badValue parameter reason => "Invalid value for " ++ parameter.hint ++ ": " ++ reason
  | .extraArguments arguments =>
    "Got unexpected extra argument" ++ (if arguments.length = 1 then "" else "s") ++
      " (" ++ String.intercalate " " arguments ++ ")"

/-- Whether the usage lines are printed too. -/
def showsUsage : UsageError → Bool
  | .missingValue _ => false
  | .unwantedValue _ => false
  | _ => true

def usageLines : String :=
  "Usage: bfrun [OPTIONS] [SCRIPT]\nTry 'bfrun --help' for help.\n\n"

def text (e : UsageError) : String :=
  (if e.showsUsage then usageLines else "") ++
    Ansi.stripString Ansi.controls ("Error: " ++ e.message ++ "\n")

def status : Int := 2

end UsageError

end Command

end TapeMachine
