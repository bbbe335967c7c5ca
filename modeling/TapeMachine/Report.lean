import TapeMachine.Decimal.Fixed
import TapeMachine.Decimal.Grouped
import TapeMachine.Failure
import TapeMachine.Text.Blank
import TapeMachine.Text.Excerpt

/-!
# Reports

A failure is reported under a banner, with the excerpt or the diagnostic that belongs to it and a
line for each of its notes. A run without failures may be followed by its statistics.
-/

namespace TapeMachine

namespace Report

structure Subject where
  filename : String
  source : List Char
  timeout : Option Float

def title : Cause → String
  | .unmatchedBracket _ => "SYNTAX ERROR."
  | .compilation _ => "COMPILE ERROR."
  | .timeout _ => "TIMEOUT."
  | .process _ => "SUBPROCESS ERROR."
  | .general _ => "ERROR."
  | .unknownBackend _ => "ERROR."
  | .system _ => "ERROR."
  | .impossiblePath => "ERROR."
  | .unencodable _ _ _ => "ERROR."
  | .execution _ => "RUNTIME ERROR."
  | .outOfBounds _ => "RUNTIME ERROR."
  | .inputExhausted _ => "RUNTIME ERROR."
  | .signal _ => "RUNTIME ERROR."

/-- A duration in seconds, or the word for none. -/
def timeoutText : Option Float → String
  | some seconds => FloatText.ofFloat seconds
  | none => "None"

def programName (subject : Subject) : String := "\x60" ++ Style.bright subject.filename ++ "\x60"

def detail (subject : Subject) (cause : Cause) : String :=
  let name := programName subject
  match cause with
  | .unmatchedBracket _ => "Parsing " ++ name ++ " failed: " ++ cause.message
  | .compilation _ => "Generated program was rejected by the compiler."
  | .timeout _ => "Program " ++ name ++ " exceeded " ++ timeoutText subject.timeout ++ "s."
  | _ => if cause.isExecution then "Program " ++ name ++ " stopped: " ++ cause.message
    else cause.message

/-- What is shown below the banner: the place of a bracket in program text, or what the compiler
had to say. A bracket that a backend blames has no place in the text. -/
def context (subject : Subject) (failure : Failure) : String :=
  match failure.cause, failure.backend with
  | .unmatchedBracket position, none => excerpt subject.filename subject.source position.toNat
  | .compilation diagnostic, _ => Style.dim (trimEnd diagnostic) ++ "\n"
  | _, _ => ""

def bannerText (subject : Subject) (failure : Failure) : String :=
  Style.banner (" " ++ title failure.cause ++ " ") ++ " " ++ detail subject failure.cause ++
    " (Exception: " ++ Style.yellow failure.cause.label ++ ")\n" ++ context subject failure ++ "\n"

def noteText (note : String) : String := Style.dim ("  " ++ note) ++ "\n"

def failureTexts (subject : Subject) (failure : Failure) : List String :=
  bannerText subject failure :: failure.notes.map noteText

/-- What is written about a run that took so many steps and seconds. -/
def statisticsTexts (steps : Int) (seconds : Float) : List String :=
  ["\n" ++ Style.code "97" ++ Style.code "48;5;30" ++ " STATISTICS. " ++ Style.reset ++ "\n",
    "step\t" ++ Style.bright (groupedText steps) ++ "\n",
    "time\t" ++ Style.bright (fixedText 3 seconds ++ "s") ++ "\n"]

end Report

end TapeMachine
