import TapeMachine.ErrorClass
import TapeMachine.Text.Quoted

/-!
# Failures

A failure has a cause, and may know where in the program it arose, on which backend, and what
else went wrong while cleaning up after it. The wording of all causes is in `Cause.message`.
-/

namespace TapeMachine

inductive Backend where
  | interpreter
  | native
deriving DecidableEq

def Backend.label : Backend → String
  | .interpreter => "interpreter"
  | .native => "native"

inductive Cause where
  | general (message : String)
  | execution (message : String)
  | unmatchedBracket (position : Int)
  | outOfBounds (message : String)
  | inputExhausted (message : String)
  | signal (number : Option Int)
  | compilation (diagnostic : String)
  | process (detail : String)
  | timeout (message : String)
  | unknownBackend (name : String)
  /-- The system refuses what is asked of it, and no handler has made that a failure of the run. -/
  | system (reason : String)
  /-- A path holds a character that no path can hold. -/
  | impossiblePath
  /-- A text holds the surrogate, from the one position to the other nothing but surrogates. -/
  | unencodable (surrogate first last : Nat)
deriving DecidableEq

namespace Cause

/-- The places of surrogates in a text, where a single one is shown. -/
def surrogatesText (surrogate first last : Nat) : String :=
  if first = last then
    "character '\\u" ++ String.ofList (Quoted.hex 4 surrogate) ++ "' in position " ++ toString first
  else "characters in position " ++ toString first ++ "-" ++ toString last

def message : Cause → String
  | .general message => message
  | .execution message => message
  | .unmatchedBracket position => s!"Unmatched bracket at {position}."
  | .outOfBounds message => message
  | .inputExhausted message => message
  | .signal none => "Program terminated by a signal."
  | .signal (some number) => s!"Program terminated by a signal (signal {number})."
  | .compilation diagnostic => "Compiling the generated program failed.\n" ++ diagnostic
  | .process detail => "Process management failed: " ++ detail
  | .timeout message => message
  | .unknownBackend name => "Unknown backend \x60" ++ name ++ "\x60."
  | .system reason => reason
  | .impossiblePath => "embedded null byte"
  | .unencodable surrogate first last =>
    "'utf-8' codec can't encode " ++ surrogatesText surrogate first last ++
      ": surrogates not allowed"

def errorClass : Cause → ErrorClass
  | .general _ => .general
  | .execution _ => .execution
  | .unmatchedBracket _ => .unmatchedBracket
  | .outOfBounds _ => .outOfBounds
  | .inputExhausted _ => .inputExhausted
  | .signal _ => .signal
  | .compilation _ => .compilation
  | .process _ => .process
  | .timeout _ => .timeout
  | .unknownBackend _ => .value
  | .system _ => .system
  | .impossiblePath => .value
  | .unencodable _ _ _ => .encoding

def label (cause : Cause) : String := cause.errorClass.name

def isExecution (cause : Cause) : Bool := cause.errorClass.isA .execution

/-- Whether commands report the failure. The others break a command off. -/
def isReported (cause : Cause) : Bool := cause.errorClass.isA .general

/-- Whether handlers for errors of the system catch the failure. -/
def isSystem (cause : Cause) : Bool := cause.errorClass.isA .system

def isTimeout (cause : Cause) : Bool := cause.errorClass.isA .timeout

def outOfBoundsMessage : String := "Data pointer moved out of memory bounds."

def inputExhaustedMessage : String := "Input too short for the program's reads."

def timeoutMessage : String := "Program did not finish before the deadline."

/-- The cause of a new error of the class, from a text or a number if one is given. Some classes
have a text of their own, some do not go without. -/
def make? (text : Option String) (number : Option Int) : ErrorClass → Option Cause
  | .general => some (.general (text.getD ""))
  | .execution => some (.execution (text.getD ""))
  | .outOfBounds => some (.outOfBounds (text.getD outOfBoundsMessage))
  | .inputExhausted => some (.inputExhausted (text.getD inputExhaustedMessage))
  | .timeout => some (.timeout (text.getD timeoutMessage))
  | .signal => some (.signal number)
  | .unmatchedBracket => number.map .unmatchedBracket
  | .compilation => text.map .compilation
  | .process => text.map .process
  | _ => none

theorem errorClass_of_make? {text : Option String} {number : Option Int} {c : ErrorClass}
    {cause : Cause} (h : make? text number c = some cause) : cause.errorClass = c := by
  cases c with
  | unmatchedBracket =>
      obtain ⟨position, -, rfl⟩ := Option.map_eq_some_iff.mp h
      rfl
  | compilation =>
      obtain ⟨diagnostic, -, rfl⟩ := Option.map_eq_some_iff.mp h
      rfl
  | process =>
      obtain ⟨detail, -, rfl⟩ := Option.map_eq_some_iff.mp h
      rfl
  | general | execution | outOfBounds | inputExhausted | timeout | signal =>
      cases h
      rfl
  | exception | value | unicode | encoding | runtime | system | timedOut => cases h

/-- The backend that alone has failures of this cause, if there is one. -/
@[simp] def backend? : Cause → Option Backend
  | .signal _ => some .native
  | .compilation _ => some .native
  | .process _ => some .native
  | _ => none

end Cause

structure Failure where
  cause : Cause
  site : Option Int
  backend : Option Backend
  notes : List String
deriving DecidableEq

namespace Failure

def message (f : Failure) : String := f.cause.message

/-- Where the failure arose; an unmatched bracket is its own place. -/
def position (f : Failure) : Option Int :=
  match f.cause with
  | .unmatchedBracket position => some position
  | _ => f.site

def annotate (f : Failure) (notes : List String) : Failure :=
  { f with notes := f.notes ++ notes }

/-- A new failure. A backend is named only where the cause leaves it open. -/
@[simp] def new (cause : Cause) (site : Option Int) (backend : Option Backend) : Failure :=
  ⟨cause, site, cause.backend?.or backend, []⟩

def unmatchedBracket (position : Nat) (backend : Option Backend) : Failure :=
  new (.unmatchedBracket position) none backend

def outOfBounds (site : Option Int) (backend : Backend) : Failure :=
  new (.outOfBounds Cause.outOfBoundsMessage) site backend

def inputExhausted (site : Option Int) (backend : Backend) : Failure :=
  new (.inputExhausted Cause.inputExhaustedMessage) site backend

def timeout (site : Option Int) (backend : Backend) : Failure :=
  new (.timeout Cause.timeoutMessage) site backend

def signal (number : Int) : Failure := new (.signal (some number)) none none

def compilation (diagnostic : String) : Failure := new (.compilation diagnostic) none none

def process (detail : String) : Failure := new (.process detail) none none

def unknownBackend (name : String) : Failure := new (.unknownBackend name) none none

def system (reason : String) : Failure := new (.system reason) none none

def impossiblePath : Failure := new .impossiblePath none none

def unencodable (surrogate first last : Nat) : Failure :=
  new (.unencodable surrogate first last) none none

end Failure

/-- What became of a run that need not end. -/
inductive Outcome (α : Type) where
  | returned (value : α)
  | failed (failure : Failure)
  | unfinished
deriving DecidableEq

namespace Outcome

variable {α β : Type}

def map (f : α → β) : Outcome α → Outcome β
  | .returned a => .returned (f a)
  | .failed failure => .failed failure
  | .unfinished => .unfinished

def ofExcept : Except Failure α → Outcome α
  | .ok a => .returned a
  | .error failure => .failed failure

@[simp] theorem map_eq_failed_iff {f : α → β} {outcome : Outcome α} {failure : Failure} :
    outcome.map f = .failed failure ↔ outcome = .failed failure := by
  cases outcome <;> simp [map]

@[simp] theorem ofExcept_eq_failed_iff {result : Except Failure α} {failure : Failure} :
    ofExcept result = .failed failure ↔ result = .error failure := by
  cases result <;> simp [ofExcept]

end Outcome

end TapeMachine
