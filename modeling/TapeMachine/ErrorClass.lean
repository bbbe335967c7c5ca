/-!
# Classes of errors

An error is of one class and thereby of all classes above it. Handlers go by classes, so a handler
for errors of the system also catches the failures of a run that count as such.
-/

namespace TapeMachine

inductive ErrorClass where
  | exception
  | value
  | unicode
  | encoding
  | runtime
  | system
  | timedOut
  | general
  | unmatchedBracket
  | execution
  | outOfBounds
  | inputExhausted
  | signal
  | compilation
  | process
  | timeout
deriving DecidableEq

namespace ErrorClass

def all : List ErrorClass := [.exception, .value, .unicode, .encoding, .runtime, .system, .timedOut,
  .general, .unmatchedBracket, .execution, .outOfBounds, .inputExhausted, .signal, .compilation,
  .process, .timeout]

theorem mem_all (c : ErrorClass) : c ∈ all := by
  cases c <;> decide

def name : ErrorClass → String
  | .exception => "Exception"
  | .value => "ValueError"
  | .unicode => "UnicodeError"
  | .encoding => "UnicodeEncodeError"
  | .runtime => "RuntimeError"
  | .system => "OSError"
  | .timedOut => "TimeoutError"
  | .general => "BfError"
  | .unmatchedBracket => "BfSyntaxError"
  | .execution => "BfRuntimeError"
  | .outOfBounds => "BfOutOfBounds"
  | .inputExhausted => "BfInputExhausted"
  | .signal => "BfSignalError"
  | .compilation => "BfCompileError"
  | .process => "BfSubprocessError"
  | .timeout => "BfTimeout"

def ofName? (name : String) : Option ErrorClass := all.find? fun c => c.name = name

/-- No two classes share a name. -/
theorem ofName?_name (c : ErrorClass) : ofName? c.name = some c := by
  have hall : ∀ c ∈ all, ofName? c.name = some c := by decide +kernel
  exact hall c (mem_all c)

def parents : ErrorClass → List ErrorClass
  | .exception => []
  | .value => [.exception]
  | .unicode => [.value]
  | .encoding => [.unicode]
  | .runtime => [.exception]
  | .system => [.exception]
  | .timedOut => [.system]
  | .general => [.exception]
  | .unmatchedBracket => [.general]
  | .execution => [.general, .runtime]
  | .outOfBounds => [.execution]
  | .inputExhausted => [.execution]
  | .signal => [.execution]
  | .compilation => [.general]
  | .process => [.general, .system]
  | .timeout => [.general, .timedOut]

/-- The classes at most `n` steps above a class. -/
def above : Nat → ErrorClass → List ErrorClass
  | 0, _ => []
  | n + 1, c => c.parents ++ c.parents.flatMap (above n)

/-- All classes above a class. -/
def ancestors (c : ErrorClass) : List ErrorClass := all.filter (above 3 c).contains

def isA (c d : ErrorClass) : Bool := c = d || c.ancestors.contains d

/-- Above a class are its parents and all that is above them, so three steps are enough. -/
theorem mem_ancestors_iff {c d : ErrorClass} :
    d ∈ c.ancestors ↔ ∃ p ∈ c.parents, d = p ∨ d ∈ p.ancestors := by
  have hall : ∀ c ∈ all, ∀ d ∈ all,
      d ∈ c.ancestors ↔ ∃ p ∈ c.parents, d = p ∨ d ∈ p.ancestors := by decide +kernel
  exact hall c (mem_all c) d (mem_all d)

end ErrorClass

end TapeMachine
