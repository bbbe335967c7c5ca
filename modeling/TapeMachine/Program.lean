import TapeMachine.Bracket
import TapeMachine.Content
import TapeMachine.Failure
import TapeMachine.Condense

/-!
# From program text to instructions

Brackets are checked before anything is condensed, so nothing unbalanced leaves `parseProgram`.
-/

namespace TapeMachine

def validate (source : Content) : Except Failure Unit :=
  match unmatched? source.units with
  | some position => .error (Failure.unmatchedBracket position none)
  | none => .ok ()

def parseProgram (source : Content) : Except Failure (List Instruction) :=
  match validate source with
  | .error failure => .error failure
  | .ok () => .ok (condense source.units)

end TapeMachine
