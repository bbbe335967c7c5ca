import TapeMachine.Failure
import TapeMachine.Rust.Statement
import TapeMachine.Text.Blank

/-!
# Exit statuses of generated programs

A generated program ends with status zero, or with a status of its own when the input is used up,
or by a signal; any other status comes from a panic, which only leaving the tape can cause.
-/

namespace TapeMachine

namespace Compiled

def isBlankByte (b : UInt8) : Bool := Blank.isPlain (Char.ofUInt8 b)

/-- What the exit status and the output of a generated program mean. -/
def verdict (status : Int) (stdout : List UInt8) : Except Failure (List UInt8) :=
  if status = 0 then .ok (dropEnd isBlankByte stdout)
  else if status = inputExhaustedStatus then .error (Failure.inputExhausted none .native)
  else if status < 0 then .error (Failure.signal (-status))
  else .error (Failure.outOfBounds none .native)

end Compiled

end TapeMachine
