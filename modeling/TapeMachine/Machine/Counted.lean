import TapeMachine.Host.Scene
import TapeMachine.Machine.Run

/-!
# Counted runs

Runs can share counters. A run that returns adds its steps to them; any other leaves them as they
are.
-/

namespace TapeMachine

def runCounted (program : List Instruction) (input : List UInt8) (limit : Machine.Limit)
    (stats : Stats) : Outcome (List UInt8) × Stats :=
  match runProgram program input limit with
  | .returned result => (.returned result.output, stats.addSteps result.steps)
  | .failed failure => (.failed failure, stats)
  | .unfinished => (.unfinished, stats)

end TapeMachine
