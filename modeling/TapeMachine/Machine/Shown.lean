import TapeMachine.Machine.Counted
import TapeMachine.Machine.Reach
import TapeMachine.Machine.Trace

/-!
# Runs that show their steps

The loop of a run as it is watched: when an instruction's turn comes, its line is printed, from
level two of verbosity on, and only then it is executed. What is printed is kept beside the state.
-/

namespace TapeMachine

namespace Machine

/-- Take up to `n` steps and add to what has been printed. -/
def runShown (m : Machine) (verbosity : Int) : Nat → State → List String → Halt × List String
  | 0, s, printed => (.suspended s, printed)
  | n + 1, s, printed =>
    let printed := if 2 ≤ verbosity then printed ++ (m.traceLine? s).toList else printed
    match m.step s with
    | .next t => m.runShown verbosity n t printed
    | .halted t => (.halted t, printed)
    | .faulted fault t => (.faulted fault t, printed)
    | .stuck => (.stuck, printed)

/-- The run of a limit starts its instruction `k`, counted from zero, which is `i`, in the
state `s`. -/
structure Starts (m : Machine) (limit : Limit) (k : Nat) (s : State) (i : Instruction) : Prop where
  lt_steps : k < limit.steps
  after : m.after? k .start = some s
  code : m.code[s.counter]? = some i

end Machine

/-- What becomes of a watched run and of the counters, and what it prints. -/
def runShown (program : List Instruction) (input : List UInt8) (limit : Machine.Limit)
    (verbosity : Int) (stats : Stats) : (Outcome (List UInt8) × Stats) × List String :=
  match Machine.load program input with
  | .error index =>
    ((.failed (Failure.unmatchedBracket index (some .interpreter)), stats), [])
  | .ok m =>
    let (halt, printed) := m.runShown verbosity limit.steps Machine.State.start []
    match halt.outcome limit with
    | .returned result => ((.returned result.output, stats.addSteps result.steps), printed)
    | .failed failure => ((.failed failure, stats), printed)
    | .unfinished => ((.unfinished, stats), printed)

end TapeMachine
