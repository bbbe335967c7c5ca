import TapeMachine.Failure
import TapeMachine.Machine.Step

/-!
# Runs

A run executes at most a given number of steps. That number is either a deadline, given as the
poll that finds it expired, or mere fuel. A deadline is polled once after every executed
instruction, before the counter moves on, so `n` polls leave time for exactly `n` steps.
-/

namespace TapeMachine

namespace Machine

inductive Halt where
  | halted (s : State)
  | faulted (fault : Fault) (s : State)
  | suspended (s : State)
  | stuck

/-- Take up to `n` steps. -/
def run (m : Machine) : Nat → State → Halt
  | 0, s => .suspended s
  | n + 1, s =>
    match m.step s with
    | .next t => m.run n t
    | .halted t => .halted t
    | .faulted fault t => .faulted fault t
    | .stuck => .stuck

inductive Limit where
  /-- The deadline is expired from this poll on, the first poll being poll one. -/
  | poll (n : Nat)
  | fuel (n : Nat)
deriving DecidableEq

def Limit.steps : Limit → Nat
  | .poll n => max n 1
  | .fuel n => n

def Fault.failure (s : State) : Fault → Failure
  | .outOfBounds => Failure.outOfBounds (some s.counter) .interpreter
  | .inputExhausted => Failure.inputExhausted (some s.counter) .interpreter

/-- What a finished run leaves behind. -/
structure Result where
  output : List UInt8
  steps : Nat
deriving DecidableEq

/-- The outcome of a run. Out of time, the failing position is the last instruction reached; out
of fuel, nothing is known. A machine that was loaded never gets stuck. -/
def Halt.outcome (limit : Limit) : Halt → Outcome Result
  | .halted s => .returned ⟨s.output.toList, s.steps⟩
  | .faulted fault s => .failed (fault.failure s)
  | .suspended s =>
    match limit with
    | .poll _ => .failed (Failure.timeout (some ((s.counter : Int) - 1)) .interpreter)
    | .fuel _ => .unfinished
  | .stuck => .unfinished

end Machine

def runProgram (program : List Instruction) (input : List UInt8) (limit : Machine.Limit) :
    Outcome Machine.Result :=
  match Machine.load program input with
  | .error index => .failed (Failure.unmatchedBracket index (some .interpreter))
  | .ok m => (m.run limit.steps Machine.State.start).outcome limit

end TapeMachine
