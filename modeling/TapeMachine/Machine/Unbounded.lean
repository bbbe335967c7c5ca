import TapeMachine.Machine.Reach
import TapeMachine.Machine.Run

/-!
# Runs without a deadline

A run without a deadline comes to an outcome, whatever number of steps that takes, or it never
ends. Fuel only says how far a run is followed, so an outcome is what some amount of it reveals.
-/

namespace TapeMachine

/-- The run of the program on the input ends with the outcome. -/
def EndsWith (program : List Instruction) (input : List UInt8)
    (outcome : Outcome Machine.Result) : Prop :=
  outcome ≠ .unfinished ∧ ∃ fuel, runProgram program input (.fuel fuel) = outcome

/-- The program can be loaded, and after any number of steps its run can still take another. -/
def RunsForever (program : List Instruction) (input : List UInt8) : Prop :=
  ∃ m, Machine.load program input = .ok m ∧ ∀ n, ∃ s, m.after? n .start = some s

end TapeMachine
