import TapeMachine.Machine.Run
import TapeMachine.Text.Style

/-!
# Traces

A trace has one line per instruction started, with the state in which it was started. It is
computed beside the run and cannot influence it.
-/

namespace TapeMachine

namespace Machine

open Style in
/-- How a trace shows an instruction about to be executed on the given cell. -/
def State.traceLine (s : State) (i : Instruction) (cell : UInt8) : String :=
  dim (padLeft 5 (toString s.steps) ++ " :") ++
  "  ip=" ++ bright (padRight 5 (toString s.counter)) ++
  " " ++ padRight 14 i.label ++
  " dp=" ++ padRight 5 (toString s.pointer) ++
  " cell=" ++ toString cell.toNat ++ "\n"

/-- The line for the instruction at the counter, none behind the end. -/
def traceLine? (m : Machine) (s : State) : Option String :=
  match m.code[s.counter]?, s.tape[s.pointer]? with
  | some i, some cell => some (s.traceLine i cell)
  | _, _ => none

/-- The lines of a run of up to `n` steps. -/
def trace (m : Machine) : Nat → State → List String
  | 0, _ => []
  | n + 1, s =>
    (m.traceLine? s).toList ++
      match m.step s with
      | .next t => m.trace n t
      | _ => []

end Machine

/-- The lines that a run prints at a level of verbosity: single steps are shown from level two. -/
def traceProgram (program : List Instruction) (input : List UInt8) (limit : Machine.Limit)
    (verbosity : Int) : List String :=
  match Machine.load program input with
  | .ok m => if 2 ≤ verbosity then m.trace limit.steps Machine.State.start else []
  | .error _ => []

end TapeMachine
