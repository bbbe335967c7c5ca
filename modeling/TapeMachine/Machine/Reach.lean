import TapeMachine.Machine.Step

/-!
# Reachable states

The states that a machine goes through, with the number of steps it takes to get there.
-/

namespace TapeMachine

namespace Machine

/-- The state after `n` steps, none if the machine stops before. -/
def after? (m : Machine) : Nat → State → Option State
  | 0, s => some s
  | n + 1, s =>
    match m.step s with
    | .next t => m.after? n t
    | _ => none

/-- A state that some run from the start goes through. -/
def IsReachable (m : Machine) (s : State) : Prop := ∃ n, m.after? n .start = some s

/-- `Reaches m history s` says that a run from the start comes to `s` when it has executed the
instructions of `history`, in that order. -/
inductive Reaches (m : Machine) : List Instruction → State → Prop where
  | start : Reaches m [] .start
  | step {history : List Instruction} {s t : State} {i : Instruction}
      (before : Reaches m history s) (code : m.code[s.counter]? = some i)
      (next : m.step s = .next t) : Reaches m (history ++ [i]) t

end Machine

end TapeMachine
