import TapeMachine.Machine.Run

/-!
# Runs that poll a token

Under a deadline a token is polled after every executed instruction, when a bracket has jumped but
the counter has not moved on yet. A poll that finds the token expired breaks the run off there.
-/

namespace TapeMachine

namespace Machine

/-- The index that the step from a state reaches before the counter moves on: that of the partner
if the instruction is a bracket that jumps, else its own. -/
def landing (m : Machine) (s : State) : Nat :=
  let partner := (m.jumps.target? s.counter).getD s.counter
  match m.code[s.counter]?, s.tape[s.pointer]? with
  | some .loopStart, some cell => if cell = 0 then partner else s.counter
  | some .loopEnd, some cell => if cell = 0 then s.counter else partner
  | _, _ => s.counter

/-- `Polled m expired k s x` says that the run from `s`, after `k` polls, comes to `x`; `expired n`
says that poll `n` finds the token expired. -/
inductive Polled (m : Machine) (expired : Nat → Prop) : Nat → State → Halt → Prop where
  | halted {k : Nat} {s t : State} (step : m.step s = .halted t) : Polled m expired k s (.halted t)
  | faulted {k : Nat} {s t : State} {fault : Fault} (step : m.step s = .faulted fault t) :
      Polled m expired k s (.faulted fault t)
  | stuck {k : Nat} {s : State} (step : m.step s = .stuck) : Polled m expired k s .stuck
  | broken {k : Nat} {s t : State} (step : m.step s = .next t) (poll : expired (k + 1)) :
      Polled m expired k s (.suspended t)
  | resumed {k : Nat} {s t : State} {x : Halt} (step : m.step s = .next t)
      (poll : ¬ expired (k + 1)) (rest : Polled m expired (k + 1) t x) : Polled m expired k s x

end Machine

end TapeMachine
