import TapeMachine.Machine.State

/-!
# Single steps

A step executes the instruction at the counter. A look-up that fails would leave the machine
stuck; the steps that can get stuck are kept apart from the two ways in which a program can fail.
-/

namespace TapeMachine

namespace Machine

inductive Fault where
  | outOfBounds
  | inputExhausted
deriving DecidableEq

inductive Step where
  | next (s : State)
  | halted (s : State)
  | faulted (fault : Fault) (s : State)
  | stuck

/-- Count the step and go on behind the instruction at `counter`. -/
def State.advance (s : State) (counter : Nat) : State :=
  { s with counter := counter + 1, steps := s.steps + 1 }

/-- Go on behind the partner of the bracket at the counter. -/
def jump (m : Machine) (s : State) : Step :=
  match m.jumps.target? s.counter with
  | some target => .next (s.advance target)
  | none => .stuck

def execute (m : Machine) (s : State) (cell : UInt8) : Instruction → Step
  | .moveBy d =>
    let target := (s.pointer : Int) + d
    if 0 ≤ target ∧ target < tapeLength then
      .next (({ s with pointer := target.toNat } : State).advance s.counter)
    else
      .faulted .outOfBounds s
  | .addBy d =>
    let tape := s.tape.setIfInBounds s.pointer (cell + UInt8.ofInt d)
    .next (({ s with tape := tape } : State).advance s.counter)
  | .print =>
    .next (({ s with output := s.output.push cell } : State).advance s.counter)
  | .read =>
    match m.input[s.cursor]? with
    | some b =>
      let tape := s.tape.setIfInBounds s.pointer b
      .next (({ s with tape := tape, cursor := s.cursor + 1 } : State).advance s.counter)
    | none => .faulted .inputExhausted s
  | .loopStart => if cell = 0 then m.jump s else .next (s.advance s.counter)
  | .loopEnd => if cell = 0 then .next (s.advance s.counter) else m.jump s

def step (m : Machine) (s : State) : Step :=
  match m.code[s.counter]?, s.tape[s.pointer]? with
  | none, _ => .halted s
  | some _, none => .stuck
  | some i, some cell => m.execute s cell i

end Machine

end TapeMachine
