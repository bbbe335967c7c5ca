import TapeMachine.Jumps

/-!
# States of the machine

The tape has a fixed number of byte cells. A loaded machine is a program with its jump table and
its input; everything that changes during a run is in the state.
-/

namespace TapeMachine

def tapeLength : Nat := 30000

structure Machine where
  code : Array Instruction
  jumps : JumpTable
  input : Array UInt8
deriving DecidableEq

namespace Machine

structure State where
  tape : Array UInt8
  pointer : Nat
  counter : Nat
  cursor : Nat
  output : Array UInt8
  steps : Nat
deriving DecidableEq

def State.start : State where
  tape := Array.replicate tapeLength 0
  pointer := 0
  counter := 0
  cursor := 0
  output := #[]
  steps := 0

/-- A program with its input, unless its loops are unbalanced. -/
def load (program : List Instruction) (input : List UInt8) : Except Nat Machine :=
  (JumpTable.build program).map fun jumps => ⟨program.toArray, jumps, input.toArray⟩

end Machine

end TapeMachine
