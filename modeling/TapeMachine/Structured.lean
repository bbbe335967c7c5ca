import TapeMachine.Block
import TapeMachine.Machine.Step

/-!
# Structured meaning of programs

A balanced program is the flat form of a block of actions. Its structured meaning knows neither
counter nor jumps: it evaluates the block on a store whose tape is a function and whose input is
what is still unread.
-/

namespace TapeMachine

namespace Structured

/-- An instruction that is not a bracket. -/
inductive Action where
  | move (count : Int)
  | add (count : Int)
  | print
  | read
deriving DecidableEq

def Action.instruction : Action → Instruction
  | .move d => .moveBy d
  | .add d => .addBy d
  | .print => .print
  | .read => .read

def program (b : Block Action) : List Instruction :=
  b.flatten Action.instruction .loopStart .loopEnd

structure Store where
  cells : Nat → UInt8
  pointer : Nat
  unread : List UInt8
  output : List UInt8

namespace Store

def fresh (input : List UInt8) : Store := ⟨fun _ => 0, 0, input, []⟩

def cell (s : Store) : UInt8 := s.cells s.pointer

def setCell (s : Store) (b : UInt8) : Store :=
  { s with cells := fun i => if i = s.pointer then b else s.cells i }

/-- Whether a loop goes on. This can always be told. -/
def isOpen {ε : Type} (s : Store) : Except ε Bool := .ok (s.cell ≠ 0)

end Store

def Action.apply (s : Store) : Action → Except Machine.Fault Store
  | .move d =>
    if 0 ≤ (s.pointer : Int) + d ∧ (s.pointer : Int) + d < tapeLength then
      .ok { s with pointer := ((s.pointer : Int) + d).toNat }
    else .error .outOfBounds
  | .add d => .ok (s.setCell (UInt8.ofNat ((s.cell.toNat + d) % 256).toNat))
  | .print => .ok { s with output := s.output ++ [s.cell] }
  | .read =>
    match s.unread with
    | [] => .error .inputExhausted
    | b :: rest => .ok (Store.setCell { s with unread := rest } b)

abbrev Failed := Nat × Machine.Fault

def applyAt (a : Nat × Action) (s : Store) : Except Failed Store :=
  match a.2.apply s with
  | .ok t => .ok t
  | .error fault => .error (a.1, fault)

/-- `Runs b input n r` says that the block, run on the input, comes to the result `r` after `n`
steps. -/
def Runs (b : Block Action) (input : List UInt8) (n : Nat) (r : Except Failed Store) : Prop :=
  (b.indexed 0).Eval applyAt Store.isOpen (Store.fresh input) n r

end Structured

end TapeMachine
