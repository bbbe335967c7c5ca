import TapeMachine.Block
import TapeMachine.Rust.Source

/-!
# The meaning of generated programs

The pointer is a 64-bit word that wraps around, a look-up outside the tape panics, and the output
is written, with a line break, only at the normal end. Text has the meaning of the program whose
text it is.
-/

namespace TapeMachine

namespace Rust

structure Memory where
  cells : Nat → UInt8
  pointer : UInt64
  taken : Nat
  buffer : List UInt8

inductive Stop where
  | panic
  | exit (status : Int)
deriving DecidableEq

namespace Memory

def initial : Memory := ⟨fun _ => 0, 0, 0, []⟩

/-- The cell at the pointer; outside the tape the look-up panics. -/
def cell? (m : Memory) : Except Stop UInt8 :=
  if m.pointer.toNat < tapeLength then .ok (m.cells m.pointer.toNat) else .error .panic

def setCell (m : Memory) (b : UInt8) : Memory :=
  { m with cells := fun i => if i = m.pointer.toNat then b else m.cells i }

def goTo (m : Memory) (pointer : UInt64) : Except Stop Memory :=
  let m := { m with pointer := pointer }
  m.cell?.map fun _ => m

/-- The condition of every loop, which looks the cell up too. -/
def isOpen (m : Memory) : Except Stop Bool := m.cell?.map fun c => decide (c ≠ 0)

end Memory

def Effect.apply (input : List UInt8) (e : Effect) (m : Memory) : Except Stop Memory :=
  match e with
  | .forward n => m.goTo (m.pointer + UInt64.ofNat n)
  | .backward n => m.goTo (m.pointer - UInt64.ofNat n)
  | .increase b => m.cell?.map fun c => m.setCell (c + b)
  | .emit => m.cell?.map fun c => { m with buffer := m.buffer ++ [c] }
  | .take =>
    match input[m.taken]? with
    | none => .error (.exit inputExhaustedStatus)
    | some b => m.cell?.map fun _ => { m with taken := m.taken + 1 }.setCell b

/-- What a process leaves: its exit status and what it wrote. -/
structure Exit where
  status : Int
  stdout : List UInt8
deriving DecidableEq

def panicStatus : Int := 101

def Exit.ofResult : Except Stop Memory → Exit
  | .ok m => ⟨0, m.buffer ++ [10]⟩
  | .error .panic => ⟨panicStatus, []⟩
  | .error (.exit status) => ⟨status, []⟩

def statements (b : Block Effect) : List Statement :=
  b.flatten Statement.effect .openLoop .closeLoop

/-- `Ends s x` says that the generated program ends with exit `x`. -/
def Source.Ends (s : Source) (x : Exit) : Prop :=
  ∃ (b : Block Effect) (n : Nat) (r : Except Stop Memory),
    statements b = s.body ∧ b.Eval (Effect.apply s.input) Memory.isOpen .initial n r ∧
      x = .ofResult r

/-- `TextEnds text x` says that the program with that text ends with exit `x`. -/
def TextEnds (text : String) (x : Exit) : Prop :=
  ∃ s : Source, s.text = text ∧ s.Ends x

end Rust

end TapeMachine
