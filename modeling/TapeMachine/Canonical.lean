import TapeMachine.Condense

/-!
# Canonical programs and equal texts

Condensing decides an equivalence of texts: two texts are equal if one becomes the other by adding and
removing commentary and pairs of characters that cancel. Canonical programs are its normal forms.
They can also be built from the unfolded program by putting one instruction after the other in front.
-/

namespace TapeMachine

namespace Instruction

def merges : Instruction → Instruction → Bool
  | .moveBy _, .moveBy _ => true
  | .addBy _, .addBy _ => true
  | _, _ => false

def isIdle : Instruction → Bool
  | .moveBy d => d = 0
  | .addBy d => d = 0
  | _ => false

end Instruction

/-- No instruction is idle and no two neighbours could be one. -/
def IsCanonical : List Instruction → Prop
  | [] => True
  | i :: rest => i.isIdle = false ∧ (∀ j ∈ rest.head?, i.merges j = false) ∧ IsCanonical rest

/-- Put an instruction in front of a canonical program and keep it canonical. -/
def mergeFront : Instruction → List Instruction → List Instruction
  | .moveBy d, .moveBy e :: rest => if d + e = 0 then rest else .moveBy (d + e) :: rest
  | .addBy d, .addBy e :: rest => if d + e = 0 then rest else .addBy (d + e) :: rest
  | .moveBy d, rest => if d = 0 then rest else .moveBy d :: rest
  | .addBy d, rest => if d = 0 then rest else .addBy d :: rest
  | i, rest => i :: rest

def merge (program : List Instruction) : List Instruction :=
  program.foldr mergeFront []

def readInstructions (text : List Char) : List Instruction :=
  text.filterMap Instruction.ofChar?

theorem readInstructions_cons_none {c : Char} (hc : Instruction.ofChar? c = none)
    (text : List Char) : readInstructions (c :: text) = readInstructions text :=
  List.filterMap_cons_none hc

theorem readInstructions_cons_some {c : Char} {i : Instruction} (hc : Instruction.ofChar? c = some i)
    (text : List Char) : readInstructions (c :: text) = i :: readInstructions text :=
  List.filterMap_cons_some hc

theorem readInstructions_append (s t : List Char) :
    readInstructions (s ++ t) = readInstructions s ++ readInstructions t :=
  List.filterMap_append

def cancels : Char → Char → Bool
  | '+', '-' => true
  | '-', '+' => true
  | '>', '<' => true
  | '<', '>' => true
  | _, _ => false

/-- The smallest equivalence that ignores commentary and cancelling pairs. -/
inductive SameProgram : List Char → List Char → Prop where
  | refl (s : List Char) : SameProgram s s
  | symm {s t : List Char} : SameProgram s t → SameProgram t s
  | trans {s t u : List Char} : SameProgram s t → SameProgram t u → SameProgram s u
  | comment (u v : List Char) (c : Char) (h : Instruction.ofChar? c = none) :
      SameProgram (u ++ c :: v) (u ++ v)
  | cancel (u v : List Char) (x y : Char) (h : cancels x y = true) :
      SameProgram (u ++ x :: y :: v) (u ++ v)

/-- A text without commentary and without cancelling neighbours. -/
def IsReduced : List Char → Prop
  | [] => True
  | c :: rest =>
    (Instruction.ofChar? c).isSome ∧ (∀ d ∈ rest.head?, cancels c d = false) ∧ IsReduced rest

end TapeMachine
