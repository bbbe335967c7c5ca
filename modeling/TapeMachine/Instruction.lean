/-!
# Instructions of the tape machine

A program is a list of instructions. Moves and additions carry a signed count, so one
instruction stands for a whole run of equal characters.
-/

namespace TapeMachine

inductive Instruction where
  | moveBy (count : Int)
  | addBy (count : Int)
  | print
  | read
  | loopStart
  | loopEnd
deriving DecidableEq

namespace Instruction

/-- The instruction that one character of program text stands for; any other character is
commentary. -/
def ofChar? : Char → Option Instruction
  | '>' => some (.moveBy 1)
  | '<' => some (.moveBy (-1))
  | '+' => some (.addBy 1)
  | '-' => some (.addBy (-1))
  | '.' => some .print
  | ',' => some .read
  | '[' => some .loopStart
  | ']' => some .loopEnd
  | _ => none

/-- The shortest program text that means the instruction. -/
def sourceText : Instruction → List Char
  | .moveBy d => List.replicate d.natAbs (if 0 < d then '>' else '<')
  | .addBy d => List.replicate d.natAbs (if 0 < d then '+' else '-')
  | .print => ['.']
  | .read => [',']
  | .loopStart => ['[']
  | .loopEnd => [']']

/-- A count with its sign, which zero has too. -/
def signedCount (d : Int) : String :=
  (if 0 ≤ d then "+" else "-") ++ toString d.natAbs

def label : Instruction → String
  | .moveBy d => "MoveBy(" ++ signedCount d ++ ")"
  | .addBy d => "AddBy(" ++ signedCount d ++ ")"
  | .print => "Print"
  | .read => "Read"
  | .loopStart => "LoopStart"
  | .loopEnd => "LoopEnd"

end Instruction

def sourceText (program : List Instruction) : List Char :=
  program.flatMap Instruction.sourceText

end TapeMachine
