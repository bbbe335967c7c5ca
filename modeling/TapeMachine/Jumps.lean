import TapeMachine.Instruction

/-!
# Jump tables

The table sends the index of every loop start to the index of its loop end and back. It exists
for balanced programs only; for any other the index of the instruction to blame is reported.
-/

namespace TapeMachine

abbrev JumpTable := Array (Option Nat)

namespace JumpTable

/-- Enter a loop in both directions. -/
def link (table : JumpTable) (start stop : Nat) : JumpTable :=
  (table.setIfInBounds start (some stop)).setIfInBounds stop (some start)

@[simp] theorem size_link (table : JumpTable) (start stop : Nat) :
    (table.link start stop).size = table.size := by simp [link]

/-- Enter the loops of a program that stands at index `n`, when the loop starts at the indices
`opened` are still open, the innermost first. -/
def linkFrom : JumpTable → List Nat → Nat → List Instruction → Except Nat JumpTable
  | table, [], _, [] => .ok table
  | _, start :: _, _, [] => .error start
  | table, opened, n, .loopStart :: rest => linkFrom table (n :: opened) (n + 1) rest
  | _, [], n, .loopEnd :: _ => .error n
  | table, start :: opened, n, .loopEnd :: rest =>
    linkFrom (table.link start n) opened (n + 1) rest
  | table, opened, n, _ :: rest => linkFrom table opened (n + 1) rest

/-- The table of a program, or the index of the first loop end that closes nothing, or else of
the last loop start that stays open. -/
def build (program : List Instruction) : Except Nat JumpTable :=
  linkFrom (Array.replicate program.length none) [] 0 program

def target? (table : JumpTable) (index : Nat) : Option Nat :=
  table[index]?.join

/-- All entries by rising index. -/
def entries (table : JumpTable) : List (Nat × Nat) :=
  (List.range table.size).filterMap fun i => (table.target? i).map (i, ·)

end JumpTable

end TapeMachine
