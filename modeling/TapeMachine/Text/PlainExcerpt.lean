import TapeMachine.Text.Excerpt

/-!
# Excerpts without colours

What an excerpt says, colours apart: the header and the numbered lines, word for word.
-/

namespace TapeMachine

namespace Excerpt

def plainRow (i : Nat) (line : List Char) : String :=
  Style.padLeft 5 (toString (i + 1)) ++ " | " ++ String.ofList line

def plainHeader (filename : String) (p : Position) : String :=
  s!"  File \"{filename}\", line {p.line}, column {p.column}"

/-- The lines up to two before that of the position and two behind it. -/
def plainRows (p : Position) (lines : List (List Char)) : List String :=
  (lines.zipIdx.filter fun entry => p.line - 3 ≤ entry.2 ∧ entry.2 < p.line + 2).map fun entry =>
    plainRow entry.2 entry.1

end Excerpt

/-- An excerpt without colours: an empty line, the header and the rows. -/
def plainExcerpt (filename : String) (text : List Char) (offset : Nat) : String :=
  let p := Position.ofOffset text offset
  let rows := Excerpt.plainRows p (Lines.split text)
  String.join (("" :: Excerpt.plainHeader filename p :: rows).map (· ++ "\n"))

end TapeMachine
