import TapeMachine.Text.Excerpt

/-!
# The look-ups of an excerpt

An excerpt looks its lines up by their indices, and the character that it highlights by its column
if the line is long enough. The same excerpt, look-up by look-up, fails when one is out of range.
-/

namespace TapeMachine

namespace Excerpt

open Style

def highlightAt? (column : Nat) (chars : List Char) : Option String :=
  if 0 < column ∧ column ≤ chars.length then
    chars[column - 1]?.map fun c =>
      String.ofList (chars.take (column - 1)) ++ highlight c ++ String.ofList (chars.drop column)
  else some (String.ofList chars)

def row? (p : Position) (lines : List (List Char)) (i : Nat) : Option String :=
  lines[i]?.bind fun line =>
    let number := padLeft 5 (toString (i + 1)) ++ " |"
    if i + 1 = p.line then
      (highlightAt? p.column line).map fun shown => bright number ++ " " ++ shown
    else
      some (dim number ++ " " ++ String.ofList line)

/-- The rows for the indices from two lines before that of the position to two behind it. -/
def rows? (p : Position) (lines : List (List Char)) : Option (List String) :=
  (List.range' (p.line - 3) (min lines.length (p.line + 2) - (p.line - 3))).mapM (row? p lines)

end Excerpt

/-- An excerpt, or none if a look-up fails. -/
def excerpt? (filename : String) (text : List Char) (offset : Nat) : Option String :=
  let p := Position.ofOffset text offset
  (Excerpt.rows? p (Lines.split text)).map fun rows =>
    "\n" ++ String.intercalate "\n" (Excerpt.header filename p :: rows) ++ "\n"

end TapeMachine
