import TapeMachine.Text.Lines
import TapeMachine.Text.Position
import TapeMachine.Text.Style

/-!
# Excerpts of program text

An excerpt shows the lines around a position, with numbers, and highlights the character there.
-/

namespace TapeMachine

namespace Excerpt

open Style

def highlight (c : Char) : String :=
  code "48;5;30" ++ code "1;97" ++ String.singleton c ++ reset

/-- A line whose character in the given column, counted from one, stands out. -/
def highlightAt (column : Nat) (chars : List Char) : String :=
  match column with
  | 0 => String.ofList chars
  | k + 1 =>
    match chars[k]? with
    | some c => String.ofList (chars.take k) ++ highlight c ++ String.ofList (chars.drop (k + 1))
    | none => String.ofList chars

/-- The line with index `i`, counted from zero, in an excerpt for a position. -/
def row (p : Position) (i : Nat) (line : List Char) : String :=
  let number := padLeft 5 (toString (i + 1)) ++ " |"
  if i + 1 = p.line then
    bright number ++ " " ++ highlightAt p.column line
  else
    dim number ++ " " ++ String.ofList line

def header (filename : String) (p : Position) : String :=
  bright s!"  File \"{filename}\", line {p.line}, column {p.column}"

/-- The indices of the lines shown around a line: two before it and two behind it. -/
def window (line count : Nat) : List Nat :=
  (List.range (min count (line + 2))).drop (line - 3)

def rows (p : Position) (lines : List (List Char)) : List String :=
  (window p.line lines.length).filterMap fun i => (lines[i]?).map (row p i)

end Excerpt

/-- The lines of a text around an offset, under a header that names the file. -/
def excerpt (filename : String) (text : List Char) (offset : Nat) : String :=
  let p := Position.ofOffset text offset
  let lines := Excerpt.header filename p :: Excerpt.rows p (Lines.split text)
  "\n" ++ String.intercalate "\n" lines ++ "\n"

end TapeMachine
