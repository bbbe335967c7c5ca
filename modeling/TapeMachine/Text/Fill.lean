/-!
# Filling lines

Words are put on lines of a given width, as many on each as fit. A word that is too long for any
line has one to itself.
-/

namespace TapeMachine

namespace Fill

def lineText (line : List String) : String := String.intercalate " " line

def linesFrom (width : Nat) (line : List String) : List String → List (List String)
  | [] => [line]
  | word :: rest =>
    if (lineText (line ++ [word])).length ≤ width then linesFrom width (line ++ [word]) rest
    else line :: linesFrom width [word] rest

def lines (width : Nat) : List String → List (List String)
  | [] => []
  | word :: rest => linesFrom width [word] rest

end Fill

/-- A text whose words are separated by spaces, on lines of a width. -/
def fillLines (width : Nat) (text : String) : List String :=
  (Fill.lines width (text.splitOn " ")).map Fill.lineText

end TapeMachine
