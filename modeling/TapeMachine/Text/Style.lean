/-!
# Terminal styling

The colour codes that reports and traces use, and padding to a column width.
-/

namespace TapeMachine

namespace Style

def code (parameters : String) : String := "\x1b[" ++ parameters ++ "m"

def reset : String := code "0"

def dim (s : String) : String := code "90" ++ s ++ reset

def bright (s : String) : String := code "97" ++ s ++ reset

def yellow (s : String) : String := code "33" ++ s ++ reset

def banner (s : String) : String := code "30;43" ++ s ++ reset

/-- Blanks that fill a text up to a width. -/
def fill (width : Nat) (s : String) : String :=
  String.ofList (List.replicate (width - s.length) ' ')

def padLeft (width : Nat) (s : String) : String := fill width s ++ s

def padRight (width : Nat) (s : String) : String := s ++ fill width s

end Style

end TapeMachine
