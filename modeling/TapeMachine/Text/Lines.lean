/-!
# Lines for display

A displayed line ends at any character that can start a new line on some terminal; a carriage
return and the line feed behind it are one line break. A break at the end starts no further line.
-/

namespace TapeMachine

namespace Lines

def isBreak (c : Char) : Bool :=
  let n := c.toNat
  (0x0a ≤ n && n ≤ 0x0d) || (0x1c ≤ n && n ≤ 0x1e) || n = 0x85 || n = 0x2028 || n = 0x2029

/-- Put a character in front of the first line. -/
def consFirst (c : Char) : List (List Char) → List (List Char)
  | [] => [[c]]
  | line :: rest => (c :: line) :: rest

def split : List Char → List (List Char)
  | [] => []
  | '\r' :: '\n' :: cs => [] :: split cs
  | c :: cs => if isBreak c then [] :: split cs else consFirst c (split cs)

end Lines

end TapeMachine
