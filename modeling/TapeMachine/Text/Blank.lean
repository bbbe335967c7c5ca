/-!
# Blanks

The blanks that are dropped at the end of lines and around numbers. The set is that of the
Unicode property `White_Space` together with the four information separators.
-/

namespace TapeMachine

namespace Blank

/-- The blanks beyond ASCII. -/
def isWide (c : Char) : Bool :=
  let n := c.toNat
  n = 0x85 || n = 0xa0 || n = 0x1680 || (0x2000 ≤ n && n ≤ 0x200a) ||
    n = 0x2028 || n = 0x2029 || n = 0x202f || n = 0x205f || n = 0x3000

/-- The blanks of ASCII proper: tabulator, line breaks, page break and space. -/
def isPlain (c : Char) : Bool :=
  let n := c.toNat
  (0x09 ≤ n && n ≤ 0x0d) || n = 0x20

def isSeparator (c : Char) : Bool :=
  let n := c.toNat
  0x1c ≤ n && n ≤ 0x1f

def isBlank (c : Char) : Bool := isPlain c || isSeparator c || isWide c

end Blank

/-- A list without the entries at its end that satisfy a test. -/
def dropEnd {α : Type} (p : α → Bool) (l : List α) : List α :=
  (l.reverse.dropWhile p).reverse

/-- A text without the blanks at its end. -/
def trimEnd (s : String) : String :=
  String.ofList (dropEnd Blank.isBlank s.toList)

end TapeMachine
