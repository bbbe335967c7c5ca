/-!
# Line and column

Lines and columns count from one, and only a line feed starts a new line. An offset behind the
end of the text is on the last line, as if the line went on.
-/

namespace TapeMachine

structure Position where
  line : Nat
  column : Nat
deriving DecidableEq

/-- The number of characters behind the last line feed. -/
def lastLineLength (text : List Char) : Nat :=
  (text.reverse.takeWhile (· ≠ '\n')).length

def Position.ofOffset (text : List Char) (offset : Nat) : Position :=
  let before := text.take offset
  ⟨before.count '\n' + 1, offset - (before.length - lastLineLength before) + 1⟩

end TapeMachine
