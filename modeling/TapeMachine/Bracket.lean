import TapeMachine.Token

/-!
# Brackets in program text

A text is balanced when every `[` has its `]`. Otherwise the blame lies with the first `]` that
closes nothing, or else with the last `[` that stays open.
-/

namespace TapeMachine

/-- The offset of the bracket to blame, when the brackets at the offsets `opened` are still open in
front of the tokens, the innermost first. -/
def unmatchedFrom : List Nat → List Token → Option Nat
  | opened, [] => opened.head?
  | opened, t :: rest =>
    match t.kind, opened with
    | .loopStart, opened => unmatchedFrom (t.offset :: opened) rest
    | .loopEnd, [] => some t.offset
    | .loopEnd, _ :: opened => unmatchedFrom opened rest
    | _, opened => unmatchedFrom opened rest

/-- The offset of the bracket to blame, none for a balanced text. -/
def unmatched? (text : List Char) : Option Nat :=
  unmatchedFrom [] (Token.scan text)

end TapeMachine
