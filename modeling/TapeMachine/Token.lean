/-!
# Tokens of program text

Runs of moves and runs of additions are single tokens, the other four instruction characters
are tokens of their own, and everything else is commentary between tokens.
-/

namespace TapeMachine

inductive TokenKind where
  | move
  | delta
  | print
  | read
  | loopStart
  | loopEnd
deriving DecidableEq

namespace TokenKind

def ofChar? : Char → Option TokenKind
  | '>' => some .move
  | '<' => some .move
  | '+' => some .delta
  | '-' => some .delta
  | '.' => some .print
  | ',' => some .read
  | '[' => some .loopStart
  | ']' => some .loopEnd
  | _ => none

/-- Whether neighbouring characters of this kind share a token. -/
def isRun : TokenKind → Bool
  | .move => true
  | .delta => true
  | _ => false

def label : TokenKind → String
  | .move => "MOVE"
  | .delta => "DELTA"
  | .print => "PRINT"
  | .read => "READ"
  | .loopStart => "LOOP_START"
  | .loopEnd => "LOOP_END"

end TokenKind

structure Token where
  kind : TokenKind
  offset : Nat
  text : List Char
deriving DecidableEq

namespace Token

/-- Put a character in front of tokens: it extends the first token if that one is a run of its
kind and starts right behind it. -/
def attach (kind : TokenKind) (offset : Nat) (c : Char) : List Token → List Token
  | [] => [⟨kind, offset, [c]⟩]
  | t :: ts =>
    if kind.isRun ∧ t.kind = kind ∧ t.offset = offset + 1 then
      ⟨kind, offset, c :: t.text⟩ :: ts
    else
      ⟨kind, offset, [c]⟩ :: t :: ts

def scanFrom : Nat → List Char → List Token
  | _, [] => []
  | n, c :: cs =>
    match TokenKind.ofChar? c with
    | some kind => attach kind n c (scanFrom (n + 1) cs)
    | none => scanFrom (n + 1) cs

def scan (text : List Char) : List Token := scanFrom 0 text

end Token

end TapeMachine
