import TapeMachine.Token

/-!
# The grammar of program text

A tokenizer cuts a text into pieces from left to right, each time the longest piece that one of its
terminals matches, and fails where none matches anything. The terminals of program text are those
of the instruction characters and one for commentary, whose pieces are skipped.
-/

namespace TapeMachine

/-- A terminal matches a single character that it accepts, or a run of them if it repeats. The
pieces of a terminal without a kind are skipped. -/
structure Terminal where
  kind? : Option TokenKind
  accepts : Char → Bool
  repeats : Bool

def instructionChars : List Char := ['<', '>', '+', '-', '.', ',', '[', ']']

def terminals : List Terminal := [
  ⟨some .move, fun c => c ∈ ['<', '>'], true⟩,
  ⟨some .delta, fun c => c ∈ ['+', '-'], true⟩,
  ⟨some .print, fun c => c = '.', false⟩,
  ⟨some .read, fun c => c = ',', false⟩,
  ⟨some .loopStart, fun c => c = '[', false⟩,
  ⟨some .loopEnd, fun c => c = ']', false⟩,
  ⟨none, fun c => c ∉ instructionChars, true⟩]

namespace Terminal

structure Matches (t : Terminal) (piece : List Char) : Prop where
  ne_nil : piece ≠ []
  accepts : ∀ c ∈ piece, t.accepts c = true
  single : t.repeats = false → piece.length = 1

/-- No terminal matches more of the text than `t` does. -/
structure IsLongest (grammar : List Terminal) (t : Terminal) (piece text : List Char) : Prop where
  mem : t ∈ grammar
  matched : t.Matches piece
  front : piece <+: text
  longest : ∀ u ∈ grammar, ∀ other, u.Matches other → other <+: text →
    other.length ≤ piece.length

def token? (t : Terminal) (n : Nat) (piece : List Char) : Option Token :=
  t.kind?.map (⟨·, n, piece⟩)

/-- A longest-match tokenizer makes these tokens of a text that stands at offset `n`, or fails. -/
inductive Tokenizes (grammar : List Terminal) : Nat → List Char → Option (List Token) → Prop where
  | done (n : Nat) : Tokenizes grammar n [] (some [])
  | piece {n : Nat} {t : Terminal} {piece rest : List Char} {tokens : Option (List Token)}
      (longest : IsLongest grammar t piece (piece ++ rest))
      (tail : Tokenizes grammar (n + piece.length) rest tokens) :
      Tokenizes grammar n (piece ++ rest) (tokens.map ((t.token? n piece).toList ++ ·))
  | stuck {n : Nat} {text : List Char} (ne_nil : text ≠ [])
      (unmatched : ∀ t ∈ grammar, ∀ piece, t.Matches piece → ¬piece <+: text) :
      Tokenizes grammar n text none

end Terminal

end TapeMachine
