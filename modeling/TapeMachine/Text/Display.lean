import TapeMachine.Text.Ansi
import TapeMachine.Text.Lines

/-!
# What a display shows

A terminal shows the characters that belong to no colour code, and marks those for which a code has
set a background. When a text is shown line by line, each of its characters has a place on one of
the lines, apart from those that end them.
-/

namespace TapeMachine

structure Glyph where
  char : Char
  marked : Bool
deriving DecidableEq

def Glyph.plain (chars : List Char) : List Glyph := chars.map (⟨·, false⟩)

namespace Ansi

/-- The numbers of a code, separated by semicolons; nothing stands for zero. -/
def numbersFrom (n : Nat) : List Char → List Nat
  | [] => [n]
  | c :: cs =>
    if c = ';' then n :: numbersFrom 0 cs
    else numbersFrom (10 * n + (c.toNat - '0'.toNat)) cs

/-- Whether there is a background behind a code. A colour of the palette takes three numbers. -/
def background (on : Bool) : List Nat → Bool
  | [] => on
  | 38 :: 5 :: _ :: rest => background on rest
  | 48 :: 5 :: _ :: rest => background true rest
  | n :: rest =>
    if n = 0 || n = 49 then background false rest
    else if (40 ≤ n && n ≤ 47) || (100 ≤ n && n ≤ 107) then background true rest
    else background on rest

/-- The glyphs of a text when there is a background in front of it, or none. -/
def displayFrom (on : Bool) : List Char → List Glyph
  | [] => []
  | c :: cs =>
    match _h : afterCode? colours (c :: cs) with
    | some rest =>
      let parameters := (cs.drop 1).takeWhile colours.isParameter
      displayFrom (background on (numbersFrom 0 parameters)) rest
    | none => ⟨c, on⟩ :: displayFrom on cs
termination_by s => s.length
decreasing_by
  · exact length_of_afterCode? _h
  · simp

def display (s : String) : List Glyph := displayFrom false s.toList

end Ansi

namespace Lines

/-- The line on which the character at an offset is shown, and how many stand before it there. -/
def place? : List Char → Nat → Option (Nat × Nat)
  | [], _ => none
  | '\r' :: '\n' :: _, 0 => none
  | '\r' :: '\n' :: _, 1 => none
  | '\r' :: '\n' :: cs, n + 2 => (place? cs n).map fun p => (p.1 + 1, p.2)
  | c :: _, 0 => if isBreak c then none else some (0, 0)
  | c :: cs, n + 1 =>
    (place? cs n).map fun p =>
      if isBreak c then (p.1 + 1, p.2) else if p.1 = 0 then (0, p.2 + 1) else p

/-- Every line that ends in front of an offset ends in a line feed. -/
def FeedsOnly (text : List Char) (n : Nat) : Prop :=
  ∀ k < n, ∀ c, text[k]? = some c → isBreak c →
    c = '\n' ∨ c = '\r' ∧ text[k + 1]? = some '\n'

end Lines

end TapeMachine
