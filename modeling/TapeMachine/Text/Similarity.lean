import TapeMachine.Decimal.Fraction

/-!
# Similar words

Two texts are alike as far as they can be matched: the longest stretch that both hold is matched
first, then what stands before it in both, and what stands behind it in both.
-/

namespace TapeMachine

namespace Similarity

def commonStart : List Char → List Char → Nat
  | a :: s, b :: t => if a = b then commonStart s t + 1 else 0
  | _, _ => 0

/-- A stretch that two texts share, by its places in both. -/
structure Stretch where
  left : Nat
  right : Nat
  size : Nat
deriving DecidableEq

/-- The shared stretches, by their places in the first text and then in the second. -/
def stretches (s t : List Char) : List Stretch :=
  (List.range s.length).flatMap fun i =>
    (List.range t.length).map fun j => ⟨i, j, commonStart (s.drop i) (t.drop j)⟩

/-- The longer stretch, or the first if both are equally long. -/
def Stretch.longer (x y : Stretch) : Stretch := if x.size < y.size then y else x

def longestStretch (s t : List Char) : Stretch :=
  (stretches s t).foldl Stretch.longer ⟨0, 0, 0⟩

def matched (s t : List Char) : Nat :=
  match longestStretch s t with
  | ⟨left, right, size⟩ =>
    if 0 < size ∧ left < s.length then
      matched (s.take left) (t.take right) + size +
        matched (s.drop (left + size)) (t.drop (right + size))
    else 0
termination_by s.length
decreasing_by
  · simp only [List.length_take]
    omega
  · simp only [List.length_drop]
    omega

/-- The part of the characters of both texts that is matched. -/
def ratio (s t : String) : Fraction :=
  ⟨2 * matched s.toList t.toList, s.length + t.length⟩

/-- No two texts of these lengths are more alike: at best all of the shorter one is matched. -/
def bestRatio (m n : Nat) : Fraction := ⟨2 * (if m ≤ n then m else n), m + n⟩

structure Candidate where
  word : String
  likeness : Fraction
deriving DecidableEq

/-- Whether a candidate comes before another: the more alike, and of two equally alike ones the
later in the order of words. -/
def Candidate.before (x y : Candidate) : Bool :=
  y.likeness.lt x.likeness || (y.likeness.le x.likeness && !(x.word < y.word))

/-- At most `count` of the words, those most alike to the given one, the most alike first. None of
them is less alike than `cutoff`; words whose lengths rule it out are not matched at all. -/
def closest (count : Nat) (cutoff : Fraction) (word : String) (words : List String) :
    List String :=
  let likely := words.filter fun other => cutoff.le (bestRatio other.length word.length)
  let candidates := likely.map fun other => Candidate.mk other (ratio other word)
  let close := candidates.filter fun c => cutoff.le c.likeness
  ((close.mergeSort Candidate.before).take count).map Candidate.word

end Similarity

end TapeMachine
