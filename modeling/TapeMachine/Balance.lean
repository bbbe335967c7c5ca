/-!
# Balance

Whether brackets match can be told from counts alone: no stretch from the start may hold more
closing brackets than opening ones, and in the end there are as many of each. The definitions say
which bracket is to blame otherwise, and which brackets belong together.
-/

namespace TapeMachine

namespace Balance

variable {α : Type} [DecidableEq α]

def excess (start stop : α) (l : List α) : Int := (l.count start : Int) - l.count stop

/-- The closing bracket at `n` ends the shortest stretch from the start with too many of them. -/
def IsFirstStray (start stop : α) (l : List α) (n : Nat) : Prop :=
  excess start stop (l.take (n + 1)) < 0 ∧ ∀ m ≤ n, 0 ≤ excess start stop (l.take m)

/-- The opening bracket at `n` is never closed. -/
def IsUnclosed (start stop : α) (l : List α) (n : Nat) : Prop :=
  l[n]? = some start ∧
    ∀ k, 0 < k → n + k ≤ l.length → 0 < excess start stop ((l.drop n).take k)

/-- The opening bracket at `n` is the last that is never closed. -/
def IsLastUnclosed (start stop : α) (l : List α) (n : Nat) : Prop :=
  IsUnclosed start stop l n ∧ ∀ m, IsUnclosed start stop l m → m ≤ n

def IsBalanced (start stop : α) (l : List α) : Prop :=
  (∀ m, 0 ≤ excess start stop (l.take m)) ∧ excess start stop l = 0

/-- What stands strictly between two positions. -/
def between (l : List α) (i j : Nat) : List α := (l.drop (i + 1)).take (j - (i + 1))

/-- The brackets at `i` and `j` have a balanced stretch between them. -/
structure IsPair (start stop : α) (l : List α) (i j : Nat) : Prop where
  lt : i < j
  opening : l[i]? = some start
  closing : l[j]? = some stop
  inner : IsBalanced start stop (between l i j)

/-- `partner` is defined at the brackets only, is its own inverse, and leads from every opening
bracket to one that makes a pair with it. -/
structure IsPairing (start stop : α) (l : List α) (partner : Nat → Option Nat) : Prop where
  isSome_iff : ∀ i, (partner i).isSome ↔ l[i]? = some start ∨ l[i]? = some stop
  symm : ∀ i j, partner i = some j → partner j = some i
  closes : ∀ i, l[i]? = some start → ∃ j, partner i = some j ∧ IsPair start stop l i j

end Balance

end TapeMachine
