/-!
# Fractions

Fractions of natural numbers that are compared, and rounded to whole numbers, without loss.
-/

namespace TapeMachine

/-- The number `num / den`, where `den` is positive. -/
structure Fraction where
  num : Nat
  den : Nat
deriving DecidableEq

namespace Fraction

/-- The fraction `n · base ^ e`. -/
def scaled (n base : Nat) (e : Int) : Fraction :=
  if 0 ≤ e then ⟨n * base.pow e.toNat, 1⟩ else ⟨n, base.pow (-e).toNat⟩

def le (x y : Fraction) : Bool := x.num * y.den ≤ y.num * x.den

def lt (x y : Fraction) : Bool := x.num * y.den < y.num * x.den

def dist (x y : Fraction) : Fraction :=
  let a := x.num * y.den
  let b := y.num * x.den
  ⟨(a - b) + (b - a), x.den * y.den⟩

/-- The nearest whole number, and of two equally near ones the even one. -/
def round (x : Fraction) : Nat :=
  let below := x.num / x.den
  let rest := 2 * (x.num % x.den)
  if rest < x.den ∨ (rest = x.den ∧ below % 2 = 0) then below else below + 1

end Fraction

end TapeMachine
