import TapeMachine.Decimal.Fraction

/-!
# Shortest decimals

A binary number `m · 2 ^ q` is written with the fewest decimal digits that read back as the same
number, and among those with the digits nearest to it. All comparisons are exact, in naturals.
-/

namespace TapeMachine

/-- The number `digits · 10 ^ exponent`. -/
structure Decimal where
  digits : Nat
  exponent : Int
deriving DecidableEq

/-- A positive finite binary number of 53 bits. The neighbour below is nearer when the mantissa is
the least of its binade. -/
structure Binary where
  mantissa : Nat
  exponent : Int
  isLeast : Bool
deriving DecidableEq

namespace Binary

def value (b : Binary) : Fraction := .scaled b.mantissa 2 b.exponent

/-- The least number that may round to `b`: half a unit below, or a quarter. -/
def lower (b : Binary) : Fraction :=
  .scaled (4 * b.mantissa - (if b.isLeast then 1 else 2)) 2 (b.exponent - 2)

/-- The greatest number that may round to `b`: half a unit above. -/
def upper (b : Binary) : Fraction :=
  .scaled (4 * b.mantissa + 2) 2 (b.exponent - 2)

/-- Whether a fraction rounds to `b`. The ends of the interval do when the mantissa is even. -/
def contains (b : Binary) (x : Fraction) : Bool :=
  if b.mantissa % 2 = 0 then b.lower.le x && x.le b.upper
  else b.lower.lt x && x.lt b.upper

/-- The decimal exponent of the first digit of a positive number. -/
def magnitude (b : Binary) : Int :=
  match (List.range 640).find? fun (i : Nat) => b.value.lt (.scaled 1 10 ((i : Int) - 329)) with
  | some i => (i : Int) - 330
  | none => 0

/-- The nearest grid point with the given exponent that rounds to `b`; of two equally near ones
the even one. -/
def onGrid? (b : Binary) (e : Int) : Option Decimal :=
  let grid := Fraction.scaled 1 10 (-e)
  let below := b.value.num * grid.num / (b.value.den * grid.den)
  let point (n : Nat) := Fraction.scaled n 10 e
  let low := b.contains (point below)
  let high := b.contains (point (below + 1))
  let toLow := (point below).dist b.value
  let toHigh := (point (below + 1)).dist b.value
  let lowWins := toLow.lt toHigh || (toLow.le toHigh && below % 2 = 0)
  if low && (lowWins || !high) then some ⟨below, e⟩
  else if high then some ⟨below + 1, e⟩
  else none

/-- The shortest decimal that rounds to `b`: the coarsest grid with a hit. Seventeen digits always
suffice. -/
def shortest (b : Binary) : Decimal :=
  ((List.range 17).findSome? fun (k : Nat) => b.onGrid? (b.magnitude - k)).getD ⟨0, 0⟩

end Binary

/-- Drop the zeros at the end of the digits, moving at most `fuel` of them to the exponent. -/
def Decimal.dropZeros : Nat → Decimal → Decimal
  | 0, d => d
  | fuel + 1, d => if d.digits % 10 = 0 then dropZeros fuel ⟨d.digits / 10, d.exponent + 1⟩ else d

end TapeMachine
