import TapeMachine.Decimal.FloatText

/-!
# Fixed decimals

A floating point number with a fixed number of decimal places. The exact value of the number is
rounded once, to the nearest such decimal.
-/

namespace TapeMachine

namespace Fixed

/-- The decimal `n / 10 ^ places`. -/
def decimalText (places n : Nat) : String :=
  let unit := Nat.pow 10 places
  let fraction := toString (n % unit)
  toString (n / unit) ++ "." ++ String.ofList (FloatText.zeros (places - fraction.length)) ++ fraction

/-- How many units of the last place a number has, rounded. -/
def unitsOf (places : Nat) (b : Binary) : Nat :=
  let value := b.value
  Fraction.round ⟨value.num * Nat.pow 10 places, value.den⟩

end Fixed

/-- A number with a fixed number of decimal places. Zeros keep their sign, and so does a number
that is rounded to zero. -/
def fixedText (places : Nat) (x : Float) : String :=
  let layout := FloatText.Layout.ofBits x.toBits.toNat
  if layout.exponent = FloatText.specialExponent then layout.text
  else
    let units := (layout.magnitude?.map (Fixed.unitsOf places)).getD 0
    (if layout.negative then "-" else "") ++ Fixed.decimalText places units

end TapeMachine
