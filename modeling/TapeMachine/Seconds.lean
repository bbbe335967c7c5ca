import TapeMachine.Decimal.FloatText
import TapeMachine.Decimal.Reader

/-!
# Seconds

An amount of seconds is a whole number, which is kept exactly, or a floating point number. Sums and
differences of whole numbers are whole; in all others a whole number is rounded first. Comparisons
are exact.
-/

namespace TapeMachine

inductive Seconds where
  | whole (n : Int)
  | real (x : Float)

namespace Seconds

def toFloat : Seconds → Float
  | .whole n =>
    let x := NumberReader.toFloat n.natAbs 0
    if n < 0 then -x else x
  | .real x => x

instance : Add Seconds where
  add
    | .whole m, .whole n => .whole (m + n)
    | s, t => .real (s.toFloat + t.toFloat)

instance : Sub Seconds where
  sub
    | .whole m, .whole n => .whole (m - n)
    | s, t => .real (s.toFloat - t.toFloat)

instance : OfNat Seconds 0 := ⟨.whole 0⟩

/-- No finite floating point number needs a smaller unit than `2 ^ -1074`. -/
def finestExponent : Nat := 1074

/-- An amount in the finest units. -/
def units : Seconds → Int
  | .whole n => n * (Nat.pow 2 finestExponent : Nat)
  | .real x =>
    let layout := FloatText.Layout.ofBits x.toBits.toNat
    let magnitude : Nat :=
      match layout.magnitude? with
      | some b => b.mantissa * Nat.pow 2 (b.exponent + finestExponent).toNat
      | none => 0
    if layout.negative then -magnitude else magnitude

instance : LE Seconds := ⟨fun s t => s.units ≤ t.units⟩

instance : LT Seconds := ⟨fun s t => s.units < t.units⟩

instance : DecidableLE Seconds := fun s t => inferInstanceAs (Decidable (s.units ≤ t.units))

instance : DecidableLT Seconds := fun s t => inferInstanceAs (Decidable (s.units < t.units))

end Seconds

end TapeMachine
