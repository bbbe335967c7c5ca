import TapeMachine.Decimal.Shortest

/-!
# The written form of floating point numbers

The shortest decimal is written with a point, and with an exponent when the number is very large
or very small.
-/

namespace TapeMachine

namespace FloatText

/-- The smallest decimal exponent that is written without an exponent. -/
def leastPositional : Int := -4

/-- The smallest decimal exponent that needs one again. -/
def leastScientific : Int := 16

/-- Two digits at least, and always a sign. -/
def exponentText (e : Int) : String :=
  let digits := toString e.natAbs
  "e" ++ (if 0 ≤ e then "+" else "-") ++ (if digits.length < 2 then "0" ++ digits else digits)

def zeros (n : Nat) : List Char := List.replicate n '0'

/-- The text of a positive decimal without zeros at the end of its digits. -/
def ofDecimal (d : Decimal) : String :=
  let digits := (toString d.digits).toList
  let magnitude := d.exponent + digits.length - 1
  if magnitude < leastPositional ∨ leastScientific ≤ magnitude then
    let fraction := if digits.length ≤ 1 then [] else '.' :: digits.drop 1
    String.ofList (digits.take 1 ++ fraction) ++ exponentText magnitude
  else if magnitude < 0 then
    String.ofList ('0' :: '.' :: zeros (-magnitude - 1).toNat ++ digits)
  else
    let whole := (magnitude + 1).toNat
    if digits.length ≤ whole then
      String.ofList (digits ++ zeros (whole - digits.length) ++ ['.', '0'])
    else
      String.ofList (digits.take whole ++ '.' :: digits.drop whole)

/-- The three fields of the 64 bits of a number. -/
structure Layout where
  negative : Bool
  exponent : Nat
  fraction : Nat
deriving DecidableEq

/-- The weight of the lowest bit of the exponent. -/
def fractionUnit : Nat := 0x10000000000000

/-- The exponent of infinities and of what is not a number. -/
def specialExponent : Nat := 0x7ff

def Layout.ofBits (bits : Nat) : Layout :=
  ⟨bits / fractionUnit / 0x800 % 2 = 1, bits / fractionUnit % 0x800, bits % fractionUnit⟩

/-- The magnitude of a finite number, none for zero. The least exponent has no hidden bit. -/
def Layout.magnitude? (l : Layout) : Option Binary :=
  if l.exponent = 0 then
    if l.fraction = 0 then none else some ⟨l.fraction, -1074, false⟩
  else
    some ⟨fractionUnit + l.fraction, (l.exponent : Int) - 1075, l.fraction = 0 ∧ 1 < l.exponent⟩

def Layout.text (l : Layout) : String :=
  let sign := if l.negative then "-" else ""
  if l.exponent = specialExponent then
    if l.fraction = 0 then sign ++ "inf" else "nan"
  else
    match l.magnitude? with
    | none => sign ++ "0.0"
    | some b => sign ++ ofDecimal (b.shortest.dropZeros 20)

def ofFloat (x : Float) : String := (Layout.ofBits x.toBits.toNat).text

end FloatText

end TapeMachine
