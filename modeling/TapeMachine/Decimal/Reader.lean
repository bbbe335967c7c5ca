import TapeMachine.Text.Blank
import TapeMachine.Text.Digit

/-!
# Reading numbers

Numbers may have blanks around them, a sign, digits of any script and single underscores between
digits. Floating point numbers may also have a fraction, an exponent, or be spelled out.
-/

namespace TapeMachine

namespace NumberReader

/-- Digits of all scripts as ASCII digits, blanks beyond ASCII as spaces. -/
def plainChar (c : Char) : Char :=
  match digitValue? c with
  | some d => Nat.digitChar d
  | none => if Blank.isWide c then ' ' else c

/-- The plain characters of a text without the blanks around it. -/
def plain (s : String) : List Char :=
  dropEnd Blank.isPlain ((s.toList.map plainChar).dropWhile Blank.isPlain)

/-- Remove the underscores of a text, if each stands between two digits; `afterDigit` tells whether
a digit came before. -/
def dropUnderscores : Bool → List Char → Option (List Char)
  | _, [] => some []
  | afterDigit, '_' :: c :: rest =>
    if afterDigit && c.isDigit then (dropUnderscores true rest).map (c :: ·) else none
  | _, ['_'] => none
  | _, c :: rest => (dropUnderscores c.isDigit rest).map (c :: ·)

def digitsValue (digits : List Char) : Nat :=
  digits.foldl (fun n c => 10 * n + (c.toNat - '0'.toNat)) 0

/-- A sign, true for minus, and what follows it. -/
def takeSign : List Char → Bool × List Char
  | '-' :: rest => (true, rest)
  | '+' :: rest => (false, rest)
  | rest => (false, rest)

/-- More digits than this are not accepted for an integer. -/
def maxIntegerDigits : Nat := 4300

/-- The exponent of a floating point number: nothing, or `e` with a sign and digits. -/
def exponent? : List Char → Option Int
  | [] => some 0
  | e :: rest =>
    if e = 'e' ∨ e = 'E' then
      let (negative, digits) := takeSign rest
      if digits.isEmpty || !digits.all Char.isDigit then none
      else
        let n : Int := digitsValue digits
        some (if negative then -n else n)
    else none

/-- The number `digits · 10 ^ exponent`, zero or infinite when it is out of range. -/
def toFloat (digits : Nat) (exponent : Int) : Float :=
  let magnitude := exponent + (toString digits).length
  if digits = 0 ∨ magnitude < -400 then 0.0
  else if 400 < magnitude then 1.0 / 0.0
  else Float.ofScientific digits (exponent < 0) exponent.natAbs

def unsignedFloat? (s : List Char) : Option Float :=
  let spelled := s.map Char.toLower
  if spelled = "inf".toList ∨ spelled = "infinity".toList then some (1.0 / 0.0)
  else if spelled = "nan".toList then some (0.0 / 0.0)
  else
    let whole := s.takeWhile Char.isDigit
    let (fraction, rest) :=
      match s.dropWhile Char.isDigit with
      | '.' :: rest => (rest.takeWhile Char.isDigit, rest.dropWhile Char.isDigit)
      | rest => ([], rest)
    if whole.isEmpty && fraction.isEmpty then none
    else (exponent? rest).map fun e =>
      toFloat (digitsValue (whole ++ fraction)) (e - fraction.length)

end NumberReader

open NumberReader

def readFloat? (s : String) : Option Float :=
  match dropUnderscores false (plain s) with
  | none => none
  | some chars =>
    let (negative, rest) := takeSign chars
    (unsignedFloat? rest).map fun x => if negative then -x else x

def readInt? (s : String) : Option Int :=
  match dropUnderscores false (plain s) with
  | none => none
  | some chars =>
    let (negative, digits) := takeSign chars
    if digits.isEmpty || !digits.all Char.isDigit || maxIntegerDigits < digits.length then none
    else
      let n : Int := digitsValue digits
      some (if negative then -n else n)

end TapeMachine
