import TapeMachine.Rust.Literal

/-!
# Reading byte string literals

The rules of the target language for what stands between the quotes: printable ASCII stands for
itself, a backslash starts an escape, and the first quote that is not escaped ends the literal.
-/

namespace TapeMachine

namespace Rust

def hexDigitValue? (c : Char) : Option Nat :=
  if c.isDigit then some (c.toNat - '0'.toNat)
  else if 'a' ≤ c ∧ c ≤ 'f' then some (c.toNat - 'a'.toNat + 10)
  else if 'A' ≤ c ∧ c ≤ 'F' then some (c.toNat - 'A'.toNat + 10)
  else none

def hexByte? (a b : Char) : Option UInt8 :=
  match hexDigitValue? a, hexDigitValue? b with
  | some x, some y => some (UInt8.ofNat (16 * x + y))
  | _, _ => none

def simpleEscape? : Char → Option UInt8
  | 'n' => some 10
  | 'r' => some 13
  | 't' => some 9
  | '0' => some 0
  | '\\' => some 0x5c
  | '\'' => some 0x27
  | '"' => some 0x22
  | _ => none

def plainByte? (c : Char) : Option UInt8 :=
  if 0x20 ≤ c.toNat ∧ c.toNat < 0x7f then some (UInt8.ofNat c.toNat) else none

/-- Read a literal from behind its opening quote: its bytes and what follows the closing quote. -/
def readLiteral? : List Char → Option (List UInt8 × List Char)
  | [] => none
  | '"' :: rest => some ([], rest)
  | '\\' :: 'x' :: a :: b :: rest =>
    match hexByte? a b, readLiteral? rest with
    | some byte, some (data, rest) => some (byte :: data, rest)
    | _, _ => none
  | '\\' :: c :: rest =>
    match simpleEscape? c, readLiteral? rest with
    | some byte, some (data, rest) => some (byte :: data, rest)
    | _, _ => none
  | c :: rest =>
    match plainByte? c, readLiteral? rest with
    | some byte, some (data, rest) => if c = '\\' then none else some (byte :: data, rest)
    | _, _ => none

end Rust

end TapeMachine
