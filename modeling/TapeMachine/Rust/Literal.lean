/-!
# Byte string literals

Printable ASCII stands for itself, apart from the quote and the backslash; every other byte is
written as a backslash, an `x` and two hexadecimal digits.
-/

namespace TapeMachine

namespace Rust

def hexDigit (n : Nat) : Char := Nat.digitChar n

/-- Whether a byte may stand for itself in a literal. -/
def isPlainByte (b : UInt8) : Bool :=
  0x20 ≤ b && b < 0x7f && b ≠ 0x22 && b ≠ 0x5c

def escapeByte (b : UInt8) : List Char :=
  if isPlainByte b then [Char.ofUInt8 b]
  else ['\\', 'x', hexDigit (b.toNat / 16), hexDigit (b.toNat % 16)]

def literalBody (data : List UInt8) : List Char :=
  data.flatMap escapeByte

end Rust

end TapeMachine
