/-!
# Text and bytes

Programs come either as text or as raw bytes. Offsets into text count characters, offsets into
bytes count bytes: `units` makes both a list with one entry per offset.
-/

namespace TapeMachine

inductive Content where
  | text (chars : List Char)
  | bytes (data : List UInt8)
deriving DecidableEq

def decodeLatin1 (data : List UInt8) : List Char :=
  data.map Char.ofUInt8

theorem toNat_ofUInt8 (b : UInt8) : (Char.ofUInt8 b).toNat = b.toNat :=
  UInt8.toNat_toUInt32 b

def encodeUtf8 (chars : List Char) : List UInt8 :=
  chars.flatMap String.utf8EncodeChar

namespace Content

/-- One character per offset. -/
def units : Content → List Char
  | .text chars => chars
  | .bytes data => decodeLatin1 data

end Content

end TapeMachine
