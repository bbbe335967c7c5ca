/-!
# UTF-8

Text that arrives in blocks of bytes. A block may end inside a character, whose bytes then wait for
the next block; bytes that no character can hold are refused at once.
-/

namespace TapeMachine

namespace Utf8

/-- The text that bytes encode, if they do. -/
def decode? (data : List UInt8) : Option (List Char) :=
  (String.fromUTF8? data.toByteArray).map String.toList

def between (low high b : UInt8) : Bool := low ≤ b && b ≤ high

/-- Whether a byte may stand behind the first byte of a character of several bytes. Three first
bytes allow only a part of the continuations. A surrogate is not refused before it is complete. -/
def mayFollow (first second : UInt8) : Bool :=
  if first = 0xe0 then between 0xa0 0xbf second
  else if first = 0xf0 then between 0x90 0xbf second
  else if first = 0xf4 then between 0x80 0x8f second
  else between 0x80 0xbf second

/-- Whether bytes begin a character and do not end it. No bytes at all count as such. -/
def isUnfinished : List UInt8 → Bool
  | [] => true
  | [first] => between 0xc2 0xf4 first
  | [first, second] => between 0xe0 0xf4 first && mayFollow first second
  | [first, second, third] =>
    between 0xf0 0xf4 first && mayFollow first second && between 0x80 0xbf third
  | _ => false

/-- Decode a block up to the last complete character. The bytes behind that are left over. -/
def decodeBlock? (data : List UInt8) : Option (List Char × List UInt8) :=
  (List.range 4).findSome? fun count =>
    let place := data.length - count
    let left := data.drop place
    if isUnfinished left then (decode? (data.take place)).map fun text => (text, left) else none

def blockSize : Nat := 8192

/-- Bytes in blocks, of which only the last may be small. -/
def blocks : List UInt8 → List (List UInt8)
  | [] => []
  | b :: rest => (b :: rest.take (blockSize - 1)) :: blocks (rest.drop (blockSize - 1))
termination_by data => data.length
decreasing_by
  simp only [List.length_drop, List.length_cons]
  omega

/-- A piece of text for each block and one for the end; none for a block that cannot be decoded, or
for an end inside a character. -/
def pieces (waiting : List UInt8) : List (List UInt8) → List (Option (List Char))
  | [] => [if waiting.isEmpty then some [] else none]
  | block :: rest =>
    match decodeBlock? (waiting ++ block) with
    | none => [none]
    | some (text, waiting) => some text :: pieces waiting rest

def piecesOf (data : List UInt8) : List (Option (List Char)) := pieces [] (blocks data)

end Utf8

end TapeMachine
