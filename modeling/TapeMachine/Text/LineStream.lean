import TapeMachine.Text.Utf8

/-!
# Reading lines from bytes

A stream decodes its bytes only as far as the lines that are asked for reach, block by block. What
cannot be decoded is an error when its block is needed, and no sooner.
-/

namespace TapeMachine

/-- All line breaks of a text file as line feeds. -/
def unifyLineBreaks : List Char → List Char
  | '\r' :: '\n' :: rest => '\n' :: unifyLineBreaks rest
  | '\r' :: rest => '\n' :: unifyLineBreaks rest
  | c :: rest => c :: unifyLineBreaks rest
  | [] => []

/-- The line breaks of the pieces of a text file. A carriage return at the end of a piece waits for
what follows it. -/
def unifyPieces (waiting : Bool) : List (Option (List Char)) → List (Option (List Char))
  | [] => []
  | none :: _ => [none]
  | some text :: rest =>
    let text := if waiting then '\r' :: text else text
    if rest.isEmpty then [some (unifyLineBreaks text)]
    else if text.getLast? = some '\r' then
      some (unifyLineBreaks text.dropLast) :: unifyPieces true rest
    else some (unifyLineBreaks text) :: unifyPieces false rest

/-- The first line of a text, with its line feed, and what follows it. -/
def takeLine (text : List Char) : List Char × List Char :=
  let first := text.takeWhile (· ≠ '\n')
  let rest := text.dropWhile (· ≠ '\n')
  (first ++ rest.take 1, rest.drop 1)

/-- Text that has been decoded and not yet taken, and the pieces that follow it. -/
structure LineStream where
  ready : List Char
  pieces : List (Option (List Char))
deriving DecidableEq

namespace LineStream

def ofBytes (data : List UInt8) : LineStream := ⟨[], Utf8.piecesOf data⟩

/-- A stream of the lines of a text file. -/
def ofTextFile (data : List UInt8) : LineStream := ⟨[], unifyPieces false (Utf8.piecesOf data)⟩

/-- Take a line, after which the given pieces follow, and decode them as far as it reaches. -/
def takeFrom? (ready : List Char) : List (Option (List Char)) → Option (List Char × LineStream)
  | [] =>
    let (first, rest) := takeLine ready
    some (first, ⟨rest, []⟩)
  | piece :: pieces =>
    if ready.contains '\n' then
      let (first, rest) := takeLine ready
      some (first, ⟨rest, piece :: pieces⟩)
    else
      match piece with
      | none => none
      | some text => takeFrom? (ready ++ text) pieces

/-- The next line with its line feed, which the last line may lack, and the stream behind it. None
if the line cannot be decoded. -/
def next? (s : LineStream) : Option (List Char × LineStream) := takeFrom? s.ready s.pieces

end LineStream

end TapeMachine
