import TapeMachine.Host.Files
import TapeMachine.Text.LineStream

/-!
# Reading scripts

A script file is a whole program, and the program's input is a line of standard input. A program
from standard input is its first line, and the input its second; a file may take the place of
standard input. All of them have to be UTF-8, as far as they are read.
-/

namespace TapeMachine

namespace Command

/-- The name of a file that takes the place of standard input. -/
def standInName : String := "<stdin>"

/-- A program with the line that it may read, which is none if it cannot be decoded. -/
structure Script where
  filename : String
  source : List Char
  inputLine : Option (List Char)
deriving DecidableEq

/-- The next line of a stream, without the rest. -/
def lineOf? (stream : LineStream) : Option (List Char) := stream.next?.map Prod.fst

/-- A script whose first line is the program. -/
def Script.ofStream? (stream : LineStream) : Option Script :=
  stream.next?.map fun (source, rest) => ⟨"<STDIN>", source, lineOf? rest⟩

/-- The script of that name, none if it cannot be decoded. -/
def Script.load? (files : Files) (workingDirectory name : String) (stdin : List UInt8) :
    Option Script :=
  if name = "-" then Script.ofStream? (.ofBytes stdin)
  else
    let data :=
      match files.locate workingDirectory name with
      | .ok (.file data) => data
      | _ => []
    if name = standInName then Script.ofStream? (.ofTextFile data)
    else
      (Utf8.decode? data).map fun text =>
        ⟨name, unifyLineBreaks text, lineOf? (.ofBytes stdin)⟩

end Command

end TapeMachine
