import TapeMachine.Input
import TapeMachine.Machine.State
import TapeMachine.Rust.Literal
import TapeMachine.Rust.Statement

/-!
# Generated Rust programs

A generated program carries its input as a literal, has one indented line per statement and writes
its output, followed by a line break, only when it ends normally.
-/

namespace TapeMachine

namespace Rust

structure Source where
  input : List UInt8
  body : List Statement
deriving DecidableEq

namespace Source

def ofProgram (program : List Instruction) (input : List UInt8) : Source :=
  ⟨input, program.map Statement.ofInstruction⟩

def opening : String :=
  "#![allow(unused_mut, unused_variables)]\n" ++
  "use std::io::Write;\n" ++
  "use std::num::Wrapping;\n" ++
  "\n" ++
  "fn main() \x7b\n" ++
  "    let mut _m = [Wrapping(0u8); " ++ toString tapeLength ++ "];\n" ++
  "    let (mut _p, mut _b) = (0usize, 0usize);\n" ++
  "    let mut _o: Vec<u8> = Vec::new();\n"

def closing : String :=
  "    let mut _out = std::io::stdout();\n" ++
  "    _out.write_all(&_o).unwrap();\n" ++
  "    _out.write_all(b\"\\n\").unwrap();\n" ++
  "\x7d\n"

def inputLine (input : List UInt8) : String :=
  "    let _i: &[u8] = b\"" ++ String.ofList (literalBody input) ++ "\";\n"

/-- Four blanks per level, and none at level zero or below. -/
def indentation (depth : Int) : String :=
  String.ofList (List.replicate (4 * depth.toNat) ' ')

/-- One line per statement, from a nesting depth on. The braces of a loop are not indented with
its body. -/
def bodyLines : Int → List Statement → List String
  | _, [] => []
  | depth, s :: rest =>
    let before := if s = .closeLoop then depth - 1 else depth
    let after := if s = .openLoop then before + 1 else before
    (indentation before ++ s.text ++ "\n") :: bodyLines after rest

def text (s : Source) : String :=
  String.join (opening :: inputLine s.input :: bodyLines 1 s.body ++ [closing])

end Source

/-- The text of the Rust program that runs the instructions on the input. -/
def code (program : List Instruction) (input : List UInt8) : String :=
  (Source.ofProgram program input).text

def translate (program : List Instruction) (input : Option Input) : Except Failure String :=
  (inputBytes input).map (code program)

end Rust

end TapeMachine
