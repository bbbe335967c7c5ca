import TapeMachine.Command.Parameter
import TapeMachine.Decimal.Reader
import TapeMachine.Text.Fill

/-!
# Help

The page that a request for help prints: the usage, what the command does, and a table of the
options. The page is as wide as the terminal, within limits.
-/

namespace TapeMachine

namespace Command

namespace Help

/-- A row of the table: the spellings of an option and what it is for. -/
structure Entry where
  term : String
  summary : String
deriving DecidableEq

def term : Parameter → String
  | .script => "SCRIPT"
  | .input => "--input TEXT"
  | .timeout => "-t, --timeout FLOAT"
  | .backend => "-b, --backend [auto|interpret|native]"
  | .directory => "--tmp-dir DIRECTORY"
  | .compiler => "--compiler TEXT"
  | .memoryLimit => "--mem-limit INTEGER"
  | .emitRust => "--emit-rust"
  | .verbose => "-v, --verbose"
  | .stats => "--stats"
  | .plain => "-p, --plain"
  | .help => "-h, --help"

def usage : String := "Usage: bfrun [OPTIONS] [SCRIPT]"

def purpose : String :=
  "Run the program in SCRIPT, or the first line of standard input when SCRIPT is \x60-\x60."

def entries : List Entry := Parameter.options.map fun p => ⟨term p, p.summary⟩

def indent : Nat := 2

def termWidth : Nat := 30

def gap : Nat := 2

def spaces (n : Nat) : String := String.ofList (List.replicate n ' ')

/-- A summary beside its term, or below a term that is too long for its column. -/
def entryLines (width : Nat) (e : Entry) : List String :=
  let margin := spaces (indent + termWidth + gap)
  match fillLines (width - (termWidth + gap) - indent) e.summary with
  | [] => [spaces indent ++ e.term]
  | first :: rest =>
    let head :=
      if e.term.length ≤ termWidth then
        [spaces indent ++ e.term ++ spaces (termWidth + gap - e.term.length) ++ first]
      else [spaces indent ++ e.term, margin ++ first]
    head ++ rest.map (margin ++ ·)

def lines (width : Nat) : List String :=
  [usage, ""] ++ (fillLines (width - indent) purpose).map (spaces indent ++ ·) ++
    ["", "Options:"] ++ entries.flatMap (entryLines width)

/-- The width of the page on a terminal of so many columns, of which the last two stay empty. -/
def pageWidth (columns : Nat) : Nat :=
  if columns ≤ 52 then 50 else if columns ≤ 80 then columns - 2 else 78

def columnsVariable : String := "COLUMNS"

/-- The columns of the terminal, by default eighty. -/
def terminalColumns (environment : List (String × String)) : Nat :=
  match (environment.lookup columnsVariable).bind readInt? with
  | some n => if 0 < n then n.toNat else 80
  | none => 80

end Help

def helpText (environment : List (String × String)) : String :=
  String.join ((Help.lines (Help.pageWidth (Help.terminalColumns environment))).map (· ++ "\n"))

end Command

end TapeMachine
