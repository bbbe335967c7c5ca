/-!
# Words

A line is split into words at blanks. Quotes and backslashes keep blanks in a word: between single
quotes every character stands for itself, and between double quotes a backslash escapes only itself
and the quote. A line may end inside a word.
-/

namespace TapeMachine

namespace Words

/-- How the next character is read. -/
inductive Mode where
  | plain
  | quoted (quote : Char)
  /-- Behind a backslash, perhaps between quotes. -/
  | escaped (quote : Option Char)
deriving DecidableEq

def isBlank (c : Char) : Bool := c = ' ' || c = '\t' || c = '\r' || c = '\n'

def isQuote (c : Char) : Bool := c = '\x27' || c = '"'

/-- What a character behind a backslash stands for. -/
def unescape (c : Char) : Option Char → List Char
  | none => [c]
  | some quote => if c = '\\' ∨ c = quote then [c] else ['\\', c]

/-- Split the rest of a line, behind the beginning of a word if there is one. -/
def splitFrom : Mode → Option (List Char) → List Char → List (List Char)
  | .plain, word, [] => word.toList
  | _, word, [] => [word.getD []]
  | .plain, word, c :: rest =>
    if isBlank c then word.toList ++ splitFrom .plain none rest
    else if c = '\\' then splitFrom (.escaped none) word rest
    else if isQuote c then splitFrom (.quoted c) (some (word.getD [])) rest
    else splitFrom .plain (some (word.getD [] ++ [c])) rest
  | .quoted quote, word, c :: rest =>
    if c = quote then splitFrom .plain word rest
    else if c = '\\' ∧ quote = '"' then splitFrom (.escaped (some quote)) word rest
    else splitFrom (.quoted quote) (some (word.getD [] ++ [c])) rest
  | .escaped quote, word, c :: rest =>
    let mode := (quote.map Mode.quoted).getD .plain
    splitFrom mode (some (word.getD [] ++ unescape c quote)) rest

end Words

def words (line : String) : List String :=
  (Words.splitFrom .plain none line.toList).map String.ofList

end TapeMachine
