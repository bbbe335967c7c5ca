import TapeMachine.Command.Options

/-!
# Offers

What may stand for the word under the cursor of an unfinished command line: a spelling of an option
that is not given yet, a value of the option before it, or the script.
-/

namespace TapeMachine

namespace Command

inductive Offer where
  /-- A word, perhaps with a summary of what it means. -/
  | word (text : String) (summary : Option String)
  /-- A file whose path begins like this. -/
  | file (start : String)
  | directory (start : String)
deriving DecidableEq

/-- A command line up to the word under the cursor, and what there is of that word. -/
structure Draft where
  before : List String
  current : String
deriving DecidableEq

namespace Draft

/-- The parameters that are given before the cursor. The script is known only if the words before
the cursor can all be read. -/
def given (d : Draft) : List Parameter :=
  let (a, error) := Arguments.readable d.before
  let options := a.options.map Prod.fst
  if error.isNone && !a.positional.isEmpty then options ++ [.script] else options

def startsOption (word : String) : Bool := word.startsWith "-"

/-- An equals sign under the cursor separates an option from its value. -/
def separated (d : Draft) : Draft :=
  if d.current = "=" then { d with current := "" }
  else if startsOption d.current then
    match splitValue d.current with
    | (name, some value) => ⟨d.before ++ [name], value⟩
    | (_, none) => d
  else d

/-- The spellings, beginning like the current word, of options that are not among the given
parameters. -/
def optionOffers (d : Draft) (given : List Parameter) : List Offer :=
  if d.current.isEmpty then []
  else
    (Parameter.options.filter (!given.contains ·)).flatMap fun p =>
      (p.spellings.filter (·.startsWith d.current)).map (Offer.word · (some p.summary))

/-- The values of a parameter that begin like the current word. -/
def valueOffers (d : Draft) : Parameter → List Offer
  | .script => [.file d.current]
  | .directory => [.directory d.current]
  | .backend => (backendNames.filter (·.startsWith d.current)).map (Offer.word · none)
  | _ => []

/-- The option that waits for the current word. -/
def waiting? (d : Draft) : Option Parameter :=
  d.before.getLast?.bind fun name =>
    Parameter.options.find? fun p => p.takesValue && p.spellings.contains name

/-- What may stand for the current word. -/
def offers (d : Draft) : List Offer :=
  let given := d.given
  let d := d.separated
  if startsOption d.current && !d.before.contains "--" then d.optionOffers given
  else
    match d.waiting? with
    | some parameter => d.valueOffers parameter
    | none => if given.contains .script then d.optionOffers given else d.valueOffers .script

end Draft

end Command

end TapeMachine
