import TapeMachine.Command.Offers
import TapeMachine.Text.Words

/-!
# Shells

A shell that completes command lines asks through environment variables: first for a script that
sets the completion up, and then for the offers for a draft. Each shell has its own form of the
answers.
-/

namespace TapeMachine

namespace Command

inductive Shell where
  | bash
  | zsh
  | fish
  | powershell
deriving DecidableEq

namespace Shell

def requestVariable : String := "_BFRUN_COMPLETE"

def wordsVariable : String := "COMP_WORDS"

def cursorVariable : String := "COMP_CWORD"

inductive Request where
  | script (shell : Shell)
  | offers (shell : Shell)
  /-- No shell asks like this. -/
  | unknown
deriving DecidableEq

def Request.ofText : String → Request
  | "bash_source" => .script .bash
  | "zsh_source" => .script .zsh
  | "fish_source" => .script .fish
  | "powershell_source" => .script .powershell
  | "bash_complete" => .offers .bash
  | "zsh_complete" => .offers .zsh
  | "fish_complete" => .offers .fish
  | "powershell_complete" => .offers .powershell
  | _ => .unknown

/-- The request in an environment, if there is one. -/
def request? (environment : List (String × String)) : Option Request :=
  match environment.lookup requestVariable with
  | none => none
  | some text => if text.isEmpty then none else some (.ofText text)

/-- Why there is no draft in an environment. -/
inductive DraftError where
  | missingVariable (name : String)
  | badCursor
  | noWord
deriving DecidableEq

def DraftError.message : DraftError → String
  | .missingVariable name => "The variable " ++ name ++ " is not set."
  | .badCursor => "The variable " ++ cursorVariable ++ " holds no number."
  | .noWord => "The variable " ++ cursorVariable ++ " holds no word."

/-- The draft in some words, of which the first is the name of the command. A negative index counts
from the end. -/
def draftAt (words : List String) (index : Int) : Draft :=
  let index := if index < 0 then index + words.length else index
  let current := if index < 0 then none else words[index.toNat]?
  ⟨(words.take index.toNat).drop 1, current.getD ""⟩

/-- The draft in some words up to the current one, which may stand among them. -/
def draftUpTo (words : List String) (current : String) : Draft :=
  let before := words.drop 1
  if !current.isEmpty && before.getLast? = some current then ⟨before.dropLast, current⟩
  else ⟨before, current⟩

def draft (environment : List (String × String)) (shell : Shell) : Except DraftError Draft :=
  match environment.lookup wordsVariable, environment.lookup cursorVariable with
  | none, _ => .error (.missingVariable wordsVariable)
  | some _, none => .error (.missingVariable cursorVariable)
  | some line, some cursor =>
    match shell with
    | .fish =>
      if cursor.isEmpty then .ok (draftUpTo (words line) "")
      else
        match words cursor with
        | [] => .error .noWord
        | current :: _ => .ok (draftUpTo (words line) current)
    | _ =>
      match readInt? cursor with
      | none => .error .badCursor
      | some index => .ok (draftAt (words line) index)

/-- An offer by its kind, its text and its summary. -/
def parts : Offer → String × String × Option String
  | .word text summary => ("plain", text, summary)
  | .file start => ("file", start, none)
  | .directory start => ("dir", start, none)

/-- How a shell is told of an offer, whatever characters are in it. -/
def offerText (shell : Shell) (offer : Offer) : String :=
  let (kind, text, summary) := parts offer
  match shell with
  | .bash => kind ++ "," ++ text
  | .fish => kind ++ "," ++ text ++ ((summary.map ("\t" ++ ·)).getD "")
  | .zsh | .powershell => String.intercalate "\n" [kind, text, summary.getD "_"]

end Shell

end Command

end TapeMachine
