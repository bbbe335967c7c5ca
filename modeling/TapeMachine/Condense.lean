import TapeMachine.Instruction
import TapeMachine.Token

/-!
# Condensed programs

Condensing goes once through the tokens. Runs of moves, and runs of additions, are counted up
while they last and become one instruction with the net count; a net count of zero is dropped.
When that brings two runs of a kind together, the second goes on counting where the first stopped.
-/

namespace TapeMachine

/-- The two kinds of runs that are counted. -/
inductive RunKind where
  | move
  | add
deriving DecidableEq

def RunKind.instruction : RunKind → Int → Instruction
  | .move, d => .moveBy d
  | .add, d => .addBy d

def Instruction.run? : Instruction → Option (RunKind × Int)
  | .moveBy d => some (.move, d)
  | .addBy d => some (.add, d)
  | _ => none

/-- A program under construction: what is finished, the last instruction first, and the run that
is being counted. -/
structure Condenser where
  finished : List Instruction
  pending : Option (RunKind × Int)

namespace Condenser

def start : Condenser := ⟨[], none⟩

/-- Finish the run that is being counted, unless it has come to nothing. -/
def flush (c : Condenser) : List Instruction :=
  match c.pending with
  | none => c.finished
  | some (kind, count) => if count = 0 then c.finished else kind.instruction count :: c.finished

/-- Begin to count a run, from the count of the last instruction if that is of the same kind. -/
def resume (kind : RunKind) : List Instruction → Condenser
  | [] => ⟨[], some (kind, 0)⟩
  | i :: rest =>
    match i.run? with
    | some (last, count) =>
      if last = kind then ⟨rest, some (kind, count)⟩ else ⟨i :: rest, some (kind, 0)⟩
    | none => ⟨i :: rest, some (kind, 0)⟩

/-- The state in which characters of the given kind are counted. -/
def switch (c : Condenser) (kind : RunKind) : Condenser :=
  match c.pending with
  | some (current, _) => if current = kind then c else resume kind c.flush
  | none => resume kind c.flush

def count (c : Condenser) (kind : RunKind) (n : Int) : Condenser :=
  let c := c.switch kind
  { c with pending := c.pending.map fun run => (run.1, run.2 + n) }

/-- Put an instruction without a count behind all that came before. -/
def mark (c : Condenser) (i : Instruction) : Condenser := ⟨i :: c.flush, none⟩

def net (text : List Char) (up down : Char) : Int := (text.count up : Int) - text.count down

def take (c : Condenser) (t : Token) : Condenser :=
  match t.kind with
  | .move => c.count .move (net t.text '>' '<')
  | .delta => c.count .add (net t.text '+' '-')
  | .print => c.mark .print
  | .read => c.mark .read
  | .loopStart => c.mark .loopStart
  | .loopEnd => c.mark .loopEnd

end Condenser

def condense (text : List Char) : List Instruction :=
  ((Token.scan text).foldl Condenser.take .start).flush.reverse

def readsInput (text : List Char) : Bool :=
  text.contains ','

end TapeMachine
