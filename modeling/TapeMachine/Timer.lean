/-!
# Timers

A timer runs on a clock whose numbers may be of any kind. Once started it fires when its duration
has passed, and at once if the duration is not positive, unless it was cancelled before. A timer
that has fired stays so.
-/

namespace TapeMachine

structure Timer (T : Type) where
  duration : T
  clock : T
  started : Option T
  cancelled : Bool
  fired : Bool
deriving DecidableEq

namespace Timer

variable {T : Type}

/-- A timer that has not been started, on a clock that shows `clock`. -/
def new (duration clock : T) : Timer T := ⟨duration, clock, none, false, false⟩

/-- Let the timer fire if its time has come. -/
def settle [Add T] [LE T] [DecidableLE T] (t : Timer T) : Timer T :=
  match t.started with
  | none => t
  | some start =>
    if !t.cancelled && start + t.duration ≤ t.clock then { t with fired := true } else t

def start [Add T] [LE T] [DecidableLE T] (t : Timer T) : Timer T :=
  settle { t with started := some t.clock }

def cancel (t : Timer T) : Timer T := { t with cancelled := true }

def advance [Add T] [LE T] [DecidableLE T] (t : Timer T) (dt : T) : Timer T :=
  settle { t with clock := t.clock + dt }

/-- The time left, never below zero once the timer has been started. -/
def left [Sub T] [OfNat T 0] [LT T] [DecidableLT T] (t : Timer T) : T :=
  match t.started with
  | none => t.duration
  | some start =>
    let rest := t.duration - (t.clock - start)
    if 0 < rest then rest else 0

inductive Action (T : Type) where
  | start
  | enter
  | exit
  | cancel
  | advance (dt : T)
deriving DecidableEq

variable [Add T] [LE T] [DecidableLE T]

/-- Entering a timer's scope starts it and leaving the scope cancels it. -/
def apply (t : Timer T) : Action T → Timer T
  | .start => t.start
  | .enter => t.start
  | .exit => t.cancel
  | .cancel => t.cancel
  | .advance dt => t.advance dt

/-- The timer after each of the actions. -/
def states (t : Timer T) : List (Action T) → List (Timer T)
  | [] => []
  | a :: rest => t.apply a :: (t.apply a).states rest

end Timer

end TapeMachine
