import TapeMachine.Session

/-!
# Calls

All that can be asked of a session. Calls are made one after the other, each on a host and under
settings of its own, and share the files and the counters. One that fails does not stop the others.
-/

namespace TapeMachine

inductive Call where
  | compile (source : Content)
  | translate (source : Content) (input : Option Input)
  | wantsInput (source : Content)
  | compilerAvailable
  | selectBackend
  | run (request : Request)
  /-- Like `run`, but on a backend given by name, and the output stays bytes. -/
  | runBytes (request : Request) (backend : String)
  | interpret (request : Request)
  | transpile (request : Request)

inductive Answer where
  | program (instructions : List Instruction)
  | text (text : String)
  | bytes (output : List UInt8)
  | truth (holds : Bool)
deriving DecidableEq

def Call.perform (h : Host) (settings : Settings) (scene : Scene) : Call → Outcome Answer × Scene
  | .compile source => ((Outcome.ofExcept (parseProgram source)).map .program, scene)
  | .translate source input =>
    ((Outcome.ofExcept (Session.rustCode source input)).map .text, scene)
  | .wantsInput source => (.returned (.truth (readsInput source.units)), scene)
  | .compilerAvailable =>
    let (available, scene) := Session.probe h settings scene
    (.returned (.truth available), scene)
  | .selectBackend =>
    let (backend, scene) := Session.chooseBackend h settings scene
    (.returned (.text backend), scene)
  | .run request =>
    let (outcome, scene) := Session.run h settings request scene
    (outcome.map .text, scene)
  | .runBytes request backend =>
    let (outcome, scene) := Session.runOn h settings request backend scene
    (outcome.map .bytes, scene)
  | .interpret request =>
    let (outcome, scene) := Session.runInterpreted h settings request scene
    (outcome.map .text, scene)
  | .transpile request =>
    let (outcome, scene) := Session.runNatively h settings request scene
    (outcome.map .text, scene)

structure Turn where
  host : Host
  settings : Settings
  call : Call

def Turn.take (t : Turn) (scene : Scene) : Outcome Answer × Scene :=
  t.call.perform t.host t.settings scene

/-- Take turns, with what came of each of them. -/
def takeTurns : List Turn → Scene → List (Outcome Answer) × Scene
  | [], scene => ([], scene)
  | t :: rest, scene =>
    let (outcome, scene) := t.take scene
    let (outcomes, scene) := takeTurns rest scene
    (outcome :: outcomes, scene)

end TapeMachine
