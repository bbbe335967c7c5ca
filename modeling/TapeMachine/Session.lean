import TapeMachine.Compiled.Run
import TapeMachine.Machine.Given
import TapeMachine.Program

/-!
# Sessions

A session runs programs under fixed settings. Brackets are checked before anything else happens,
and the compiler is probed at most once per run, to choose between the two backends.
-/

namespace TapeMachine

structure Settings where
  compiler : Option String
  directory : Option String
  verbosity : Int
  memoryLimit : Option Int
deriving DecidableEq

structure Request where
  source : Content
  input : Option Input
  timeout : Option Float
  directory : Option String
  /-- Whether the steps are added to the shared counters. -/
  counted : Bool

namespace Session

def outputText (output : List UInt8) : String := String.ofList (decodeLatin1 output)

def rustCode (source : Content) (input : Option Input) : Except Failure String :=
  match parseProgram source with
  | .error failure => .error failure
  | .ok program => Rust.translate program input

def probe (h : Host) (settings : Settings) (scene : Scene) : Bool × Scene :=
  (h.versionStatus == some 0, scene.record (.probe (h.compilerFor settings.compiler)))

/-- The name of the backend to use, by whether the compiler answers. -/
def chooseBackend (h : Host) (settings : Settings) (scene : Scene) : String × Scene :=
  let (available, scene) := probe h settings scene
  let name := if available then "native" else "interpret"
  let line := Style.dim ("  ~ backend: " ++ name) ++ "\n"
  (name, if 0 < settings.verbosity then scene.write .stderr [line] else scene)

/-- How long a run may go on. -/
def limit (h : Host) : Option Float → Machine.Limit
  | some seconds => .poll (h.polls seconds)
  | none => .fuel h.fuel

/-- Run a compiled program on the machine. Steps are counted only for runs that return. -/
def onMachine (h : Host) (settings : Settings) (request : Request)
    (program : List Instruction) (scene : Scene) : Outcome (List UInt8) × Scene :=
  let ((outcome, stats), lines) :=
    watchGiven program request.input (limit h request.timeout) settings.verbosity scene.stats
  let scene := scene.write .stdout lines
  (outcome, if request.counted then { scene with stats := stats } else scene)

/-- The directory of a request, if it is not empty, or else that of the settings. -/
def directoryFor (settings : Settings) (request : Request) : Option String :=
  match request.directory with
  | some directory => if directory.isEmpty then settings.directory else some directory
  | none => settings.directory

def onNative (h : Host) (settings : Settings) (request : Request)
    (program : List Instruction) (scene : Scene) : Outcome (List UInt8) × Scene :=
  let job (input : List UInt8) : Compiled.Job :=
    { program := program
      input := input
      timed := request.timeout.isSome
      directory := directoryFor settings request
      compiler := settings.compiler
      memoryLimit := settings.memoryLimit
      verbosity := settings.verbosity }
  let (result, scene) := Compiled.runGiven h job request.input scene
  (Outcome.ofExcept result, scene)

def dispatch (h : Host) (settings : Settings) (request : Request) (backend : String)
    (program : List Instruction) (scene : Scene) : Outcome (List UInt8) × Scene :=
  if backend = "native" then onNative h settings request program scene
  else if backend = "interpret" then onMachine h settings request program scene
  else (.failed (Failure.unknownBackend backend), scene)

/-- Run a program on a backend given by name; `auto` leaves the choice to a probe. -/
def runOn (h : Host) (settings : Settings) (request : Request) (backend : String)
    (scene : Scene) : Outcome (List UInt8) × Scene :=
  match parseProgram request.source with
  | .error failure => (.failed failure, scene)
  | .ok program =>
    if backend = "auto" then
      let (chosen, scene) := chooseBackend h settings scene
      dispatch h settings request chosen program scene
    else dispatch h settings request backend program scene

/-- Run a program on whatever backend there is. -/
def run (h : Host) (settings : Settings) (request : Request) (scene : Scene) :
    Outcome String × Scene :=
  let (outcome, scene) := runOn h settings request "auto" scene
  (outcome.map outputText, scene)

def runInterpreted (h : Host) (settings : Settings) (request : Request) (scene : Scene) :
    Outcome String × Scene :=
  match parseProgram request.source with
  | .error failure => (.failed failure, scene)
  | .ok program =>
    let (outcome, scene) := onMachine h settings request program scene
    (outcome.map outputText, scene)

def runNatively (h : Host) (settings : Settings) (request : Request) (scene : Scene) :
    Outcome String × Scene :=
  match parseProgram request.source with
  | .error failure => (.failed failure, scene)
  | .ok program =>
    let (outcome, scene) := onNative h settings request program scene
    (outcome.map outputText, scene)

end Session

end TapeMachine
