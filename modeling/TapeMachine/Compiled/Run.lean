import TapeMachine.Content
import TapeMachine.Compiled.TempFiles
import TapeMachine.Compiled.Status
import TapeMachine.Rust.Source
import TapeMachine.Text.Style

/-!
# Native runs

A native run writes the generated program to a file, has it compiled, starts the executable, waits
for it, and deletes both files whatever happened. Each stage either fails, and then nothing but the
clean-up follows, or leaves a scene for the next.
-/

namespace TapeMachine

namespace Compiled

structure Job where
  program : List Instruction
  input : List UInt8
  /-- Whether the wait for the program is bounded. -/
  timed : Bool
  directory : Option String
  compiler : Option String
  /-- The limit of the address space in units of 1048576 bytes. -/
  memoryLimit : Option Int
  verbosity : Int
deriving DecidableEq

namespace Job

def code (job : Job) : String := Rust.code job.program job.input

def compilerArguments (job : Job) (h : Host) (a : TempFiles) : List String :=
  [h.compilerFor job.compiler, "-C", "opt-level=3", "-o", a.executable.text, a.source.text]

def memoryBytes (job : Job) : Option Int := job.memoryLimit.map (· * 1048576)

end Job

/-- What a stage comes to, and the scene it leaves. -/
abbrev Stage (α : Type) := Except Failure α × Scene

def writeSource (job : Job) (a : TempFiles) (scene : Scene) : Stage Unit :=
  match scene.files.write a.source (encodeUtf8 job.code.toList) with
  | .ok files => (.ok (), { scene with files := files })
  | .error e =>
    let path := a.source.text
    let reason := fileErrorText e a.source
    (.error (Failure.process ("could not write \x60" ++ path ++ "\x60: " ++ reason)), scene)

def filesCompiled (h : Host) (a : TempFiles) (files : Files) : Files :=
  if h.compiler.creates then (files.write a.executable []).toOption.getD files else files

def announceCompiler (h : Host) (job : Job) (a : TempFiles) (scene : Scene) : Scene :=
  let arguments := job.compilerArguments h a
  let line := Style.dim ("  $ " ++ String.intercalate " " arguments) ++ "\n"
  let scene := if 0 < job.verbosity then scene.write .stderr [line] else scene
  scene.record (.compile arguments a.directory.text job.code)

def callCompiler (h : Host) (job : Job) (a : TempFiles) (scene : Scene) : Stage Unit :=
  let scene := announceCompiler h job a scene
  match h.compiler.spawnError with
  | some reason => (.error (Failure.compilation reason), scene)
  | none =>
    let scene := { scene with files := filesCompiled h a scene.files }
    if h.compiler.status = 0 then (.ok (), scene)
    else
      let diagnostic :=
        if h.compiler.stderr.isEmpty then h.compiler.stdout else h.compiler.stderr
      (.error (Failure.compilation diagnostic), scene)

def checkExecutable (a : TempFiles) (scene : Scene) : Except Failure Unit :=
  match scene.files.find? a.executable with
  | some _ => .ok ()
  | none =>
    .error (Failure.process ("compiler reported success but \x60" ++ a.name ++ "\x60 is missing"))

def launch (h : Host) (job : Job) (a : TempFiles) (scene : Scene) : Stage Unit :=
  let scene := scene.record (.launch [a.executable.text] a.directory.text job.memoryBytes)
  match h.program.launchError with
  | none => (.ok (), scene)
  | some reason =>
    (.error (Failure.process ("could not launch \x60" ++ a.name ++ "\x60: " ++ reason)), scene)

/-- The failure of a wait that the host broke off. -/
def waitFailure (a : TempFiles) (reason : String) : Failure :=
  Failure.process ("waiting for \x60" ++ a.name ++ "\x60 failed: " ++ reason)

/-- How asking for the output of a program can be cut short. -/
inductive Interruption where
  | expired
  | refused (reason : String)
deriving DecidableEq

/-- Ask for the output of the program. Once it was killed it does not outlast a bound. -/
def communicate (h : Host) (killed bounded : Bool) :
    Except Interruption (List UInt8) × List Event :=
  let refusal := if killed then h.program.reapError else h.program.waitError
  let result :=
    match refusal with
    | some reason => .error (.refused reason)
    | none =>
      if h.program.hangs && bounded && !killed then .error .expired else .ok h.program.stdout
  (result, [.communicate bounded])

/-- Wait for the program. One that outlasts a bounded wait is killed, and its end is awaited before
the run fails for that. -/
def waitFor (h : Host) (job : Job) : Except Failure (List UInt8) × List Event :=
  match communicate h false job.timed with
  | (.ok output, events) => (.ok output, events)
  | (.error (.refused reason), events) => (.error (Failure.system reason), events)
  | (.error .expired, events) =>
    match communicate h true false with
    | (.error (.refused reason), more) => (.error (Failure.system reason), events ++ .kill :: more)
    | (_, more) => (.error (Failure.timeout none .native), events ++ .kill :: more)

/-- Wait for the program and judge its end. Its running out of time passes as it is, although it
counts as an error of the system; after any other such error the program is killed. -/
def await (h : Host) (job : Job) (a : TempFiles) : Except Failure (List UInt8) × List Event :=
  match waitFor h job with
  | (.ok output, events) => (verdict h.program.status output, events)
  | (.error failure, events) =>
    if failure.cause.isTimeout then (.error failure, events)
    else if failure.cause.isSystem then
      (.error (waitFailure a failure.message), events ++ [.kill])
    else (.error failure, events)

/-- All stages up to the program's end. -/
def attempt (h : Host) (job : Job) (a : TempFiles) (scene : Scene) : Stage (List UInt8) :=
  match writeSource job a scene with
  | (.error failure, scene) => (.error failure, scene)
  | (.ok (), scene) =>
    match callCompiler h job a scene with
    | (.error failure, scene) => (.error failure, scene)
    | (.ok (), scene) =>
      match checkExecutable a scene with
      | .error failure => (.error failure, scene)
      | .ok () =>
        match launch h job a scene with
        | (.error failure, scene) => (.error failure, scene)
        | (.ok (), scene) =>
          let (result, events) := await h job a
          (result, events.foldl Scene.record scene)

/-- Delete the temporary files. What goes wrong there becomes notes of a failure, or warnings when
the run succeeded. If one cannot even ask for their directory, that is what the run failed of. -/
def settle (h : Host) (a : TempFiles) : Stage (List UInt8) → Stage (List UInt8)
  | (result, scene) =>
    match a.discard h scene.files with
    | .error e => (.error (Failure.system (fileErrorText e a.directory)), scene)
    | .ok (complaints, files) =>
      let scene := { scene with files := files }
      match result with
      | .ok output => (.ok output, scene.warn complaints)
      | .error failure => (.error (failure.annotate complaints), scene)

def run (h : Host) (job : Job) (scene : Scene) : Stage (List UInt8) :=
  if Path.isPossible (job.directory.getD "") then
    let a := TempFiles.reserve h job.directory
    settle h a (attempt h job a scene)
  else (.error Failure.impossiblePath, scene)

/-- Run a job on an input that is still to be encoded, which comes before anything else. -/
def runGiven (h : Host) (job : List UInt8 → Job) (input : Option Input) (scene : Scene) :
    Stage (List UInt8) :=
  match inputBytes input with
  | .error failure => (.error failure, scene)
  | .ok data => run h (job data) scene

end Compiled

end TapeMachine
