import TapeMachine.Command.Help
import TapeMachine.Command.Options
import TapeMachine.Command.Script
import TapeMachine.Command.ShellScript
import TapeMachine.Report
import TapeMachine.Session
import TapeMachine.Text.Ansi

/-!
# The command

A command reads its script, asks for input if the program wants some, runs the program or prints
code for it, and reports. The exit status tells whether anything failed.
-/

namespace TapeMachine

namespace Command

structure Ending where
  status : Int
  scene : Scene
  /-- The number of steps to report, if statistics are wanted. -/
  steps : Option Int
  /-- Whether colours are unwanted. -/
  plain : Bool
deriving DecidableEq

inductive Completion where
  | exited (ending : Ending)
  /-- The script or the input is not UTF-8. -/
  | undecodable
  /-- A failure that is not reported. -/
  | brokenOff (cause : Cause)
  /-- A shell asks for offers but gives no draft. -/
  | unanswered (error : Shell.DraftError)
  | unfinished
deriving DecidableEq

def promptText : String := "Enter the input characters\n"

def Options.settings (o : Options) : Settings :=
  ⟨o.compiler, o.directory, o.verbosity, o.memoryLimit⟩

/-- The input of the program: the given one, or a line that is asked for. None if that line cannot
be decoded. -/
def obtainInput? (o : Options) (script : Script) (scene : Scene) :
    Option (Option Input × Scene) :=
  match o.input with
  | some given => some (some (.text given), scene)
  | none =>
    if readsInput script.source then
      script.inputLine.map fun line =>
        (some (.ofChars (dropEnd Blank.isBlank line)), scene.write .stderr [promptText])
    else some (none, scene)

/-- Run the program or generate code for it; what it yields is still to be printed. -/
def perform (h : Host) (o : Options) (script : Script) (input : Option Input) (scene : Scene) :
    Outcome String × Scene :=
  let source := Content.text script.source
  if o.emitRust then (Outcome.ofExcept (Session.rustCode source input), scene)
  else
    let request : Request := ⟨source, input, o.timeout, none, o.stats⟩
    let (outcome, scene) := Session.runOn h o.settings request o.backend scene
    (outcome.map Session.outputText, scene)

/-- The counter of steps, which starts at zero. -/
def stepsCounted (scene : Scene) : Int := (List.lookup Stats.stepsKey scene.stats).getD 0

/-- Report the failures one after the other. -/
def report (subject : Report.Subject) (failures : List Failure) (scene : Scene) : Scene :=
  failures.foldl (fun scene failure => scene.write .stderr (Report.failureTexts subject failure))
    scene

/-- The end of a command, by whether a failure has been reported. Only without one the statistics
follow that may be wanted. -/
def finish (stats plain failed : Bool) (scene : Scene) : Ending :=
  ⟨if failed then 1 else 0, scene, if stats && !failed then some (stepsCounted scene) else none,
    plain⟩

def conclude (o : Options) (script : Script) : Outcome String × Scene → Completion
  | (.returned text, scene) => .exited (finish o.stats o.plain false (scene.write .stdout [text]))
  | (.failed failure, scene) =>
    if failure.cause.isReported then
      let subject : Report.Subject := ⟨script.filename, script.source, o.timeout⟩
      .exited (finish o.stats o.plain true (report subject [failure] scene))
    else .brokenOff failure.cause
  | (.unfinished, _) => .unfinished

/-- Without colours everything goes to standard output, and every piece of text loses the colour
codes in it. -/
def plainWrite (w : Write) : Write := ⟨.stdout, Ansi.stripString Ansi.colours w.text⟩

def Ending.sceneAfter (e : Ending) (seconds : Float) : Scene :=
  let statistics := (e.steps.map (Report.statisticsTexts · seconds)).getD []
  let scene := e.scene.write .stderr statistics
  if e.plain then { scene with writes := scene.writes.map plainWrite } else scene

def runScript (h : Host) (o : Options) (stdin : List UInt8) (scene : Scene) : Completion :=
  match Script.load? scene.files h.workingDirectory o.script stdin with
  | none => .undecodable
  | some script =>
    match obtainInput? o script scene with
    | none => .undecodable
    | some (input, scene) => conclude o script (perform h o script input scene)

def answerShell (h : Host) (scene : Scene) : Shell.Request → Completion
  | .unknown => .exited ⟨1, scene, none, false⟩
  | .script shell =>
    let scene := (scene.write .stderr (shell.warnings h)).write .stdout [shell.script]
    .exited ⟨0, scene, none, false⟩
  | .offers shell =>
    match shell.draft h.environment with
    | .error e => .unanswered e
    | .ok draft =>
      let text := String.intercalate "\n" (draft.offers.map shell.offerText) ++ "\n"
      .exited ⟨0, scene.write .stdout [text], none, false⟩

/-- Run the command line on standard input. The request of a shell comes first. -/
def run (h : Host) (files : Files) (arguments : List String) (stdin : List UInt8) : Completion :=
  let scene := Scene.initial files
  match Shell.request? h.environment with
  | some request => answerShell h scene request
  | none =>
    match invocation h files arguments with
    | .error (.usage e) => .exited ⟨UsageError.status, scene.write .stderr [e.text], none, false⟩
    | .error .impossiblePath => .brokenOff .impossiblePath
    | .ok .help => .exited ⟨0, scene.write .stdout [helpText h.environment], none, false⟩
    | .ok (.run o) => runScript h o stdin scene

end Command

end TapeMachine
