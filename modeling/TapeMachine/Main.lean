import TapeMachine.Command.Run

/-!
# The program

The outer layer: it looks at the files that the arguments name, reads standard input, runs the
command and prints what the command wrote. There is no compiler to start here, so a native run
always reports that it cannot be started.
-/

namespace TapeMachine

namespace Program

def entryAt? (p : Path) : IO (Option Entry) := do
  let path := (← IO.currentDir) / p.text
  if ← path.isDir then return some .directory
  try
    return some (.file (← IO.FS.readBinFile path).toList)
  catch _ => return none

/-- The paths that one passes on the way along some components. -/
def passed : Path → List String → List Path
  | p, [] => [p]
  | p, name :: rest => p :: passed (p.enter name) rest

/-- What is found on the way to the working directory and to the written paths. -/
def gather (workingDirectory : String) (written : List String) : IO Files := do
  let mut files : Files := []
  for text in workingDirectory :: written do
    for p in passed (Path.origin workingDirectory text) (Path.components text) do
      if let some entry ← entryAt? p then
        files := files.insert p entry
  return files

partial def readAll (stream : IO.FS.Stream) (read : ByteArray) : IO ByteArray := do
  let chunk ← stream.read 65536
  if chunk.isEmpty then return read else readAll stream (read ++ chunk)

def variableNames : List String := [Host.compilerVariable, Host.searchPathVariable,
  Command.Help.columnsVariable, Command.Shell.requestVariable, Command.Shell.wordsVariable,
  Command.Shell.cursorVariable]

def bashDirectories (workingDirectory : String) (environment : List (String × String)) :
    IO (List String) := do
  let searchPath := (environment.lookup Host.searchPathVariable).getD ""
  let directories := (searchPath.splitOn ":").map fun written =>
    (Path.resolve workingDirectory written).text
  let root ← IO.currentDir
  directories.filterM fun directory => (root / directory / "bash").pathExists

def namedFiles (a : Command.Arguments) : List String :=
  a.script :: (a.value? .directory).toList

/-- Whether the command may read standard input. -/
def mayReadInput (files : Files) (workingDirectory : String) (a : Command.Arguments) : Bool :=
  a.script == "-" ||
    match files.locate workingDirectory a.script with
    | .ok (.file data) => data.contains (UInt8.ofNat ','.toNat)
    | _ => false

/-- A host without a compiler, on which a second is worth so many polls. -/
def host (workingDirectory : String) (environment : List (String × String))
    (bashDirectories : List String) (compiler : Option String) (fuel : Nat) : Host :=
  let h : Host :=
    { workingDirectory := workingDirectory
      environment := environment
      bashDirectories := bashDirectories
      versionStatus := none
      compiler := ⟨none, 0, "", "", false⟩
      program := ⟨none, none, false, none, 0, []⟩
      sourceRemovalError := none
      executableRemovalError := none
      draws := List.range 62 |>.map Int.ofNat
      polls := fun seconds => (seconds * 10000000).toUInt64.toNat
      fuel := fuel }
  let reason := s!"[Errno 2] No such file or directory: " ++ quoted (h.compilerFor compiler)
  { h with compiler := { h.compiler with spawnError := some reason } }

/-- Run the command, with ever more fuel until it ends. -/
partial def complete (run : Nat → Command.Completion) (fuel : Nat) : IO Command.Completion :=
  match run fuel with
  | .unfinished => complete run (10 * fuel)
  | completion => return completion

def print (w : Write) : IO Unit :=
  match w.stream with
  | .stdout => IO.print w.text
  | .stderr => IO.eprint w.text

end Program

end TapeMachine

open TapeMachine in
def main (arguments : List String) : IO UInt32 := do
  let began ← IO.monoMsNow
  let workingDirectory := (← IO.currentDir).toString
  let environment ← Program.variableNames.filterMapM fun name =>
    return (← IO.getEnv name).map (name, ·)
  let scanned := (Command.Arguments.scan arguments).toOption.getD ⟨[], []⟩
  let files ← Program.gather workingDirectory (Program.namedFiles scanned)
  let stdin ←
    if Program.mayReadInput files workingDirectory scanned then
      Program.readAll (← IO.getStdin) ByteArray.empty
    else pure ByteArray.empty
  let bashes ← Program.bashDirectories workingDirectory environment
  let host := Program.host workingDirectory environment bashes (scanned.value? .compiler)
  let run := fun fuel => Command.run (host fuel) files arguments stdin.toList
  match ← Program.complete run 10000000 with
  | .exited ending =>
    let elapsed := (← IO.monoMsNow) - began
    let scene := ending.sceneAfter (NumberReader.toFloat elapsed (-3))
    scene.writes.forM Program.print
    return UInt32.ofNat ending.status.toNat
  | .brokenOff cause =>
    IO.eprintln cause.message
    return 1
  | .unanswered error =>
    IO.eprintln error.message
    return 1
  | _ =>
    IO.eprintln "UnicodeDecodeError"
    return 1
