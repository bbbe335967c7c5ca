import TapeMachine.Host.Basic
import TapeMachine.Text.Quoted

/-!
# Temporary files

A native run writes one source file and has one executable made from it. Both are deleted at the
end of every run, the source first, and a failed deletion never keeps the other file.
-/

namespace TapeMachine

namespace Compiled

structure TempFiles where
  name : String
  directory : Path
deriving DecidableEq

namespace TempFiles

def executable (a : TempFiles) : Path := a.directory.child a.name

def source (a : TempFiles) : Path := a.directory.child (a.name ++ ".rs")

/-- Fresh names in a directory, by default the working directory. -/
def reserve (h : Host) (directory : Option String) : TempFiles :=
  ⟨h.randomName Host.defaultNameLength,
    Path.resolve h.workingDirectory (directory.getD "")⟩

end TempFiles

def fileErrorText (e : FileError) (p : Path) : String :=
  s!"[Errno {e.number}] {e.message}: " ++ quoted p.text

def removalComplaint (p : Path) (reason : String) : String :=
  "Cleanup of temporary file \x60" ++ p.text ++ "\x60 failed: " ++ reason

/-- Delete a file; `refusal` is why the host does not let it happen. -/
def removeFile (refusal : Option String) (p : Path) (files : Files) : Except String Files :=
  match refusal with
  | some reason => .error reason
  | none =>
    match files.remove p with
    | .ok files => .ok files
    | .error e => .error (fileErrorText e p)

def discard (refusal : Option String) (p : Path) (files : Files) : List String × Files :=
  match removeFile refusal p files with
  | .ok files => ([], files)
  | .error reason => ([removalComplaint p reason], files)

/-- Delete both files, unless their directory is missing and there is nothing to delete. -/
def TempFiles.discard (a : TempFiles) (h : Host) (files : Files) :
    Except FileError (List String × Files) :=
  match files.isDirectory a.directory with
  | .error e => .error e
  | .ok false => .ok ([], files)
  | .ok true =>
    let (first, files) := Compiled.discard h.sourceRemovalError a.source files
    let (second, files) := Compiled.discard h.executableRemovalError a.executable files
    .ok (first ++ second, files)

end Compiled

end TapeMachine
