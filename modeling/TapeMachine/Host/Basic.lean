import TapeMachine.Host.Scene

/-!
# The host

Everything that a run asks of its surroundings and cannot decide itself: how the compiler and the
compiled program behave, which deletions fail, what chance draws, and how fast time passes.
-/

namespace TapeMachine

structure CompilerReply where
  /-- Why it cannot be started, if it cannot. -/
  spawnError : Option String
  status : Int
  stdout : String
  stderr : String
  /-- Whether it leaves an executable behind, whatever its status. -/
  creates : Bool
deriving DecidableEq

structure ProgramReply where
  launchError : Option String
  waitError : Option String
  /-- Whether it outlasts any bounded wait. -/
  hangs : Bool
  /-- Why its end cannot be awaited after it was killed for that, if it cannot. -/
  reapError : Option String := none
  status : Int
  stdout : List UInt8
deriving DecidableEq

structure Host where
  workingDirectory : String
  environment : List (String × String)
  /-- The directories that hold a bash. -/
  bashDirectories : List String
  /-- The exit status of a request for the compiler's version, none if there is no compiler. -/
  versionStatus : Option Int
  compiler : CompilerReply
  program : ProgramReply
  /-- Why the generated source cannot be deleted, if it cannot. -/
  sourceRemovalError : Option String
  executableRemovalError : Option String
  /-- The numbers that chance draws, over and over again. -/
  draws : List Int
  /-- The poll that finds a deadline of the given seconds expired. -/
  polls : Float → Nat
  /-- How many steps a run without a deadline may take before it is given up. -/
  fuel : Nat

namespace Host

def compilerVariable : String := "BFRUN_RUSTC"

def standardCompiler : String := "rustc"

/-- The compiler to use when none is named. -/
def usualCompiler (h : Host) : String :=
  (h.environment.lookup compilerVariable).getD standardCompiler

/-- The named compiler, if it is not empty, or else the usual one. -/
def compilerFor (h : Host) : Option String → String
  | none => h.usualCompiler
  | some name => if name.isEmpty then h.usualCompiler else name

def searchPathVariable : String := "PATH"

/-- Whether there is a bash on the search path, which by default holds the usual directories. -/
def findsBash (h : Host) : Bool :=
  match h.environment.lookup searchPathVariable with
  | none => !h.bashDirectories.isEmpty
  | some directories => (directories.splitOn ":").any fun directory =>
    h.bashDirectories.contains (Path.resolve h.workingDirectory directory).text

def alphabet : List Char :=
  "abcdefghijklmnopqrstuvwxyzABCDEFGHIJKLMNOPQRSTUVWXYZ0123456789".toList

def draw (h : Host) (place : Nat) : Char :=
  let n := h.draws.getD (place % h.draws.length) 0
  alphabet.getD (n % alphabet.length).toNat 'a'

/-- A name that no other file is likely to have. -/
def randomName (h : Host) (length : Nat) : String :=
  "bf" ++ String.ofList ((List.range length).map h.draw)

def defaultNameLength : Nat := 14

end Host

end TapeMachine
