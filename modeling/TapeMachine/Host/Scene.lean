import TapeMachine.Host.Files

/-!
# What a run does to its surroundings

A scene holds the files together with a record of all that was written, of the processes that were
started, of warnings, and of the counters shared by several runs.
-/

namespace TapeMachine

inductive Stream where
  | stdout
  | stderr
deriving DecidableEq

structure Write where
  stream : Stream
  text : String
deriving DecidableEq

inductive Event where
  | probe (compiler : String)
  | compile (arguments : List String) (directory : String) (code : String)
  /-- The address space of the process is limited to `memory` bytes, if that is given. -/
  | launch (arguments : List String) (directory : String) (memory : Option Int)
  | communicate (bounded : Bool)
  | kill
deriving DecidableEq

abbrev Stats := List (String × Int)

namespace Stats

def stepsKey : String := "steps"

/-- Add to the counter of that name and leave all others as they are. -/
def add (name : String) (n : Int) : Stats → Stats
  | [] => [(name, n)]
  | (key, value) :: rest =>
    if key = name then (key, value + n) :: rest else (key, value) :: add name n rest

theorem lookup_add_self (name : String) (n : Int) (stats : Stats) :
    List.lookup name (stats.add name n) = some ((List.lookup name stats).getD 0 + n) := by
  induction stats with
  | nil => simp [add]
  | cons entry rest ih =>
    obtain ⟨key, value⟩ := entry
    by_cases h : key = name
    · simp [add, h]
    · have hk : (name == key) = false := by simpa using Ne.symm h
      simpa [add, h, List.lookup_cons, hk] using ih

theorem lookup_add_ne {name other : String} (n : Int) (stats : Stats) (h : other ≠ name) :
    List.lookup other (stats.add name n) = List.lookup other stats := by
  have ho : (other == name) = false := by simpa using h
  induction stats with
  | nil => simp [add, List.lookup_cons, ho]
  | cons entry rest ih =>
    obtain ⟨key, value⟩ := entry
    by_cases hk : key = name
    · simp [add, hk, List.lookup_cons, ho]
    · by_cases hok : other = key
      · simp [add, hk, hok]
      · have hok' : (other == key) = false := by simpa using hok
        simpa [add, hk, List.lookup_cons, hok'] using ih

def addSteps (n : Nat) (stats : Stats) : Stats := stats.add stepsKey n

end Stats

structure Scene where
  files : Files
  events : List Event
  writes : List Write
  warnings : List String
  stats : Stats
deriving DecidableEq

namespace Scene

def initial (files : Files) : Scene := ⟨files, [], [], [], []⟩

def record (scene : Scene) (e : Event) : Scene := { scene with events := scene.events ++ [e] }

def write (scene : Scene) (stream : Stream) (texts : List String) : Scene :=
  { scene with writes := scene.writes ++ texts.map (Write.mk stream) }

def warn (scene : Scene) (texts : List String) : Scene :=
  { scene with warnings := scene.warnings ++ texts }

def textOn (scene : Scene) (stream : Stream) : String :=
  String.join ((scene.writes.filter (·.stream = stream)).map Write.text)

theorem textOn_write_self (scene : Scene) (stream : Stream) (texts : List String) :
    (scene.write stream texts).textOn stream = scene.textOn stream ++ String.join texts := by
  have hnew : (texts.map (Write.mk stream)).filter (·.stream = stream) =
      texts.map (Write.mk stream) := List.filter_eq_self.mpr (by simp)
  simp only [textOn, write, List.filter_append, List.map_append, String.join_append, hnew]
  simp [Function.comp_def]

theorem textOn_write_ne (scene : Scene) {stream other : Stream} (hne : stream ≠ other)
    (texts : List String) : (scene.write stream texts).textOn other = scene.textOn other := by
  have hnew : (texts.map (Write.mk stream)).filter (·.stream = other) = [] :=
    List.filter_eq_nil_iff.mpr (by simpa using fun _ _ => hne)
  simp only [textOn, write, List.filter_append, hnew, List.append_nil]

end Scene

end TapeMachine
