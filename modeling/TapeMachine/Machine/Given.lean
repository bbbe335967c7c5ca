import TapeMachine.Input
import TapeMachine.Machine.Counted
import TapeMachine.Machine.Trace
import TapeMachine.Machine.Unbounded

/-!
# Runs on given inputs

Before a program starts, its loops are paired and then its input is encoded. When one of the two
fails, nothing is executed, nothing is printed and nothing is counted.
-/

namespace TapeMachine

/-- The bytes that the program is to run on. -/
def feed (program : List Instruction) (input : Option Input) : Except Failure (List UInt8) :=
  match JumpTable.build program with
  | .error index => .error (Failure.unmatchedBracket index (some .interpreter))
  | .ok _ => inputBytes input

def runGiven (program : List Instruction) (input : Option Input) (limit : Machine.Limit) :
    Outcome Machine.Result :=
  match feed program input with
  | .error failure => .failed failure
  | .ok data => runProgram program data limit

/-- What becomes of a run and of the counters, and what it prints. -/
def watchGiven (program : List Instruction) (input : Option Input) (limit : Machine.Limit)
    (verbosity : Int) (stats : Stats) : (Outcome (List UInt8) × Stats) × List String :=
  match feed program input with
  | .error failure => ((.failed failure, stats), [])
  | .ok data =>
    (runCounted program data limit stats, traceProgram program data limit verbosity)

/-- The run on the input ends with the outcome. -/
def EndsGiven (program : List Instruction) (input : Option Input)
    (outcome : Outcome Machine.Result) : Prop :=
  outcome ≠ .unfinished ∧ ∃ fuel, runGiven program input (.fuel fuel) = outcome

def RunsForeverGiven (program : List Instruction) (input : Option Input) : Prop :=
  ∃ data, feed program input = .ok data ∧ RunsForever program data

section

variable {program : List Instruction} {input : Option Input} {data : List UInt8}
  {failure : Failure}

theorem feed_of_build {table : JumpTable} (h : JumpTable.build program = .ok table)
    (input : Option Input) : feed program input = inputBytes input := by
  rw [feed, h]

theorem inputBytes_of_feed (h : feed program input = .ok data) : inputBytes input = .ok data := by
  unfold feed at h
  split at h
  · cases h
  · exact h

theorem runGiven_of_feed (h : feed program input = .ok data) (limit : Machine.Limit) :
    runGiven program input limit = runProgram program data limit := by
  rw [runGiven, h]

theorem runGiven_of_refusal (h : feed program input = .error failure) (limit : Machine.Limit) :
    runGiven program input limit = .failed failure := by
  rw [runGiven, h]

theorem watchGiven_of_feed (h : feed program input = .ok data) (limit : Machine.Limit)
    (verbosity : Int) (stats : Stats) :
    watchGiven program input limit verbosity stats =
      (runCounted program data limit stats, traceProgram program data limit verbosity) := by
  rw [watchGiven, h]

theorem watchGiven_of_refusal (h : feed program input = .error failure) (limit : Machine.Limit)
    (verbosity : Int) (stats : Stats) :
    watchGiven program input limit verbosity stats = ((.failed failure, stats), []) := by
  rw [watchGiven, h]

/-- A program that cannot be loaded fails alike on all bytes. -/
theorem runGiven_of_bytes (h : inputBytes input = .ok data) (limit : Machine.Limit) :
    runGiven program input limit = runProgram program data limit := by
  cases hbuild : JumpTable.build program with
  | ok table =>
    apply runGiven_of_feed
    rw [feed_of_build hbuild, h]
  | error index =>
    have hrefused : feed program input =
        .error (Failure.unmatchedBracket index (some .interpreter)) := by rw [feed, hbuild]
    rw [runGiven_of_refusal hrefused, runProgram, Machine.load, hbuild]
    rfl

/-- An input that cannot be encoded is refused whatever the limit. -/
theorem exists_runGiven_refusal {table : JumpTable} (h : JumpTable.build program = .ok table)
    (hinput : ¬IsEncodable input) : ∃ (s : Surrogate) (first last : Nat), ∀ limit,
      runGiven program input limit = .failed (Failure.unencodable s.value first last) := by
  obtain ⟨s, first, last, hbytes⟩ := exists_refusal_of_not_isEncodable hinput
  refine ⟨s, first, last, ?_⟩
  apply runGiven_of_refusal
  rw [feed_of_build h, hbytes]

theorem endsGiven_of_bytes (h : inputBytes input = .ok data) (outcome : Outcome Machine.Result) :
    EndsGiven program input outcome ↔ EndsWith program data outcome := by
  simp only [EndsGiven, EndsWith, runGiven_of_bytes h]

theorem runsForeverGiven_of_bytes (h : inputBytes input = .ok data) :
    RunsForeverGiven program input ↔ RunsForever program data := by
  constructor
  · rintro ⟨fed, hfed, hforever⟩
    rw [inputBytes_of_feed hfed] at h
    rwa [← Except.ok.inj h]
  · intro hforever
    refine ⟨data, ?_, hforever⟩
    obtain ⟨m, hload, -⟩ := hforever
    cases hbuild : JumpTable.build program with
    | ok table => rw [feed_of_build hbuild, h]
    | error index =>
      rw [Machine.load, hbuild] at hload
      cases hload

end

end TapeMachine
