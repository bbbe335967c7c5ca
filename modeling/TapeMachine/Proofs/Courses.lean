import TapeMachine.Compiled.Run
import TapeMachine.Proofs.Lookups

/-!
# The course of a native run

Up to the end of its program a native run takes one of a few courses: it stops at the first stage
that fails, or it comes to wait for the program. Each course is set down here with what it comes
to, the files it leaves and the events on its way; later proofs need not open a stage again.
-/

namespace TapeMachine

namespace Compiled

variable {h : Host} {job : Job} {a : TempFiles} {files : Files} {scene : Scene}

def Job.compiling (job : Job) (h : Host) (a : TempFiles) : Event :=
  .compile (job.compilerArguments h a) a.directory.text job.code

def Job.launching (job : Job) (a : TempFiles) : Event :=
  .launch [a.executable.text] a.directory.text job.memoryBytes

def Job.data (job : Job) : List UInt8 := encodeUtf8 job.code.toList

/-! ## Waiting -/

/-- How a wait for the program can go. -/
inductive Wait (h : Host) (job : Job) (a : TempFiles) :
    Except Failure (List UInt8) → List Event → Prop where
  | broken {reason : String} (hwait : h.program.waitError = some reason) :
      Wait h job a (.error (waitFailure a reason)) [.communicate job.timed, .kill]
  | unreaped {reason : String} (hwait : h.program.waitError = none)
      (hhangs : h.program.hangs = true) (htimed : job.timed = true)
      (hreap : h.program.reapError = some reason) :
      Wait h job a (.error (waitFailure a reason))
        [.communicate true, .kill, .communicate false, .kill]
  | expired (hwait : h.program.waitError = none) (hhangs : h.program.hangs = true)
      (htimed : job.timed = true) (hreap : h.program.reapError = none) :
      Wait h job a (.error (Failure.timeout none .native))
        [.communicate true, .kill, .communicate false]
  | ended (hwait : h.program.waitError = none)
      (hends : ¬(h.program.hangs = true ∧ job.timed = true)) :
      Wait h job a (verdict h.program.status h.program.stdout) [.communicate job.timed]

theorem wait_await (h : Host) (job : Job) (a : TempFiles) :
    Wait h job a (await h job a).1 (await h job a).2 := by
  unfold await waitFor
  rcases hwait : h.program.waitError with _ | reason
  · by_cases hexpires : h.program.hangs = true ∧ job.timed = true
    · obtain ⟨hhangs, htimed⟩ := hexpires
      have hfirst : communicate h false job.timed = (.error .expired, [.communicate true]) := by
        simp [communicate, hwait, hhangs, htimed]
      rcases hreap : h.program.reapError with _ | reason
      · have hsecond : communicate h true false =
            (.ok h.program.stdout, [.communicate false]) := by simp [communicate, hreap]
        rw [hfirst, hsecond]
        exact .expired hwait hhangs htimed hreap
      · have hsecond : communicate h true false =
            (.error (.refused reason), [.communicate false]) := by simp [communicate, hreap]
        rw [hfirst, hsecond]
        exact .unreaped hwait hhangs htimed hreap
    · have hends : communicate h false job.timed =
          (.ok h.program.stdout, [.communicate job.timed]) := by
        simpa [communicate, hwait] using hexpires
      rw [hends]
      exact .ended hwait hexpires
  · have hbroken : communicate h false job.timed =
        (.error (.refused reason), [.communicate job.timed]) := by simp [communicate, hwait]
    rw [hbroken]
    exact .broken hwait

/-! ## The whole course -/

/-- How the stages can go one after the other, when the files are `files` at first. -/
inductive Course (h : Host) (job : Job) (a : TempFiles) (files : Files) :
    Except Failure (List UInt8) → Files → List Event → Prop where
  | unwritten {e : FileError} (hwrite : files.write a.source job.data = .error e) :
      Course h job a files
        (.error (Failure.process ("could not write \x60" ++ a.source.text ++ "\x60: " ++
          fileErrorText e a.source)))
        files []
  | unspawned {written : Files} {reason : String}
      (hwrite : files.write a.source job.data = .ok written)
      (hspawn : h.compiler.spawnError = some reason) :
      Course h job a files (.error (Failure.compilation reason)) written [job.compiling h a]
  | rejected {written : Files}
      (hwrite : files.write a.source job.data = .ok written)
      (hspawn : h.compiler.spawnError = none) (hstatus : h.compiler.status ≠ 0) :
      Course h job a files
        (.error (Failure.compilation
          (if h.compiler.stderr.isEmpty then h.compiler.stdout else h.compiler.stderr)))
        (filesCompiled h a written) [job.compiling h a]
  | missing {written : Files}
      (hwrite : files.write a.source job.data = .ok written)
      (hspawn : h.compiler.spawnError = none) (hstatus : h.compiler.status = 0)
      (hfind : (filesCompiled h a written).find? a.executable = none) :
      Course h job a files
        (.error (Failure.process ("compiler reported success but \x60" ++ a.name ++
          "\x60 is missing")))
        (filesCompiled h a written) [job.compiling h a]
  | unlaunched {written : Files} {reason : String}
      (hwrite : files.write a.source job.data = .ok written)
      (hspawn : h.compiler.spawnError = none) (hstatus : h.compiler.status = 0)
      (hfind : (filesCompiled h a written).find? a.executable ≠ none)
      (hlaunch : h.program.launchError = some reason) :
      Course h job a files
        (.error (Failure.process ("could not launch \x60" ++ a.name ++ "\x60: " ++ reason)))
        (filesCompiled h a written) [job.compiling h a, job.launching a]
  | launched {written : Files} {result : Except Failure (List UInt8)} {events : List Event}
      (hwrite : files.write a.source job.data = .ok written)
      (hspawn : h.compiler.spawnError = none) (hstatus : h.compiler.status = 0)
      (hfind : (filesCompiled h a written).find? a.executable ≠ none)
      (hlaunch : h.program.launchError = none) (hwait : Wait h job a result events) :
      Course h job a files result (filesCompiled h a written)
        (job.compiling h a :: job.launching a :: events)

@[simp] theorem foldl_record (events : List Event) (scene : Scene) :
    events.foldl Scene.record scene = { scene with events := scene.events ++ events } := by
  induction events generalizing scene with
  | nil => simp
  | cons e rest ih => simp [ih, Scene.record]

@[simp] theorem files_announceCompiler (h : Host) (job : Job) (a : TempFiles) (scene : Scene) :
    (announceCompiler h job a scene).files = scene.files := by
  unfold announceCompiler
  split <;> rfl

@[simp] theorem events_announceCompiler (h : Host) (job : Job) (a : TempFiles) (scene : Scene) :
    (announceCompiler h job a scene).events = scene.events ++ [job.compiling h a] := by
  unfold announceCompiler
  split <;> rfl

@[simp] theorem warnings_announceCompiler (h : Host) (job : Job) (a : TempFiles) (scene : Scene) :
    (announceCompiler h job a scene).warnings = scene.warnings := by
  unfold announceCompiler
  split <;> rfl

/-- Besides taking its course, an attempt only adds to the events. -/
theorem attempt_course (h : Host) (job : Job) (a : TempFiles) (scene : Scene) :
    ∃ events,
      Course h job a scene.files (attempt h job a scene).1 (attempt h job a scene).2.files events ∧
        (attempt h job a scene).2.events = scene.events ++ events ∧
          (attempt h job a scene).2.warnings = scene.warnings := by
  have hdata : encodeUtf8 job.code.toList = job.data := rfl
  simp only [attempt, writeSource, hdata]
  rcases hwrite : scene.files.write a.source job.data with e | written
  · exact ⟨[], .unwritten hwrite, by simp, rfl⟩
  simp only [callCompiler]
  cases hspawn : h.compiler.spawnError with
  | some reason =>
      exact ⟨[job.compiling h a], by simpa using .unspawned hwrite hspawn, by simp, by simp⟩
  | none =>
      by_cases hstatus : h.compiler.status = 0
      · simp only [if_pos hstatus, files_announceCompiler, checkExecutable, launch]
        cases hfind : (filesCompiled h a written).find? a.executable with
        | none =>
            exact ⟨[job.compiling h a], .missing hwrite hspawn hstatus hfind, by simp, by simp⟩
        | some entry =>
            have hfound : (filesCompiled h a written).find? a.executable ≠ none := by simp [hfind]
            cases hlaunch : h.program.launchError with
            | some reason =>
                refine ⟨[job.compiling h a, job.launching a], ?_, ?_, ?_⟩
                · exact .unlaunched hwrite hspawn hstatus hfound hlaunch
                · simp [Scene.record, Job.launching]
                · simp [Scene.record]
            | none =>
                refine ⟨job.compiling h a :: job.launching a :: (await h job a).2, ?_, ?_, ?_⟩
                · simpa [Scene.record] using
                    .launched hwrite hspawn hstatus hfound hlaunch (wait_await h job a)
                · simp [Scene.record, Job.launching]
                · simp [Scene.record]
      · simp only [if_neg hstatus, files_announceCompiler]
        exact ⟨[job.compiling h a], .rejected hwrite hspawn hstatus, by simp, by simp⟩

/-! ## Failures on the way -/

/-- The failures that a native run can come to before any clean-up. -/
inductive Arises : Failure → Prop where
  | process (detail : String) : Arises (Failure.process detail)
  | compilation (diagnostic : String) : Arises (Failure.compilation diagnostic)
  | timeout : Arises (Failure.timeout none .native)
  | inputExhausted : Arises (Failure.inputExhausted none .native)
  | signal (number : Int) : Arises (Failure.signal number)
  | outOfBounds : Arises (Failure.outOfBounds none .native)

variable {result : Except Failure (List UInt8)} {left : Files} {events : List Event}
  {failure : Failure}

theorem arises_of_verdict {status : Int} {stdout : List UInt8}
    (hv : verdict status stdout = .error failure) : Arises failure := by
  unfold verdict at hv
  split at hv
  · cases hv
  · split at hv
    · cases hv
      exact .inputExhausted
    · split at hv <;> cases hv
      · exact .signal _
      · exact .outOfBounds

theorem Wait.arises (hw : Wait h job a result events) (hr : result = .error failure) :
    Arises failure := by
  cases hw with
  | broken => cases hr; exact .process _
  | unreaped => cases hr; exact .process _
  | expired => cases hr; exact .timeout
  | ended => exact arises_of_verdict hr

theorem Course.arises (hc : Course h job a files result left events)
    (hr : result = .error failure) : Arises failure := by
  cases hc with
  | unwritten => cases hr; exact .process _
  | unspawned => cases hr; exact .compilation _
  | rejected => cases hr; exact .compilation _
  | missing => cases hr; exact .process _
  | unlaunched => cases hr; exact .process _
  | launched _ _ _ _ _ hwait => exact hwait.arises hr

/-- A failure that commands report, of the native backend and at no place of the program. -/
structure IsNative (f : Failure) : Prop where
  reported : f.cause.isReported = true
  backend_eq : f.backend = some .native
  position_eq : f.position = none

/-- Notes are only made while cleaning up. -/
theorem Arises.isNative (ha : Arises failure) : IsNative failure ∧ failure.notes = [] := by
  cases ha <;> exact ⟨⟨rfl, rfl, rfl⟩, rfl⟩

/-! ## Files on the way -/

theorem TempFiles.source_ne_executable (a : TempFiles) : a.source ≠ a.executable := by
  intro heq
  have hname : a.name ++ ".rs" = a.name := (a.directory.child_inj).mp heq
  have hsize := congrArg String.utf8ByteSize hname
  rw [String.utf8ByteSize_append] at hsize
  have hsuffix : ".rs".utf8ByteSize = 3 := rfl
  omega

theorem filesCompiled_changedOnlyAt (h : Host) (a : TempFiles) (files : Files) :
    Files.ChangedOnlyAt [a.executable] files (filesCompiled h a files) := by
  unfold filesCompiled
  split
  · cases hwrite : files.write a.executable [] with
    | error e => exact .refl _ files
    | ok compiled => exact .write hwrite
  · exact .refl _ files

theorem Course.changedOnlyAt (hc : Course h job a files result left events) :
    Files.ChangedOnlyAt [a.source, a.executable] files left := by
  have hwritten : ∀ {written}, files.write a.source job.data = .ok written →
      Files.ChangedOnlyAt [a.source, a.executable] files written :=
    fun hwrite => (Files.ChangedOnlyAt.write hwrite).mono (by simp)
  have hcompiled : ∀ {written}, files.write a.source job.data = .ok written →
      Files.ChangedOnlyAt [a.source, a.executable] files (filesCompiled h a written) :=
    fun hwrite => (hwritten hwrite).trans ((filesCompiled_changedOnlyAt h a _).mono (by simp))
  cases hc with
  | unwritten => exact .refl _ _
  | unspawned hwrite => exact hwritten hwrite
  | rejected hwrite => exact hcompiled hwrite
  | missing hwrite => exact hcompiled hwrite
  | unlaunched hwrite => exact hcompiled hwrite
  | launched hwrite => exact hcompiled hwrite

/-- The compiler can always leave an executable where the source could be written. -/
theorem find?_filesCompiled {written : Files}
    (hwrite : files.write a.source job.data = .ok written) :
    (filesCompiled h a written).find? a.executable ≠ none ↔
      h.compiler.creates = true ∨ files.find? a.executable ≠ none := by
  have hchanged := Files.ChangedOnlyAt.write hwrite
  have hkept : written.find? a.executable = files.find? a.executable :=
    hchanged.elsewhere _ (by simpa using a.source_ne_executable.symm)
  unfold filesCompiled
  split
  · next hcreates =>
    refine iff_of_true ?_ (.inl hcreates)
    obtain ⟨⟨q, hreach⟩, _⟩ := Files.write_eq_ok_iff.mp hwrite
    have hsize : a.name.utf8ByteSize ≤ (a.name ++ ".rs").utf8ByteSize := by simp
    obtain ⟨r, hr⟩ := Files.reach_child_of_size_le hsize hreach
    have hreach' : written.reach a.executable = .ok r :=
      hchanged.directories.reach_eq_ok_iff.mp hr
    exact Files.find?_of_write hreach' []
  · next hcreates => simp [hcreates, hkept]

end Compiled

end TapeMachine
