import TapeMachine.Proofs.CleanUp

/-!
# The protocol of native runs

A native run compiles at most once and launches at most once, and only what was compiled. It waits
for whatever it has launched, and kills it exactly if that wait fails. What the program's end means
is asked exactly when the wait has ended well.
-/

namespace TapeMachine

def Event.isCompile : Event → Bool
  | .compile .. => true
  | _ => false

def Event.isLaunch : Event → Bool
  | .launch .. => true
  | _ => false

namespace Compiled

variable {h : Host} {job : Job} {a : TempFiles} {files left : Files} {scene : Scene}
  {result : Except Failure (List UInt8)} {events : List Event}

@[simp] theorem isCompile_compiling (job : Job) (h : Host) (a : TempFiles) :
    (job.compiling h a).isCompile = true := rfl

@[simp] theorem isLaunch_compiling (job : Job) (h : Host) (a : TempFiles) :
    (job.compiling h a).isLaunch = false := rfl

@[simp] theorem isCompile_launching (job : Job) (a : TempFiles) :
    (job.launching a).isCompile = false := rfl

@[simp] theorem isLaunch_launching (job : Job) (a : TempFiles) :
    (job.launching a).isLaunch = true := rfl

/-- The source can be written, the compiler ends well, and there is an executable. -/
structure IsLaunchable (h : Host) (job : Job) (a : TempFiles) (files : Files) : Prop where
  written : ∃ written, files.write a.source job.data = .ok written
  spawned : h.compiler.spawnError = none
  accepted : h.compiler.status = 0
  executable : h.compiler.creates = true ∨ files.find? a.executable ≠ none

/-- The program is started. -/
structure IsLaunched (h : Host) (job : Job) (a : TempFiles) (files : Files) : Prop extends
    IsLaunchable h job a files where
  started : h.program.launchError = none

/-- The program outlasts a bounded wait. -/
def Expires (h : Host) (job : Job) : Prop :=
  h.program.waitError = none ∧ h.program.hangs = true ∧ job.timed = true

def WaitFails (h : Host) (job : Job) : Prop := h.program.waitError ≠ none ∨ Expires h job

/-- Whether a result says how a program has ended. -/
def IsJudgement (result : Except Failure (List UInt8)) : Prop :=
  ∀ failure, result = .error failure → failure.cause.isExecution = true

/-- How the events of a run hang together with each other, with the host and with the result. -/
structure FollowsProtocol (h : Host) (job : Job) (a : TempFiles) (files : Files)
    (result : Except Failure (List UInt8)) (events : List Event) : Prop where
  code_eq : ∀ arguments directory code, .compile arguments directory code ∈ events →
    code = Rust.code job.program job.input
  compile_once : events.countP Event.isCompile ≤ 1
  launch_once : events.countP Event.isLaunch ≤ 1
  launch_iff : (∃ e ∈ events, e.isLaunch = true) ↔ IsLaunchable h job a files
  launch_late : ∀ before e rest, events = before ++ e :: rest → e.isLaunch = true →
    ∃ c ∈ before, c.isCompile = true
  waits : IsLaunched h job a files → ∃ before e rest,
    events = before ++ e :: .communicate job.timed :: rest ∧ e.isLaunch = true
  kill_iff : .kill ∈ events ↔ IsLaunched h job a files ∧ WaitFails h job
  kill_late : ∀ before rest, events = before ++ .kill :: rest →
    ∃ e ∈ before, e.isLaunch = true
  expired : IsLaunched h job a files → Expires h job → h.program.reapError = none →
    result = .error (Failure.timeout none .native)
  /-- The wait breaks off, or the one after a kill does. -/
  broken : IsLaunched h job a files → ∀ reason, h.program.waitError = some reason ∨
    Expires h job ∧ h.program.reapError = some reason → result = .error (waitFailure a reason)
  judged : IsLaunched h job a files → ¬WaitFails h job →
    result = verdict h.program.status h.program.stdout
  judged_iff : IsJudgement result ↔ IsLaunched h job a files ∧ ¬WaitFails h job

/-! ## Waiting -/

theorem isJudgement_verdict (status : Int) (stdout : List UInt8) :
    IsJudgement (verdict status stdout) := by
  intro failure hv
  unfold verdict at hv
  split at hv
  · cases hv
  · split at hv
    · cases hv
      rfl
    · split at hv <;> cases hv <;> rfl

theorem not_isJudgement {failure : Failure} (hf : failure.cause.isExecution = false) :
    ¬IsJudgement (.error failure) := by
  intro hj
  have htrue := hj failure rfl
  rw [hf] at htrue
  cases htrue

theorem Wait.events_eq (hw : Wait h job a result events) :
    ∃ rest, events = .communicate job.timed :: rest ∧
      ∀ e ∈ rest, e = .kill ∨ e = .communicate false := by
  cases hw with
  | broken => exact ⟨_, rfl, by simp⟩
  | unreaped _ _ htimed => exact ⟨_, by rw [htimed], by simp⟩
  | expired _ _ htimed => exact ⟨_, by rw [htimed], by simp⟩
  | ended => exact ⟨_, rfl, by simp⟩

/-- A wait that fails kills the program and leaves no judgement; any other judges its end. -/
theorem Wait.cases_waitFails (hw : Wait h job a result events) :
    WaitFails h job ∧ .kill ∈ events ∧ ¬IsJudgement result ∨
      ¬WaitFails h job ∧ .kill ∉ events ∧ result = verdict h.program.status h.program.stdout := by
  cases hw with
  | broken hwait =>
      exact .inl ⟨.inl (by simp [hwait]), by simp, not_isJudgement rfl⟩
  | unreaped hwait hhangs htimed =>
      exact .inl ⟨.inr ⟨hwait, hhangs, htimed⟩, by simp, not_isJudgement rfl⟩
  | expired hwait hhangs htimed =>
      exact .inl ⟨.inr ⟨hwait, hhangs, htimed⟩, by simp, not_isJudgement rfl⟩
  | ended hwait hends =>
      refine .inr ⟨?_, by simp, rfl⟩
      rintro (hbroken | hexpires)
      · exact hbroken hwait
      · exact hends hexpires.2

theorem Wait.expired_eq (hw : Wait h job a result events) (he : Expires h job)
    (hreap : h.program.reapError = none) : result = .error (Failure.timeout none .native) := by
  cases hw with
  | broken hwait => simp [he.1] at hwait
  | unreaped _ _ _ hreap' => simp [hreap] at hreap'
  | expired => rfl
  | ended _ hends => exact absurd he.2 hends

theorem Wait.broken_eq (hw : Wait h job a result events) {reason : String}
    (hreason : h.program.waitError = some reason ∨
      Expires h job ∧ h.program.reapError = some reason) :
    result = .error (waitFailure a reason) := by
  cases hw with
  | broken hwait => simp_all [Expires]
  | unreaped hwait _ _ hreap => simp_all
  | expired hwait _ _ hreap => simp_all
  | ended hwait hends => simp_all [Expires]

/-! ## Courses -/

theorem isLaunchable_of_find? {written : Files}
    (hwrite : files.write a.source job.data = .ok written)
    (hspawn : h.compiler.spawnError = none) (hstatus : h.compiler.status = 0)
    (hfind : (filesCompiled h a written).find? a.executable ≠ none) :
    IsLaunchable h job a files where
  written := ⟨written, hwrite⟩
  spawned := hspawn
  accepted := hstatus
  executable := (find?_filesCompiled hwrite).mp hfind

/-- A program that is not started leaves few events behind, and no judgement. -/
theorem Course.of_not_isLaunched (hc : Course h job a files result left events)
    (hn : ¬IsLaunched h job a files) :
    ¬IsJudgement result ∧
      (¬IsLaunchable h job a files ∧ (events = [] ∨ events = [job.compiling h a]) ∨
        IsLaunchable h job a files ∧ events = [job.compiling h a, job.launching a]) := by
  cases hc with
  | unwritten hwrite =>
      refine ⟨not_isJudgement rfl, .inl ⟨?_, .inl rfl⟩⟩
      rintro ⟨⟨written, hok⟩, -⟩
      simp [hwrite] at hok
  | unspawned hwrite hspawn =>
      refine ⟨not_isJudgement rfl, .inl ⟨?_, .inr rfl⟩⟩
      rintro ⟨-, hspawned, -⟩
      simp [hspawn] at hspawned
  | rejected hwrite hspawn hstatus =>
      exact ⟨not_isJudgement rfl, .inl ⟨fun hl => hstatus hl.accepted, .inr rfl⟩⟩
  | missing hwrite hspawn hstatus hfind =>
      refine ⟨not_isJudgement rfl, .inl ⟨?_, .inr rfl⟩⟩
      intro hl
      exact (find?_filesCompiled hwrite).mpr hl.executable hfind
  | unlaunched hwrite hspawn hstatus hfind =>
      have hl := isLaunchable_of_find? hwrite hspawn hstatus hfind
      exact ⟨not_isJudgement rfl, .inr ⟨hl, rfl⟩⟩
  | launched hwrite hspawn hstatus hfind hlaunch =>
      have hl := isLaunchable_of_find? hwrite hspawn hstatus hfind
      exact absurd ⟨hl, hlaunch⟩ hn

theorem Course.of_isLaunched (hc : Course h job a files result left events)
    (hl : IsLaunched h job a files) :
    ∃ waited, Wait h job a result waited ∧
      events = job.compiling h a :: job.launching a :: waited := by
  obtain ⟨⟨⟨written, hok⟩, hspawned, haccepted, hexecutable⟩, hstarted⟩ := hl
  cases hc with
  | unwritten hwrite => simp [hwrite] at hok
  | unspawned _ hspawn => simp [hspawn] at hspawned
  | rejected _ _ hstatus => exact absurd haccepted hstatus
  | missing hwrite _ _ hfind => exact absurd hfind ((find?_filesCompiled hwrite).mpr hexecutable)
  | unlaunched _ _ _ _ hlaunch => simp [hlaunch] at hstarted
  | launched _ _ _ _ _ hwait => exact ⟨_, hwait, rfl⟩

theorem compile_before_launch (job : Job) (h : Host) (a : TempFiles) (events : List Event) :
    ∀ before e rest, job.compiling h a :: events = before ++ e :: rest → e.isLaunch = true →
      ∃ c ∈ before, c.isCompile = true := by
  intro before e rest heq he
  cases before with
  | nil =>
      obtain ⟨rfl, -⟩ := List.cons.inj heq
      cases he
  | cons c before =>
      obtain ⟨rfl, -⟩ := List.cons.inj heq
      exact ⟨_, List.mem_cons_self, rfl⟩

theorem launch_before_kill (job : Job) (h : Host) (a : TempFiles) (events : List Event) :
    ∀ before rest, job.compiling h a :: job.launching a :: events = before ++ .kill :: rest →
      ∃ e ∈ before, e.isLaunch = true := by
  intro before rest heq
  rcases before with _ | ⟨c, _ | ⟨e, before⟩⟩
  · cases (List.cons.inj heq).1
  · cases (List.cons.inj (List.cons.inj heq).2).1
  · obtain ⟨-, htail⟩ := List.cons.inj heq
    obtain ⟨rfl, -⟩ := List.cons.inj htail
    exact ⟨job.launching a, by simp, rfl⟩

/-- Whatever result takes the place of the one of a course without a start. -/
theorem followsProtocol_of_not_isLaunched (hc : Course h job a files result left events)
    (hn : ¬IsLaunched h job a files) {replaced : Except Failure (List UInt8)}
    (hr : ¬IsJudgement replaced) : FollowsProtocol h job a files replaced events := by
  obtain ⟨-, hevents⟩ := hc.of_not_isLaunched hn
  have hkill : .kill ∉ events := by
    rcases hevents with ⟨-, rfl | rfl⟩ | ⟨-, rfl⟩ <;> simp [Job.compiling, Job.launching]
  constructor
  case code_eq =>
    rcases hevents with ⟨-, rfl | rfl⟩ | ⟨-, rfl⟩ <;> simp [Job.compiling, Job.launching, Job.code]
  case compile_once => rcases hevents with ⟨-, rfl | rfl⟩ | ⟨-, rfl⟩ <;> simp [List.countP_cons]
  case launch_once => rcases hevents with ⟨-, rfl | rfl⟩ | ⟨-, rfl⟩ <;> simp [List.countP_cons]
  case launch_iff => rcases hevents with ⟨hl, rfl | rfl⟩ | ⟨hl, rfl⟩ <;> simp [hl]
  case launch_late =>
    rcases hevents with ⟨-, rfl | rfl⟩ | ⟨-, rfl⟩
    · simp
    · exact compile_before_launch job h a []
    · exact compile_before_launch job h a [job.launching a]
  case waits => exact fun hl => absurd hl hn
  case kill_iff => exact iff_of_false hkill fun hl => hn hl.1
  case kill_late =>
    intro before rest heq
    exact absurd (by simp [heq]) hkill
  case expired => exact fun hl => absurd hl hn
  case broken => exact fun hl => absurd hl hn
  case judged => exact fun hl => absurd hl hn
  case judged_iff => exact iff_of_false hr fun hl => hn hl.1

theorem Course.followsProtocol (hc : Course h job a files result left events) :
    FollowsProtocol h job a files result events := by
  by_cases hl : IsLaunched h job a files
  · obtain ⟨waited, hw, rfl⟩ := hc.of_isLaunched hl
    obtain ⟨rest, hwaited, hrest⟩ := hw.events_eq
    have hplain : ∀ e ∈ waited, e.isCompile = false ∧ e.isLaunch = false := by
      intro e he
      rw [hwaited] at he
      rcases List.mem_cons.mp he with rfl | he
      · exact ⟨rfl, rfl⟩
      · rcases hrest e he with rfl | rfl <;> exact ⟨rfl, rfl⟩
    have hcompiles : waited.countP Event.isCompile = 0 :=
      List.countP_eq_zero.mpr fun e he => by simp [(hplain e he).1]
    have hlaunches : waited.countP Event.isLaunch = 0 :=
      List.countP_eq_zero.mpr fun e he => by simp [(hplain e he).2]
    have hcode : ∀ arguments directory code, .compile arguments directory code ∉ waited :=
      fun _ _ _ he => by simpa [Event.isCompile] using (hplain _ he).1
    constructor
    case code_eq => simp [Job.compiling, Job.launching, Job.code, hcode]
    case compile_once => simp [List.countP_cons, hcompiles]
    case launch_once => simp [List.countP_cons, hlaunches]
    case launch_iff => simp [hl.toIsLaunchable]
    case launch_late => exact compile_before_launch job h a _
    case waits =>
      intro _
      exact ⟨[job.compiling h a], job.launching a, rest, by simp [hwaited], rfl⟩
    case kill_iff =>
      rcases hw.cases_waitFails with ⟨hf, hkill, -⟩ | ⟨hf, hkill, -⟩ <;>
        simp [hl, hf, hkill, Job.compiling, Job.launching]
    case kill_late => exact launch_before_kill job h a waited
    case expired => exact fun _ => hw.expired_eq
    case broken => exact fun _ _ => hw.broken_eq
    case judged =>
      intro _ hf
      rcases hw.cases_waitFails with ⟨hfails, -⟩ | ⟨-, -, hverdict⟩
      · exact absurd hfails hf
      · exact hverdict
    case judged_iff =>
      rcases hw.cases_waitFails with ⟨hf, -, hj⟩ | ⟨hf, -, rfl⟩
      · simp [hf, hj]
      · simp [hl, hf, isJudgement_verdict]
  · exact followsProtocol_of_not_isLaunched hc hl (hc.of_not_isLaunched hl).1

/-! ## The whole run -/

theorem not_isLaunchable_of_not_isDirectory
    (hdir : files.isDirectory a.directory ≠ .ok true) : ¬IsLaunchable h job a files := by
  rintro ⟨⟨written, hwrite⟩, -⟩
  obtain ⟨⟨q, hreach⟩, -⟩ := Files.write_eq_ok_iff.mp hwrite
  exact hdir (Files.isDirectory_of_reach_child hreach)

theorem events_settle (h : Host) (a : TempFiles) (result : Except Failure (List UInt8))
    (scene : Scene) : (settle h a (result, scene)).2.events = scene.events := by
  cases hd : a.discard h scene.files with
  | error e => simp [settle, hd]
  | ok outcome => cases result <;> simp [settle, hd, Scene.warn]

theorem isNative_withoutNotes_iff :
    (∀ failure, withoutNotes result = .error failure → IsNative failure) ↔
      ∀ failure, result = .error failure → IsNative failure := by
  cases result with
  | ok output => simp
  | error failure =>
      have hsame : IsNative { failure with notes := [] } ↔ IsNative failure :=
        ⟨fun hf => ⟨hf.1, hf.2, hf.3⟩, fun hf => ⟨hf.1, hf.2, hf.3⟩⟩
      simp [hsame]

/-- When the clean-up cannot even look for the directory, that is all that is heard of the run. -/
theorem run_of_lost_directory (hpossible : Path.isPossible (job.directory.getD "") = true)
    {e : FileError}
    (hdir : scene.files.isDirectory (TempFiles.reserve h job.directory).directory = .error e) :
    (run h job scene).1 = .error
      (Failure.system (fileErrorText e (TempFiles.reserve h job.directory).directory)) := by
  obtain ⟨events, hcourse, -⟩ := attempt_course h job (TempFiles.reserve h job.directory) scene
  have hlost := (hcourse.changedOnlyAt.directories.isDirectory_eq _).symm.trans hdir
  rw [run_of_possible hpossible]
  simp [settle, discard_eq_error_iff.mpr hlost]

/-- The events of a run follow the protocol, whatever the directory. When its name is too long to be
looked up, the clean-up itself fails, and that failure, which commands do not report, is the result
of the run. Nothing else makes a run fail in this way. -/
theorem run_follows_protocol (h : Host) (job : Job) (scene : Scene) :
    (Path.isPossible (job.directory.getD "") = true → ∃ events,
      (run h job scene).2.events = scene.events ++ events ∧
        FollowsProtocol h job (TempFiles.reserve h job.directory) scene.files
          (withoutNotes (run h job scene).1) events ∧
        ((∀ failure, (run h job scene).1 = .error failure → IsNative failure) ↔
          scene.files.isDirectory (TempFiles.reserve h job.directory).directory ≠
            .error .nameTooLong)) ∧
    (Path.isPossible (job.directory.getD "") = false →
      run h job scene = (.error Failure.impossiblePath, scene)) := by
  refine ⟨fun hpossible => ?_, run_of_impossible⟩
  have hresult := withoutNotes_run h scene hpossible
  rw [← isNative_withoutNotes_iff, hresult, run_of_possible hpossible]
  generalize TempFiles.reserve h job.directory = a
  obtain ⟨events, hcourse, hevents, -⟩ := attempt_course h job a scene
  refine ⟨events, (events_settle h a _ _).trans hevents, ?_⟩
  cases hdir : scene.files.isDirectory a.directory with
  | ok found =>
      refine ⟨hcourse.followsProtocol, iff_of_true ?_ (by simp)⟩
      intro failure hr
      exact (hcourse.arises hr).isNative.1
  | error e =>
      obtain ⟨rfl, -⟩ := Files.isDirectory_eq_error_iff.mp hdir
      have hn : ¬IsLaunched h job a scene.files :=
        fun hl => not_isLaunchable_of_not_isDirectory (by simp [hdir]) hl.toIsLaunchable
      refine ⟨followsProtocol_of_not_isLaunched hcourse hn (not_isJudgement rfl), ?_⟩
      refine iff_of_false (fun hnative => ?_) (fun hne => hne rfl)
      cases (hnative _ rfl).reported

/-- One name that is too long is enough for that. -/
theorem run_of_long_name {name : List Char} (hname : job.directory = some (String.ofList name))
    (hnull : '\x00' ∉ name) (hslash : '/' ∉ name)
    (hlong : Files.maxNameSize < (String.ofList name).utf8ByteSize)
    (hworking : scene.files.isDirectory (Path.ofDirectory h.workingDirectory) = .ok true) :
    ∃ reason, (run h job scene).1 = .error (Failure.system reason) := by
  have hpossible : Path.isPossible (job.directory.getD "") = true := by
    simp [hname, Path.isPossible, hnull]
  have hplain : name ≠ [] ∧ name ≠ ['.'] ∧ name ≠ ['.', '.'] := by
    refine ⟨?_, ?_, ?_⟩ <;> rintro rfl <;> exact absurd hlong (by decide)
  have hdirectory : (TempFiles.reserve h job.directory).directory =
      (Path.ofDirectory h.workingDirectory).child (String.ofList name) := by
    rw [TempFiles.reserve, hname]
    exact Path.resolve_of_plain h.workingDirectory hslash hplain
  have hdir := Files.isDirectory_child_of_long hworking hlong
  rw [← hdirectory] at hdir
  exact ⟨_, run_of_lost_directory hpossible hdir⟩

/-- A run in a directory with a name of 256 letters. -/
theorem run_unreported_of_long_name :
    ∃ (h : Host) (job : Job) (scene : Scene), scene.files.IsTree ∧
      Path.isPossible (job.directory.getD "") = true ∧
      ∃ failure, (run h job scene).1 = .error failure ∧ failure.cause.isReported = false := by
  let h : Host :=
    { workingDirectory := "/home"
      environment := []
      bashDirectories := []
      versionStatus := some 0
      compiler := ⟨none, 0, "", "", true⟩
      program := ⟨none, none, false, none, 0, [121]⟩
      sourceRemovalError := none
      executableRemovalError := none
      draws := List.range 62 |>.map Int.ofNat
      polls := fun _ => 1
      fuel := 1 }
  let name : List Char := List.replicate 256 'n'
  let job : Job := ⟨[.addBy 1, .print], [], false, some (String.ofList name), none, none, 0⟩
  let scene : Scene := .initial [(⟨"", ["home"]⟩, .directory)]
  have hnull : '\x00' ∉ name := fun hmem => absurd (List.eq_of_mem_replicate hmem) (by decide)
  have hslash : '/' ∉ name := fun hmem => absurd (List.eq_of_mem_replicate hmem) (by decide)
  have hlong : Files.maxNameSize < (String.ofList name).utf8ByteSize := by decide +kernel
  have hhome : Path.ofDirectory h.workingDirectory = ⟨"", ["home"]⟩ := by decide +kernel
  have hworking : scene.files.isDirectory (Path.ofDirectory h.workingDirectory) = .ok true := by
    rw [hhome]
    rfl
  have hname : job.directory = some (String.ofList name) := rfl
  obtain ⟨reason, hrun⟩ := run_of_long_name hname hnull hslash hlong hworking
  refine ⟨h, job, scene, by decide +kernel, ?_, _, hrun, rfl⟩
  simp [job, Path.isPossible, hnull]

end Compiled

end TapeMachine
