import TapeMachine.Session
import TapeMachine.Proofs.Brackets
import TapeMachine.Proofs.Records

/-!
# Probing and dispatching

A source whose brackets do not match is refused before anything happens. For any other, `auto` is
one probe followed by all that the backend does on which the probe decides, to the last event.
-/

namespace TapeMachine

namespace Session

open Scene

variable {h : Host} {settings : Settings} {request : Request} {program : List Instruction}
  {backend : String} {scene : Scene}

/-! ## Backends -/

/-- A native run is that of a job under the settings, unless the input cannot be encoded. -/
theorem onNative_cases (h : Host) (settings : Settings) (request : Request)
    (program : List Instruction) :
    (∃ failure, inputBytes request.input = .error failure ∧
      ∀ scene, onNative h settings request program scene = (.failed failure, scene)) ∨
    ∃ job : Compiled.Job, job.compiler = settings.compiler ∧
      ∀ scene, onNative h settings request program scene =
        (.ofExcept (Compiled.run h job scene).1, (Compiled.run h job scene).2) := by
  unfold onNative Compiled.runGiven
  cases inputBytes request.input with
  | error failure => exact .inl ⟨failure, rfl, fun _ => rfl⟩
  | ok data => exact .inr ⟨_, rfl, fun _ => rfl⟩

theorem appendOnly_onNative (h : Host) (settings : Settings) (request : Request)
    (program : List Instruction) : AppendOnly (onNative h settings request program) := by
  intro earlier later
  rcases onNative_cases h settings request program with ⟨failure, -, hrefused⟩ | ⟨job, -, hjob⟩
  · rw [hrefused, hrefused]
  · rw [hjob, hjob, Compiled.appendOnly_run]

theorem remarks_onNative (h : Host) (settings : Settings) (request : Request)
    (program : List Instruction) (scene : Scene) :
    Remarks scene (onNative h settings request program scene).2 := by
  rcases onNative_cases h settings request program with ⟨failure, -, hrefused⟩ | ⟨job, -, hjob⟩
  · rw [hrefused]
    exact .of_eq rfl rfl
  · rw [hjob]
    exact Compiled.remarks_run h job scene

/-- It is no probe, and any compiler in it is that of the settings. -/
def IsOfRun (h : Host) (settings : Settings) (e : Event) : Prop :=
  (∀ compiler, e ≠ .probe compiler) ∧
    ∀ arguments directory code, e = .compile arguments directory code →
      arguments.head? = some (h.compilerFor settings.compiler)

theorem isOfRun_of_mem_onNative (hnew : scene.events = []) :
    ∀ e ∈ (onNative h settings request program scene).2.events, IsOfRun h settings e := by
  intro e he
  rcases onNative_cases h settings request program with
    ⟨failure, -, hrefused⟩ | ⟨job, hcompiler, hjob⟩
  · rw [hrefused, hnew] at he
    cases he
  rw [hjob] at he
  cases Compiled.ownEvent_of_mem_run hnew e he with
  | compile =>
      refine ⟨fun _ => Event.noConfusion, ?_⟩
      rintro _ _ _ ⟨⟩
      rw [← hcompiler]
      rfl
  | launch => exact ⟨fun _ => Event.noConfusion, fun _ _ _ => Event.noConfusion⟩
  | communicate => exact ⟨fun _ => Event.noConfusion, fun _ _ _ => Event.noConfusion⟩
  | kill => exact ⟨fun _ => Event.noConfusion, fun _ _ _ => Event.noConfusion⟩

theorem appendOnly_onMachine (h : Host) (settings : Settings) (request : Request)
    (program : List Instruction) : AppendOnly (onMachine h settings request program) := by
  intro earlier later
  have hstats : (earlier.extend later).stats = later.stats := rfl
  simp only [onMachine, write_extend, hstats]
  cases request.counted <;> rfl

theorem appendOnly_dispatch (h : Host) (settings : Settings) (request : Request)
    (backend : String) (program : List Instruction) :
    AppendOnly (dispatch h settings request backend program) := by
  intro earlier later
  unfold dispatch
  split
  · exact appendOnly_onNative h settings request program earlier later
  · split
    · exact appendOnly_onMachine h settings request program earlier later
    · rfl

theorem events_onMachine (h : Host) (settings : Settings) (request : Request)
    (program : List Instruction) (scene : Scene) :
    (onMachine h settings request program scene).2.events = scene.events := by
  unfold onMachine
  cases request.counted <;> rfl

theorem files_onMachine (h : Host) (settings : Settings) (request : Request)
    (program : List Instruction) (scene : Scene) :
    (onMachine h settings request program scene).2.files = scene.files := by
  unfold onMachine
  cases request.counted <;> rfl

/-! ## The probe -/

/-- The backend that a probe decides for. -/
def backendFor (h : Host) : String := if h.versionStatus = some 0 then "native" else "interpret"

/-- The scene after a probe and its announcement. -/
def probed (h : Host) (settings : Settings) (scene : Scene) : Scene :=
  (scene.record (.probe (h.compilerFor settings.compiler))).write .stderr
    (if 0 < settings.verbosity then [Style.dim ("  ~ backend: " ++ backendFor h) ++ "\n"] else [])

theorem chooseBackend_eq (h : Host) (settings : Settings) (scene : Scene) :
    chooseBackend h settings scene = (backendFor h, probed h settings scene) := by
  by_cases hstatus : h.versionStatus = some 0 <;> by_cases hverbose : 0 < settings.verbosity <;>
    simp [chooseBackend, probe, probed, backendFor, hstatus, hverbose, write]

theorem dispatch_of_available (hstatus : h.versionStatus = some 0) (scene : Scene) :
    dispatch h settings request (backendFor h) program scene =
      onNative h settings request program scene := by
  rw [backendFor, if_pos hstatus]
  rfl

theorem dispatch_of_unavailable (hstatus : h.versionStatus ≠ some 0) (scene : Scene) :
    dispatch h settings request (backendFor h) program scene =
      onMachine h settings request program scene := by
  rw [backendFor, if_neg hstatus]
  rfl

/-! ## Behind the check of brackets -/

theorem parseProgram_of_validate (hvalid : validate request.source = .ok ()) :
    parseProgram request.source = .ok (condense request.source.units) := by
  rw [parseProgram, hvalid]

theorem runOn_of_validate (hvalid : validate request.source = .ok ()) (hb : backend ≠ "auto") :
    runOn h settings request backend scene =
      dispatch h settings request backend (condense request.source.units) scene := by
  rw [runOn, parseProgram_of_validate hvalid]
  exact if_neg hb

theorem runOn_auto_of_validate (hvalid : validate request.source = .ok ()) :
    runOn h settings request "auto" scene =
      dispatch h settings request (backendFor h) (condense request.source.units)
        (probed h settings scene) := by
  rw [runOn, parseProgram_of_validate hvalid]
  simp only [↓reduceIte, chooseBackend_eq]

theorem backendFor_ne_auto (h : Host) : backendFor h ≠ "auto" := by
  unfold backendFor
  split <;> decide

/-- What every way to use a source does when its brackets do not match. -/
structure Refuses (h : Host) (settings : Settings) (request : Request) (scene : Scene)
    (failure : Failure) : Prop where
  failure_eq : ∃ position, failure = Failure.unmatchedBracket position none
  parseProgram_eq : parseProgram request.source = .error failure
  rustCode_eq : rustCode request.source request.input = .error failure
  runOn_eq : ∀ backend, runOn h settings request backend scene = (.failed failure, scene)
  run_eq : run h settings request scene = (.failed failure, scene)
  runInterpreted_eq : runInterpreted h settings request scene = (.failed failure, scene)
  runNatively_eq : runNatively h settings request scene = (.failed failure, scene)

/-- How `auto` goes beside the backend that the probe decides for, when both start from `scene`.
After the probe they do the same: both add the record of `later`, and leave its files and
counters. -/
structure FollowsProbe (h : Host) (settings : Settings) (request : Request)
    (scene later : Scene) : Prop where
  outcome_eq : (runOn h settings request "auto" scene).1 =
    (runOn h settings request (backendFor h) scene).1
  chosen_scene : (runOn h settings request (backendFor h) scene).2 = scene.extend later
  auto_scene : (runOn h settings request "auto" scene).2 = (probed h settings scene).extend later
  unprobed : ∀ compiler, .probe compiler ∉ later.events
  compiler_eq : ∀ arguments directory code, .compile arguments directory code ∈ later.events →
    arguments.head? = some (h.compilerFor settings.compiler)
  /-- The machine is not asked, whatever becomes of the native run. -/
  native : h.versionStatus = some 0 →
    (runOn h settings request "auto" scene).1 =
      (onNative h settings request (condense request.source.units) scene).1 ∧
    later.stats = scene.stats ∧ ∀ w ∈ later.writes, w.stream = .stderr
  interpreted : h.versionStatus ≠ some 0 →
    (runOn h settings request "auto" scene).1 =
      (onMachine h settings request (condense request.source.units) scene).1 ∧
    later.events = [] ∧ later.files = scene.files

theorem refuses_of_validate {failure : Failure} (hinvalid : validate request.source = .error failure) :
    Refuses h settings request scene failure := by
  have hparse : parseProgram request.source = .error failure := by rw [parseProgram, hinvalid]
  have hrun : ∀ backend, runOn h settings request backend scene = (.failed failure, scene) := by
    intro backend
    rw [runOn, hparse]
  constructor
  case failure_eq =>
    obtain ⟨position, hfailure, -⟩ := exists_unmatched_of_validate hinvalid
    exact ⟨position, hfailure⟩
  case parseProgram_eq => exact hparse
  case rustCode_eq => rw [rustCode, hparse]
  case runOn_eq => exact hrun
  case run_eq =>
    rw [run, hrun]
    rfl
  case runInterpreted_eq => rw [runInterpreted, hparse]
  case runNatively_eq => rw [runNatively, hparse]

theorem followsProbe_of_validate (hvalid : validate request.source = .ok ()) :
    ∃ later, FollowsProbe h settings request scene later := by
  have happends := appendOnly_dispatch h settings request (backendFor h)
    (condense request.source.units)
  have hsame : (probed h settings scene).extend scene.unrecorded = probed h settings scene :=
    extend_unrecorded_of_eq rfl rfl
  have hchosen := happends scene scene.unrecorded
  have hauto := happends (probed h settings scene) scene.unrecorded
  rw [extend_unrecorded, ← runOn_of_validate hvalid (backendFor_ne_auto h)] at hchosen
  rw [hsame, ← runOn_auto_of_validate hvalid] at hauto
  have houtcome : (runOn h settings request "auto" scene).1 =
      (runOn h settings request (backendFor h) scene).1 := by rw [hauto, hchosen]
  have hevents : ∀ e ∈ (dispatch h settings request (backendFor h)
      (condense request.source.units) scene.unrecorded).2.events, IsOfRun h settings e := by
    by_cases hstatus : h.versionStatus = some 0
    · rw [dispatch_of_available hstatus]
      exact isOfRun_of_mem_onNative rfl
    · rw [dispatch_of_unavailable hstatus, events_onMachine]
      exact List.forall_mem_nil _
  refine ⟨(dispatch h settings request (backendFor h) (condense request.source.units)
    scene.unrecorded).2, ?_⟩
  constructor
  case outcome_eq => exact houtcome
  case chosen_scene => rw [hchosen]
  case auto_scene => rw [hauto]
  case unprobed => exact fun compiler he => (hevents _ he).1 compiler rfl
  case compiler_eq =>
    intro arguments directory code he
    exact (hevents _ he).2 arguments directory code rfl
  case native =>
    intro hstatus
    have hquiet := (remarks_onNative h settings request (condense request.source.units)
      scene.unrecorded).quiet
    rw [houtcome, runOn_of_validate hvalid (backendFor_ne_auto h), dispatch_of_available hstatus,
      dispatch_of_available hstatus]
    exact ⟨rfl, hquiet.stats_eq, fun w hw => (hquiet.writes w hw).resolve_left List.not_mem_nil⟩
  case interpreted =>
    intro hstatus
    rw [houtcome, runOn_of_validate hvalid (backendFor_ne_auto h), dispatch_of_unavailable hstatus,
      dispatch_of_unavailable hstatus, events_onMachine, files_onMachine]
    exact ⟨rfl, rfl, rfl⟩

/-- Brackets are settled before anything else: a source with one that does not match is refused in
every way alike, with nothing done. For any other source `auto` probes once and then does what the
backend would do on which the probe decides, with the compiler that it probed; the failures of that
backend are final. -/
theorem refuses_or_follows_probe (h : Host) (settings : Settings) (request : Request)
    (scene : Scene) :
    (∀ failure, validate request.source = .error failure →
      Refuses h settings request scene failure) ∧
    (validate request.source = .ok () → ∃ later, FollowsProbe h settings request scene later) :=
  ⟨fun _ => refuses_of_validate, followsProbe_of_validate⟩

/-- A compiler that answers a probe and then fails. -/
theorem refuses_or_follows_probe_of_failing_compiler :
    ∃ (h : Host) (settings : Settings) (unmatched request : Request) (scene : Scene),
      (∃ failure, validate unmatched.source = .error failure ∧
        Refuses h settings unmatched scene failure) ∧
      h.versionStatus = some 0 ∧ validate request.source = .ok () ∧
      (runOn h settings request "auto" scene).1 = .failed (Failure.compilation "error") ∧
      ∃ later, FollowsProbe h settings request scene later := by
  let h : Host :=
    { workingDirectory := "/home"
      environment := []
      bashDirectories := []
      versionStatus := some 0
      compiler := ⟨none, 1, "", "error", false⟩
      program := ⟨none, none, false, none, 0, []⟩
      sourceRemovalError := none
      executableRemovalError := none
      draws := List.range 62 |>.map Int.ofNat
      polls := fun _ => 1
      fuel := 1 }
  let settings : Settings := ⟨some "compiler", none, 1, none⟩
  let unmatched : Request := ⟨.text ['+', ']'], none, none, none, true⟩
  let request : Request := ⟨.text ['+', '.'], none, none, none, true⟩
  let scene : Scene := .initial [(⟨"", ["home"]⟩, .directory)]
  have hunmatched : validate unmatched.source = .error (Failure.unmatchedBracket 1 none) := rfl
  have hrequest : validate request.source = .ok () := rfl
  have hfails : (runOn h settings request "auto" scene).1 =
      .failed (Failure.compilation "error") := by decide +kernel
  exact ⟨h, settings, unmatched, request, scene,
    ⟨_, hunmatched, (refuses_or_follows_probe h settings unmatched scene).1 _ hunmatched⟩,
    rfl, hrequest, hfails, (refuses_or_follows_probe h settings request scene).2 hrequest⟩

end Session

end TapeMachine
