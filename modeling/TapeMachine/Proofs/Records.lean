import TapeMachine.Proofs.Protocol

/-!
# Records of native runs

No stage of a native run reads what has been recorded before it. It only adds to that, so what a
run does can be told apart from what came earlier. A native run leaves the counters alone and
writes nothing but remarks on standard error.
-/

namespace TapeMachine

namespace Scene

variable {α : Type}

/-- All that `earlier` has recorded, and then all that `later` has; the rest is as in `later`. -/
def extend (earlier later : Scene) : Scene :=
  { later with
    events := earlier.events ++ later.events
    writes := earlier.writes ++ later.writes
    warnings := earlier.warnings ++ later.warnings }

/-- The same files and counters before anything is recorded. -/
def unrecorded (scene : Scene) : Scene := { scene with events := [], writes := [], warnings := [] }

/-- It reads no record, and only adds to what there is. -/
def AppendOnly (f : Scene → α × Scene) : Prop :=
  ∀ earlier later : Scene, f (earlier.extend later) = ((f later).1, earlier.extend (f later).2)

/-- Nothing is counted from one scene to the other, nor written to standard output. -/
structure Quiet (before after : Scene) : Prop where
  stats_eq : after.stats = before.stats
  writes : ∀ w ∈ after.writes, w ∈ before.writes ∨ w.stream = .stderr

@[simp] theorem extend_unrecorded (scene : Scene) : scene.extend scene.unrecorded = scene := by
  simp [extend, unrecorded]

theorem extend_unrecorded_of_eq {earlier scene : Scene} (hfiles : earlier.files = scene.files)
    (hstats : earlier.stats = scene.stats) : earlier.extend scene.unrecorded = earlier := by
  simp [extend, unrecorded, ← hfiles, ← hstats]

@[simp] theorem record_extend (earlier later : Scene) (e : Event) :
    (earlier.extend later).record e = earlier.extend (later.record e) := by
  simp [extend, record]

@[simp] theorem write_extend (earlier later : Scene) (stream : Stream) (texts : List String) :
    (earlier.extend later).write stream texts = earlier.extend (later.write stream texts) := by
  simp [extend, write]

@[simp] theorem warn_extend (earlier later : Scene) (texts : List String) :
    (earlier.extend later).warn texts = earlier.extend (later.warn texts) := by
  simp [extend, warn]

/-- The line of a remark on standard error. -/
def remark (text : String) : Write := ⟨.stderr, Style.dim text ++ "\n"⟩

/-- Only remarks are written from one scene to the other. -/
def WritesRemarks (before after : Scene) : Prop :=
  ∃ texts : List String, after.writes = before.writes ++ texts.map remark

theorem WritesRemarks.of_eq {before after : Scene} (hwrites : after.writes = before.writes) :
    WritesRemarks before after :=
  ⟨[], by simp [hwrites]⟩

theorem WritesRemarks.trans {before middle after : Scene} (hfirst : WritesRemarks before middle)
    (hsecond : WritesRemarks middle after) : WritesRemarks before after := by
  obtain ⟨texts, htexts⟩ := hfirst
  obtain ⟨texts', htexts'⟩ := hsecond
  exact ⟨texts ++ texts', by simp [htexts', htexts]⟩

/-- Nothing is counted from one scene to the other, and only remarks are written. -/
structure Remarks (before after : Scene) : Prop where
  stats_eq : after.stats = before.stats
  writes : WritesRemarks before after

theorem Remarks.of_eq {before after : Scene} (hstats : after.stats = before.stats)
    (hwrites : after.writes = before.writes) : Remarks before after :=
  ⟨hstats, .of_eq hwrites⟩

theorem Remarks.trans {before middle after : Scene} (hfirst : Remarks before middle)
    (hsecond : Remarks middle after) : Remarks before after :=
  ⟨hsecond.stats_eq.trans hfirst.stats_eq, hfirst.writes.trans hsecond.writes⟩

theorem remarks_write (scene : Scene) (text : String) :
    Remarks scene (scene.write .stderr [Style.dim text ++ "\n"]) :=
  ⟨rfl, [text], rfl⟩

theorem Remarks.quiet {before after : Scene} (h : Remarks before after) : Quiet before after where
  stats_eq := h.stats_eq
  writes := by
    intro w hw
    obtain ⟨texts, htexts⟩ := h.writes
    rw [htexts] at hw
    rcases List.mem_append.mp hw with hold | hnew
    · exact .inl hold
    · obtain ⟨text, -, rfl⟩ := List.mem_map.mp hnew
      exact .inr rfl

end Scene

namespace Compiled

variable {h : Host} {job : Job} {a : TempFiles} {files left : Files} {scene : Scene}
  {result : Except Failure (List UInt8)} {events : List Event}

open Scene

/-! ## Stages -/

section AndThen

variable {α β : Type} {f : Scene → Stage α} {g : α → Scene → Stage β}

/-- Go on to the next stage, unless this one fails. -/
def andThen (f : Scene → Stage α) (g : α → Scene → Stage β) (scene : Scene) : Stage β :=
  match f scene with
  | (.error failure, scene) => (.error failure, scene)
  | (.ok a, scene) => g a scene

theorem appendOnly_andThen (hf : AppendOnly f) (hg : ∀ a, AppendOnly (g a)) :
    AppendOnly (andThen f g) := by
  intro earlier later
  rw [andThen, andThen, hf earlier later]
  rcases f later with ⟨_ | a, middle⟩
  · rfl
  · exact hg a earlier middle

theorem remarks_andThen (hf : ∀ scene, Remarks scene (f scene).2)
    (hg : ∀ a scene, Remarks scene (g a scene).2) (scene : Scene) :
    Remarks scene (andThen f g scene).2 := by
  have hfirst := hf scene
  rw [andThen]
  generalize f scene = stage at hfirst ⊢
  obtain ⟨_ | a, middle⟩ := stage
  · exact hfirst
  · exact hfirst.trans (hg a middle)

end AndThen

/-- Wait for the program and record what that takes. -/
def awaited (h : Host) (job : Job) (a : TempFiles) (scene : Scene) : Stage (List UInt8) :=
  ((await h job a).1, (await h job a).2.foldl Scene.record scene)

theorem attempt_eq_andThen (h : Host) (job : Job) (a : TempFiles) :
    attempt h job a =
      andThen (writeSource job a) fun _ => andThen (callCompiler h job a) fun _ =>
        andThen (fun scene => (checkExecutable a scene, scene)) fun _ =>
          andThen (launch h job a) fun _ => awaited h job a := by
  funext scene
  simp only [attempt, andThen]
  rcases writeSource job a scene with ⟨_ | _, written⟩
  · rfl
  simp only
  rcases callCompiler h job a written with ⟨_ | _, compiled⟩
  · rfl
  simp only
  cases checkExecutable a compiled with
  | error failure => rfl
  | ok found =>
      simp only
      rcases launch h job a compiled with ⟨_ | _, launched⟩ <;> rfl

/-! ## Adding to the record -/

theorem appendOnly_writeSource (job : Job) (a : TempFiles) : AppendOnly (writeSource job a) := by
  intro earlier later
  have hfiles : (earlier.extend later).files = later.files := rfl
  rw [writeSource, writeSource, hfiles]
  cases later.files.write a.source (encodeUtf8 job.code.toList) <;> rfl

theorem announceCompiler_extend (h : Host) (job : Job) (a : TempFiles) (earlier later : Scene) :
    announceCompiler h job a (earlier.extend later) =
      earlier.extend (announceCompiler h job a later) := by
  rw [announceCompiler, announceCompiler]
  split <;> simp

theorem appendOnly_callCompiler (h : Host) (job : Job) (a : TempFiles) :
    AppendOnly (callCompiler h job a) := by
  intro earlier later
  simp only [callCompiler, announceCompiler_extend]
  cases h.compiler.spawnError with
  | some reason => rfl
  | none => by_cases hstatus : h.compiler.status = 0 <;> simp only [hstatus, ↓reduceIte] <;> rfl

theorem appendOnly_launch (h : Host) (job : Job) (a : TempFiles) :
    AppendOnly (launch h job a) := by
  intro earlier later
  simp only [launch, record_extend]
  cases h.program.launchError <;> rfl

theorem appendOnly_awaited (h : Host) (job : Job) (a : TempFiles) :
    AppendOnly (awaited h job a) := by
  intro earlier later
  simp [awaited, extend]

theorem appendOnly_attempt (h : Host) (job : Job) (a : TempFiles) :
    AppendOnly (attempt h job a) := by
  rw [attempt_eq_andThen]
  apply appendOnly_andThen (appendOnly_writeSource job a)
  intro _
  apply appendOnly_andThen (appendOnly_callCompiler h job a)
  intro _
  apply appendOnly_andThen fun _ _ => rfl
  intro _
  exact appendOnly_andThen (appendOnly_launch h job a) fun _ => appendOnly_awaited h job a

theorem settle_extend (h : Host) (a : TempFiles) (result : Except Failure (List UInt8))
    (earlier later : Scene) :
    settle h a (result, earlier.extend later) =
      ((settle h a (result, later)).1, earlier.extend (settle h a (result, later)).2) := by
  have hfiles : (earlier.extend later).files = later.files := rfl
  simp only [settle, hfiles]
  cases a.discard h later.files with
  | error e => rfl
  | ok outcome =>
      cases result with
      | ok output =>
          exact congrArg (Prod.mk _) (warn_extend earlier { later with files := outcome.2 } _)
      | error failure => rfl

theorem appendOnly_run (h : Host) (job : Job) : AppendOnly (run h job) := by
  intro earlier later
  cases hpossible : Path.isPossible (job.directory.getD "") with
  | false => rw [run_of_impossible hpossible, run_of_impossible hpossible]
  | true =>
      rw [run_of_possible hpossible, run_of_possible hpossible, appendOnly_attempt]
      -- The lemmas on cleaning up are about a result and a scene.
      generalize attempt h job (TempFiles.reserve h job.directory) later = stage
      obtain ⟨result, attempted⟩ := stage
      exact settle_extend h _ result earlier attempted

/-! ## What a native run leaves alone -/

theorem remarks_writeSource (job : Job) (a : TempFiles) (scene : Scene) :
    Remarks scene (writeSource job a scene).2 := by
  rw [writeSource]
  split <;> exact .of_eq rfl rfl

theorem remarks_callCompiler (h : Host) (job : Job) (a : TempFiles) (scene : Scene) :
    Remarks scene (callCompiler h job a scene).2 := by
  have hannounced : Remarks scene (announceCompiler h job a scene) := by
    rw [announceCompiler]
    split
    · exact (remarks_write scene _).trans (.of_eq rfl rfl)
    · exact .of_eq rfl rfl
  rw [callCompiler]
  split
  · exact hannounced
  · split <;> exact hannounced.trans (.of_eq rfl rfl)

theorem remarks_launch (h : Host) (job : Job) (a : TempFiles) (scene : Scene) :
    Remarks scene (launch h job a scene).2 := by
  rw [launch]
  split <;> exact .of_eq rfl rfl

theorem remarks_attempt (h : Host) (job : Job) (a : TempFiles) (scene : Scene) :
    Remarks scene (attempt h job a scene).2 := by
  rw [attempt_eq_andThen]
  apply remarks_andThen (remarks_writeSource job a)
  intro _
  apply remarks_andThen (remarks_callCompiler h job a)
  intro _
  apply remarks_andThen fun scene => .of_eq rfl rfl
  intro _
  apply remarks_andThen (remarks_launch h job a)
  intro _ scene
  exact .of_eq (by simp [awaited]) (by simp [awaited])

theorem remarks_settle (h : Host) (a : TempFiles) (result : Except Failure (List UInt8))
    (scene : Scene) : Remarks scene (settle h a (result, scene)).2 := by
  rw [settle]
  cases a.discard h scene.files with
  | error e => exact .of_eq rfl rfl
  | ok outcome => cases result <;> exact .of_eq rfl rfl

theorem remarks_run (h : Host) (job : Job) (scene : Scene) : Remarks scene (run h job scene).2 := by
  cases hpossible : Path.isPossible (job.directory.getD "") with
  | false =>
      rw [run_of_impossible hpossible]
      exact .of_eq rfl rfl
  | true =>
      have hattempt := remarks_attempt h job (TempFiles.reserve h job.directory) scene
      rw [run_of_possible hpossible]
      generalize attempt h job (TempFiles.reserve h job.directory) scene = stage at hattempt ⊢
      obtain ⟨result, attempted⟩ := stage
      exact hattempt.trans (remarks_settle h _ result attempted)

/-! ## Events -/

/-- What a native run can do with the processes around it. -/
inductive OwnEvent (h : Host) (job : Job) (a : TempFiles) : Event → Prop where
  | compile : OwnEvent h job a (job.compiling h a)
  | launch : OwnEvent h job a (job.launching a)
  | communicate (bounded : Bool) : OwnEvent h job a (.communicate bounded)
  | kill : OwnEvent h job a .kill

theorem Wait.ownEvent_of_mem (hw : Wait h job a result events) :
    ∀ e ∈ events, OwnEvent h job a e := by
  intro e he
  obtain ⟨rest, rfl, hrest⟩ := hw.events_eq
  rcases List.mem_cons.mp he with rfl | hlate
  · exact .communicate _
  · rcases hrest e hlate with rfl | rfl
    · exact .kill
    · exact .communicate _

theorem Course.ownEvent_of_mem (hc : Course h job a files result left events) :
    ∀ e ∈ events, OwnEvent h job a e := by
  cases hc with
  | unwritten => exact List.forall_mem_nil _
  | unspawned => exact List.forall_mem_singleton.mpr .compile
  | rejected => exact List.forall_mem_singleton.mpr .compile
  | missing => exact List.forall_mem_singleton.mpr .compile
  | unlaunched =>
      exact List.forall_mem_cons.mpr ⟨.compile, List.forall_mem_singleton.mpr .launch⟩
  | launched _ _ _ _ _ hwait =>
      exact List.forall_mem_cons.mpr
        ⟨.compile, List.forall_mem_cons.mpr ⟨.launch, hwait.ownEvent_of_mem⟩⟩

theorem ownEvent_of_mem_run (hnew : scene.events = []) :
    ∀ e ∈ (run h job scene).2.events, OwnEvent h job (TempFiles.reserve h job.directory) e := by
  cases hpossible : Path.isPossible (job.directory.getD "") with
  | false =>
      rw [run_of_impossible hpossible, hnew]
      exact List.forall_mem_nil _
  | true =>
      obtain ⟨events, hcourse, hevents, -⟩ :=
        attempt_course h job (TempFiles.reserve h job.directory) scene
      rw [run_of_possible hpossible]
      generalize attempt h job (TempFiles.reserve h job.directory) scene = stage
        at hcourse hevents ⊢
      obtain ⟨result, attempted⟩ := stage
      rw [hnew, List.nil_append] at hevents
      rw [events_settle, hevents]
      exact hcourse.ownEvent_of_mem

end Compiled

end TapeMachine
