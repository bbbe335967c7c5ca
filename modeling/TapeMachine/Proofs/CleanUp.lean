import TapeMachine.Proofs.Courses

/-!
# Cleaning up

However a native run ends, both temporary files are gone afterwards, unless the deletion of that
very file fails. Each such failure is reported once, and it never takes the place of what the run
itself came to.
-/

namespace TapeMachine

namespace Compiled

variable {h : Host} {job : Job} {a : TempFiles} {files f g : Files} {scene : Scene}
  {refusal : Option String} {p : Path} {name : String}

/-- Why the deletion of a file fails, if it does. It is only tried in a directory. -/
def removalFault (refusal : Option String) (p : Path) (files : Files) : Option String :=
  match files.isDirectory p.parent with
  | .ok true =>
    match removeFile refusal p files with
    | .ok _ => none
    | .error reason => some reason
  | _ => none

/-- What there is to be reported of both deletions, the source first. -/
def TempFiles.complaints (a : TempFiles) (h : Host) (files : Files) : List String :=
  let first := removalFault h.sourceRemovalError a.source files
  let second := removalFault h.executableRemovalError a.executable files
  (first.map (removalComplaint a.source)).toList ++
    (second.map (removalComplaint a.executable)).toList

/-! ## One file -/

theorem removeFile_eq_ok_iff :
    removeFile refusal p f = .ok g ↔ refusal = none ∧ f.remove p = .ok g := by
  unfold removeFile
  cases refusal with
  | none => cases f.remove p <;> simp
  | some reason => simp

theorem removeFile_eq_error_iff {reason : String} :
    removeFile refusal p f = .error reason ↔
      refusal = some reason ∨
        refusal = none ∧ ∃ e, f.remove p = .error e ∧ fileErrorText e p = reason := by
  unfold removeFile
  cases refusal with
  | none => cases f.remove p <;> simp
  | some refused => simp

theorem removalFault_of_not_isDirectory (hdir : files.isDirectory p ≠ .ok true) :
    removalFault refusal (p.child name) files = none := by
  unfold removalFault
  rw [Path.parent_child]
  split
  · next htrue => exact absurd htrue hdir
  · rfl

theorem removalFault_eq_some_iff (hdir : files.isDirectory p = .ok true) {reason : String} :
    removalFault refusal (p.child name) files = some reason ↔
      removeFile refusal (p.child name) files = .error reason := by
  unfold removalFault
  rw [Path.parent_child, hdir]
  cases removeFile refusal (p.child name) files <;> simp

/-- Only the directories decide which deletions fail. -/
theorem removalFault_congr (hsame : Files.SameDirectories f g) :
    removalFault refusal (p.child name) f = removalFault refusal (p.child name) g := by
  by_cases hdir : f.isDirectory p = .ok true
  · have hdir' : g.isDirectory p = .ok true := (hsame.isDirectory_eq p).symm.trans hdir
    refine Option.ext fun reason => ?_
    rw [removalFault_eq_some_iff hdir, removalFault_eq_some_iff hdir', removeFile_eq_error_iff,
      removeFile_eq_error_iff]
    simp only [hsame.remove_child_eq_error_iff hdir]
  · have hdir' : g.isDirectory p ≠ .ok true := hsame.isDirectory_eq p ▸ hdir
    rw [removalFault_of_not_isDirectory hdir, removalFault_of_not_isDirectory hdir']

theorem discard_changedOnlyAt (refusal : Option String) (p : Path) (files : Files) :
    Files.ChangedOnlyAt [p] files (discard refusal p files).2 := by
  unfold discard
  cases hremove : removeFile refusal p files with
  | ok left => exact .remove (removeFile_eq_ok_iff.mp hremove).2
  | error reason => exact .refl [p] files

theorem discard_fst (hdir : files.isDirectory p = .ok true) :
    (discard refusal (p.child name) files).1 =
      ((removalFault refusal (p.child name) files).map
        (removalComplaint (p.child name))).toList := by
  unfold discard removalFault
  rw [Path.parent_child, hdir]
  cases removeFile refusal (p.child name) files <;> rfl

theorem find?_discard (ht : files.IsTree) (hdir : files.isDirectory p = .ok true)
    (hfault : removalFault refusal (p.child name) files = none) :
    (discard refusal (p.child name) files).2.find? (p.child name) = none := by
  unfold discard
  cases hremove : removeFile refusal (p.child name) files with
  | ok left => exact Files.find?_of_remove_child ht (removeFile_eq_ok_iff.mp hremove).2
  | error reason =>
      rw [(removalFault_eq_some_iff hdir).mpr hremove] at hfault
      cases hfault

/-! ## Both files -/

/-- What a clean-up leaves and what it reports. -/
structure CleanedUp (h : Host) (a : TempFiles) (files : Files) (complaints : List String)
    (left : Files) : Prop where
  changed : Files.ChangedOnlyAt [a.source, a.executable] files left
  complaints_eq : complaints = a.complaints h files
  source_absent : files.IsTree →
    removalFault h.sourceRemovalError a.source files = none → left.find? a.source = none
  executable_absent : files.IsTree →
    removalFault h.executableRemovalError a.executable files = none →
      left.find? a.executable = none

theorem cleanedUp_of_not_isDirectory (hdir : files.isDirectory a.directory ≠ .ok true) :
    CleanedUp h a files [] files where
  changed := .refl _ files
  complaints_eq := by
    simp [TempFiles.complaints, TempFiles.source, TempFiles.executable,
      removalFault_of_not_isDirectory hdir]
  source_absent := fun ht _ => ht.find?_child_of_not_isDirectory hdir
  executable_absent := fun ht _ => ht.find?_child_of_not_isDirectory hdir

theorem discard_of_isDirectory (hdir : files.isDirectory a.directory = .ok true) :
    a.discard h files = .ok
      ((discard h.sourceRemovalError a.source files).1 ++
        (discard h.executableRemovalError a.executable
          (discard h.sourceRemovalError a.source files).2).1,
      (discard h.executableRemovalError a.executable
        (discard h.sourceRemovalError a.source files).2).2) := by
  rw [TempFiles.discard, hdir]

theorem cleanedUp_of_isDirectory (hdir : files.isDirectory a.directory = .ok true)
    {complaints : List String} {left : Files}
    (hd : a.discard h files = .ok (complaints, left)) : CleanedUp h a files complaints left := by
  have hfirst := discard_changedOnlyAt h.sourceRemovalError a.source files
  have hcomplaint : (discard h.sourceRemovalError a.source files).1 = _ := discard_fst hdir
  have habsent : files.IsTree → removalFault h.sourceRemovalError a.source files = none →
      (discard h.sourceRemovalError a.source files).2.find? a.source = none :=
    fun ht => find?_discard ht hdir
  rw [discard_of_isDirectory hdir, hcomplaint] at hd
  generalize (discard h.sourceRemovalError a.source files).2 = mid at hfirst habsent hd
  -- The second deletion meets the files that the first one leaves, with the same directories.
  have hsecond := discard_changedOnlyAt h.executableRemovalError a.executable mid
  have hdir' : mid.isDirectory a.directory = .ok true :=
    (hfirst.directories.isDirectory_eq _).symm.trans hdir
  have hcomplaint' : (discard h.executableRemovalError a.executable mid).1 = _ := discard_fst hdir'
  have hfault : removalFault h.executableRemovalError a.executable mid =
      removalFault h.executableRemovalError a.executable files :=
    (removalFault_congr hfirst.directories).symm
  rw [hcomplaint', ← TempFiles.executable, hfault] at hd
  cases hd
  refine ⟨(hfirst.mono (by simp)).trans (hsecond.mono (by simp)), rfl, ?_, ?_⟩
  · intro ht hnone
    have hkept := hsecond.elsewhere a.source (by simpa using a.source_ne_executable)
    exact hkept.trans (habsent ht hnone)
  · intro ht hnone
    exact find?_discard (hfirst.tree ht) hdir' (hfault.trans hnone)

theorem cleanedUp_of_discard {complaints : List String} {left : Files}
    (hd : a.discard h files = .ok (complaints, left)) : CleanedUp h a files complaints left := by
  by_cases hdir : files.isDirectory a.directory = .ok true
  · exact cleanedUp_of_isDirectory hdir hd
  · unfold TempFiles.discard at hd
    split at hd
    case h_1 => cases hd
    case h_2 =>
      cases hd
      exact cleanedUp_of_not_isDirectory hdir
    case h_3 htrue => exact absurd htrue hdir

theorem discard_eq_error_iff {e : FileError} :
    a.discard h files = .error e ↔ files.isDirectory a.directory = .error e := by
  unfold TempFiles.discard
  rcases files.isDirectory a.directory with _ | _ | _ <;> simp

theorem complaints_congr (hsame : Files.SameDirectories f g) :
    a.complaints h f = a.complaints h g := by
  simp only [TempFiles.complaints, TempFiles.source, TempFiles.executable,
    removalFault_congr hsame]

/-! ## Settling a run -/

/-- What a run comes to, apart from the notes on its failure. -/
def withoutNotes (result : Except Failure (List UInt8)) : Except Failure (List UInt8) :=
  result.mapError fun failure => { failure with notes := [] }

@[simp] theorem withoutNotes_ok (output : List UInt8) :
    withoutNotes (.ok output) = .ok output := rfl

@[simp] theorem withoutNotes_error (failure : Failure) :
    withoutNotes (.error failure) = .error { failure with notes := [] } := rfl

variable {result : Except Failure (List UInt8)}

theorem withoutNotes_eq_self (hr : ∀ failure, result = .error failure → failure.notes = []) :
    withoutNotes result = result := by
  cases result with
  | ok output => rfl
  | error failure =>
      have hnotes := hr failure rfl
      obtain ⟨cause, site, backend, notes⟩ := failure
      cases hnotes
      rfl

/-- What a clean-up leaves of the result: all of it, if it can look for the directory. -/
theorem withoutNotes_settle (h : Host) (a : TempFiles) (result : Except Failure (List UInt8))
    (scene : Scene) :
    withoutNotes (settle h a (result, scene)).1 =
      match scene.files.isDirectory a.directory with
      | .error e => .error (Failure.system (fileErrorText e a.directory))
      | .ok _ => withoutNotes result := by
  cases hd : a.discard h scene.files with
  | error e =>
      rw [discard_eq_error_iff.mp hd]
      simp [settle, hd, Failure.system]
  | ok outcome =>
      cases hdir : scene.files.isDirectory a.directory with
      | error e =>
          rw [discard_eq_error_iff.mpr hdir] at hd
          cases hd
      | ok _ => cases result <;> simp [settle, hd, Failure.annotate]

/-- A report is a warning or a note, by what the run came to. -/
structure Reported (complaints : List String) (before : List String)
    (result : Except Failure (List UInt8)) (warnings : List String) : Prop where
  warned : ∀ output, result = .ok output → warnings = before ++ complaints
  noted : ∀ failure, result = .error failure →
    failure.notes = complaints ∧ warnings = before

theorem settle_reports (h : Host) (a : TempFiles) (scene : Scene)
    (hr : ∀ failure, result = .error failure → failure.notes = []) :
    ∃ complaints, CleanedUp h a scene.files complaints (settle h a (result, scene)).2.files ∧
      Reported complaints scene.warnings (settle h a (result, scene)).1
        (settle h a (result, scene)).2.warnings := by
  cases hd : a.discard h scene.files with
  | error e =>
      have hdir : scene.files.isDirectory a.directory ≠ .ok true := by
        simp [discard_eq_error_iff.mp hd]
      refine ⟨[], ?_, ?_⟩
      · simpa [settle, hd] using cleanedUp_of_not_isDirectory hdir
      · constructor <;> simp [settle, hd, Failure.system]
  | ok outcome =>
      obtain ⟨complaints, left⟩ := outcome
      have hclean := cleanedUp_of_discard hd
      cases result with
      | ok output =>
          refine ⟨complaints, by simpa [settle, hd, Scene.warn] using hclean, ?_⟩
          constructor <;> simp [settle, hd, Scene.warn]
      | error failure =>
          refine ⟨complaints, by simpa [settle, hd] using hclean, ?_⟩
          constructor <;> simp [settle, hd, Failure.annotate, hr failure rfl]

/-! ## The whole run -/

theorem run_of_possible (hpossible : Path.isPossible (job.directory.getD "") = true) :
    run h job scene =
      settle h (TempFiles.reserve h job.directory)
        (attempt h job (TempFiles.reserve h job.directory) scene) :=
  if_pos hpossible

theorem run_of_impossible (himpossible : Path.isPossible (job.directory.getD "") = false) :
    run h job scene = (.error Failure.impossiblePath, scene) := by
  rw [run, himpossible]
  rfl

/-- What becomes of the two temporary files and of everything around them. That a deletion fails is
decided by the files from before the run. -/
structure Accounted (h : Host) (job : Job) (a : TempFiles) (before : Scene)
    (result : Except Failure (List UInt8)) (after : Scene) : Prop where
  elsewhere : ∀ p, p ≠ a.source → p ≠ a.executable → after.files.find? p = before.files.find? p
  tree : after.files.IsTree
  source_absent : removalFault h.sourceRemovalError a.source before.files = none →
    after.files.find? a.source = none
  executable_absent : removalFault h.executableRemovalError a.executable before.files = none →
    after.files.find? a.executable = none
  reported : Reported (a.complaints h before.files) before.warnings result after.warnings
  /-- Whatever the host does to the deletions. -/
  undisturbed : ∀ source executable,
    withoutNotes result = withoutNotes (run { h with
      sourceRemovalError := source
      executableRemovalError := executable } job before).1
  /-- Not even a directory in the place of a temporary file disturbs the result. -/
  genuine : before.files.isDirectory a.directory ≠ .error .nameTooLong →
    withoutNotes result = (attempt h job a before).1

theorem attempt_notes (h : Host) (job : Job) (a : TempFiles) (scene : Scene) :
    ∀ failure, (attempt h job a scene).1 = .error failure → failure.notes = [] := by
  intro failure hr
  obtain ⟨events, hcourse, _⟩ := attempt_course h job a scene
  exact (hcourse.arises hr).isNative.2

theorem withoutNotes_run (h : Host) (scene : Scene)
    (hpossible : Path.isPossible (job.directory.getD "") = true) :
    withoutNotes (run h job scene).1 =
      match scene.files.isDirectory (TempFiles.reserve h job.directory).directory with
      | .error e => .error (Failure.system
        (fileErrorText e (TempFiles.reserve h job.directory).directory))
      | .ok _ => (attempt h job (TempFiles.reserve h job.directory) scene).1 := by
  obtain ⟨events, hcourse, _⟩ := attempt_course h job (TempFiles.reserve h job.directory) scene
  have hdir := hcourse.changedOnlyAt.directories.isDirectory_eq
  have hnotes := attempt_notes h job (TempFiles.reserve h job.directory) scene
  rw [run_of_possible hpossible, withoutNotes_settle, hdir, withoutNotes_eq_self hnotes]

theorem accounted_of_possible (ht : scene.files.IsTree)
    (hpossible : Path.isPossible (job.directory.getD "") = true) :
    Accounted h job (TempFiles.reserve h job.directory) scene (run h job scene).1
      (run h job scene).2 := by
  have hresult := withoutNotes_run h scene hpossible
  have hdisturbed := fun source executable =>
    withoutNotes_run { h with sourceRemovalError := source, executableRemovalError := executable }
      scene hpossible
  rw [run_of_possible hpossible] at hresult ⊢
  generalize ha : TempFiles.reserve h job.directory = a at hresult ⊢
  obtain ⟨events, hcourse, _, hwarnings⟩ := attempt_course h job a scene
  obtain ⟨complaints, hclean, hreport⟩ :=
    settle_reports h a (attempt h job a scene).2 (attempt_notes h job a scene)
  -- What can fail in the clean-up is settled by the directories, which are those from before.
  have hbefore := hcourse.changedOnlyAt
  have hchanged := hbefore.trans hclean.changed
  have hdirectories := hbefore.directories.symm
  constructor
  case elsewhere =>
    intro p hsource hexecutable
    exact hchanged.elsewhere p (by simp [hsource, hexecutable])
  case tree => exact hchanged.tree ht
  case source_absent =>
    intro hfault
    exact hclean.source_absent (hbefore.tree ht) ((removalFault_congr hdirectories).trans hfault)
  case executable_absent =>
    intro hfault
    exact hclean.executable_absent (hbefore.tree ht)
      ((removalFault_congr hdirectories).trans hfault)
  case reported =>
    rw [← complaints_congr hdirectories, ← hclean.complaints_eq, ← hwarnings]
    exact hreport
  case undisturbed =>
    intro source executable
    rw [hresult, hdisturbed, ← ha]
    rfl
  case genuine =>
    intro hdir
    rw [hresult]
    split
    · next e herror =>
      have htooLong := (Files.isDirectory_eq_error_iff.mp herror).1
      exact absurd (htooLong ▸ herror) hdir
    · rfl

/-- However a run ends, it accounts for its temporary files. A directory with a name too long to be
looked up is no exception: there is nothing to delete in it, so nothing is reported. But the failed
look-up replaces the result of the run there, which is why `genuine` sets that case apart. -/
theorem run_accounts_for_files (h : Host) (job : Job) (scene : Scene) (ht : scene.files.IsTree) :
    (Path.isPossible (job.directory.getD "") = true →
      Accounted h job (TempFiles.reserve h job.directory) scene (run h job scene).1
        (run h job scene).2) ∧
    (Path.isPossible (job.directory.getD "") = false →
      run h job scene = (.error Failure.impossiblePath, scene)) :=
  ⟨accounted_of_possible ht, run_of_impossible⟩

/-- A run in a directory of its own, where the compiler fails and the source cannot be deleted. -/
theorem run_accounts_for_files_of_refusal :
    ∃ (h : Host) (job : Job) (scene : Scene), scene.files.IsTree ∧
      h.sourceRemovalError = some "denied" ∧
      Accounted h job (TempFiles.reserve h job.directory) scene (run h job scene).1
        (run h job scene).2 := by
  let h : Host :=
    { workingDirectory := "/home"
      environment := []
      bashDirectories := []
      versionStatus := some 0
      compiler := ⟨none, 1, "", "error", true⟩
      program := ⟨none, none, false, none, 0, []⟩
      sourceRemovalError := some "denied"
      executableRemovalError := none
      draws := List.range 62 |>.map Int.ofNat
      polls := fun _ => 1
      fuel := 1 }
  let job : Job := ⟨[.addBy 1, .print], [], false, some "scratch", none, none, 0⟩
  let scene : Scene := .initial [(⟨"", ["home"]⟩, .directory),
    (⟨"", ["home", "scratch"]⟩, .directory), (⟨"", ["home", "program"]⟩, .file [43, 46])]
  have ht : scene.files.IsTree := by decide +kernel
  exact ⟨h, job, scene, ht, rfl, (run_accounts_for_files h job scene ht).1 (by decide +kernel)⟩

end Compiled

end TapeMachine
