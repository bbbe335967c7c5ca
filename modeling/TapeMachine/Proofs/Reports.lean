import TapeMachine.Command.Run
import TapeMachine.Proofs.Dispatch

/-!
# One report for one command

However a command goes, its report tells one story. A text that comes back is all of standard
output, and no banner is shown; a failure is shown under one banner, which its cause decides, with
its notes below, and then standard output stays empty. All else that is written are the prompt and
remarks, and both can be told from banners and statistics by their first characters.
-/

namespace TapeMachine

/-! ## Marks -/

/-- The first characters of the text are those of the mark. -/
def Begins (mark text : String) : Prop := mark.toList <+: text.toList

instance (mark text : String) : Decidable (Begins mark text) :=
  inferInstanceAs (Decidable (mark.toList <+: text.toList))

section Marks

variable {mark other text : String}

theorem Begins.refl (text : String) : Begins text text := List.prefix_refl _

theorem begins_append (mark rest : String) : Begins mark (mark ++ rest) := by
  rw [Begins, String.toList_append]
  exact List.prefix_append _ _

theorem Begins.append (hb : Begins mark text) (rest : String) : Begins mark (text ++ rest) := by
  rw [Begins, String.toList_append]
  exact hb.trans (List.prefix_append _ _)

/-- Neither begins with the other. -/
def Apart (mark other : String) : Prop := ¬Begins mark other ∧ ¬Begins other mark

instance (mark other : String) : Decidable (Apart mark other) :=
  inferInstanceAs (Decidable (_ ∧ _))

theorem Begins.not_begins (hb : Begins mark text) (hapart : Apart mark other) :
    ¬Begins other text := by
  intro hother
  rcases List.prefix_or_prefix_of_prefix hb hother with hle | hle
  · exact hapart.1 hle
  · exact hapart.2 hle

end Marks

namespace Report

def IsBanner (text : String) : Prop := Begins (Style.code "30;43") text

instance (text : String) : Decidable (IsBanner text) :=
  inferInstanceAs (Decidable (Begins _ text))

def statisticsMark : String := "\n" ++ Style.code "97" ++ Style.code "48;5;30" ++ " STATISTICS. "

def IsStatistics (text : String) : Prop := Begins statisticsMark text

/-- The titles under which failures are shown. -/
inductive IsTitled : Cause → String → Prop where
  | unmatchedBracket (position : Int) : IsTitled (.unmatchedBracket position) "SYNTAX ERROR."
  | execution {cause : Cause} (h : cause.isExecution = true) : IsTitled cause "RUNTIME ERROR."
  | compilation (diagnostic : String) : IsTitled (.compilation diagnostic) "COMPILE ERROR."
  | timeout (message : String) : IsTitled (.timeout message) "TIMEOUT."
  | process (detail : String) : IsTitled (.process detail) "SUBPROCESS ERROR."

theorem isTitled_title {cause : Cause} (hreported : cause.isReported = true)
    (hspecific : ∀ message, cause ≠ .general message) : IsTitled cause (title cause) := by
  cases cause with
  | general message => exact (hspecific message rfl).elim
  | unmatchedBracket position => exact .unmatchedBracket position
  | compilation diagnostic => exact .compilation diagnostic
  | timeout message => exact .timeout message
  | process detail => exact .process detail
  | execution | outOfBounds | inputExhausted | signal => exact .execution rfl
  | unknownBackend | system | impossiblePath | unencodable => cases hreported

theorem begins_bannerText (subject : Subject) (failure : Failure) :
    Begins (Style.banner (" " ++ title failure.cause ++ " ")) (bannerText subject failure) := by
  unfold bannerText
  simp only [String.append_assoc]
  exact begins_append _ _

theorem isBanner_bannerText (subject : Subject) (failure : Failure) :
    IsBanner (bannerText subject failure) := by
  refine List.IsPrefix.trans ?_ (begins_bannerText subject failure)
  unfold Style.banner
  rw [String.append_assoc]
  exact begins_append _ _

theorem bannerText_ne_promptText (subject : Subject) (failure : Failure) :
    bannerText subject failure ≠ Command.promptText := by
  intro heq
  have hbanner := isBanner_bannerText subject failure
  rw [heq] at hbanner
  exact absurd hbanner (by decide)

theorem not_isStatistics_bannerText (subject : Subject) (failure : Failure) :
    ¬IsStatistics (bannerText subject failure) :=
  (isBanner_bannerText subject failure).not_begins (by decide)

end Report

open Report

/-! ## Remarks and the prompt -/

theorem begins_remark (text : String) : Begins (Style.code "90") (Scene.remark text).text := by
  unfold Scene.remark Style.dim
  simp only [String.append_assoc]
  exact begins_append _ _

/-- What is written besides the report. -/
inductive IsAside : Write → Prop where
  | prompt : IsAside ⟨.stderr, Command.promptText⟩
  | remark (text : String) : IsAside (Scene.remark text)

namespace IsAside

variable {w : Write}

theorem stream_eq (ha : IsAside w) : w.stream = .stderr := by
  cases ha <;> rfl

theorem not_isBanner (ha : IsAside w) : ¬IsBanner w.text := by
  cases ha with
  | prompt => exact (Begins.refl _).not_begins (by decide)
  | remark text => exact (begins_remark text).not_begins (by decide)

theorem not_isStatistics (ha : IsAside w) : ¬IsStatistics w.text := by
  cases ha with
  | prompt => exact (Begins.refl _).not_begins (by decide)
  | remark text => exact (begins_remark text).not_begins (by decide)

end IsAside

namespace Session

open Scene

variable {h : Host} {settings : Settings} {request : Request} {program : List Instruction}
  {backend : String} {scene : Scene}

/-! ## Causes of failures -/

/-- The failure is of a kind that has a name of its own. -/
def IsSpecific (failure : Failure) : Prop := ∀ message, failure.cause ≠ .general message

theorem isSpecific_unmatchedBracket (position : Nat) (backend : Option Backend) :
    IsSpecific (Failure.unmatchedBracket position backend) := fun _ => Cause.noConfusion

theorem isSpecific_of_runProgram {input : List UInt8} {limit : Machine.Limit} {failure : Failure}
    (hrun : runProgram program input limit = .failed failure) : IsSpecific failure := by
  unfold runProgram at hrun
  split at hrun
  · cases hrun
    exact isSpecific_unmatchedBracket _ _
  · generalize Machine.run _ _ _ = halt at hrun
    cases halt with
    | halted s => cases hrun
    | faulted fault s =>
        cases hrun
        cases fault <;> exact fun _ => Cause.noConfusion
    | suspended s =>
        cases limit with
        | poll n =>
            cases hrun
            exact fun _ => Cause.noConfusion
        | fuel n => cases hrun
    | stuck => cases hrun

theorem isSpecific_of_inputBytes {input : Option Input} {failure : Failure}
    (hbytes : inputBytes input = .error failure) : IsSpecific failure := by
  by_cases hencodable : IsEncodable input
  · obtain ⟨data, hdata⟩ := exists_bytes_of_isEncodable hencodable
    rw [hdata] at hbytes
    cases hbytes
  · obtain ⟨s, first, last, hrefused⟩ := exists_refusal_of_not_isEncodable hencodable
    rw [hrefused] at hbytes
    cases hbytes
    exact fun _ => Cause.noConfusion

theorem isSpecific_of_feed {input : Option Input} {failure : Failure}
    (hfeed : feed program input = .error failure) : IsSpecific failure := by
  unfold feed at hfeed
  split at hfeed
  · cases hfeed
    exact isSpecific_unmatchedBracket _ _
  · exact isSpecific_of_inputBytes hfeed

theorem isSpecific_of_runCounted {input : List UInt8} {limit : Machine.Limit} {stats : Stats}
    {failure : Failure} (hrun : (runCounted program input limit stats).1 = .failed failure) :
    IsSpecific failure := by
  unfold runCounted at hrun
  cases hprogram : runProgram program input limit with
  | returned result => simp [hprogram] at hrun
  | unfinished => simp [hprogram] at hrun
  | failed failure' =>
      rw [hprogram] at hrun
      cases hrun
      exact isSpecific_of_runProgram hprogram

theorem isSpecific_of_onMachine {failure : Failure}
    (hrun : (onMachine h settings request program scene).1 = .failed failure) :
    IsSpecific failure := by
  unfold onMachine at hrun
  cases hfeed : feed program request.input with
  | error refusal =>
      rw [watchGiven_of_refusal hfeed] at hrun
      cases hrun
      exact isSpecific_of_feed hfeed
  | ok data =>
      rw [watchGiven_of_feed hfeed] at hrun
      exact isSpecific_of_runCounted hrun

theorem isSpecific_of_arises {failure : Failure} (ha : Compiled.Arises failure) :
    IsSpecific failure := by
  cases ha <;> exact fun _ => Cause.noConfusion

theorem isSpecific_of_settle {a : Compiled.TempFiles} {stage : Compiled.Stage (List UInt8)}
    {failure : Failure} (hstage : ∀ failure, stage.1 = .error failure → IsSpecific failure)
    (hsettle : (Compiled.settle h a stage).1 = .error failure) : IsSpecific failure := by
  obtain ⟨result, scene⟩ := stage
  simp only [Compiled.settle] at hsettle
  cases hdiscard : a.discard h scene.files with
  | error e =>
      rw [hdiscard] at hsettle
      cases hsettle
      exact fun _ => Cause.noConfusion
  | ok outcome =>
      rw [hdiscard] at hsettle
      cases result with
      | ok output => cases hsettle
      | error attempted =>
          cases hsettle
          exact hstage attempted rfl

theorem isSpecific_of_onNative {failure : Failure}
    (hrun : (onNative h settings request program scene).1 = .failed failure) :
    IsSpecific failure := by
  rcases onNative_cases h settings request program with
    ⟨refusal, hbytes, hrefused⟩ | ⟨job, -, hjob⟩
  · rw [hrefused] at hrun
    cases hrun
    exact isSpecific_of_inputBytes hbytes
  have herror : (Compiled.run h job scene).1 = .error failure := by
    rwa [hjob, Outcome.ofExcept_eq_failed_iff] at hrun
  cases hpossible : Path.isPossible (job.directory.getD "") with
  | false =>
      rw [Compiled.run_of_impossible hpossible] at herror
      cases herror
      exact fun _ => Cause.noConfusion
  | true =>
      obtain ⟨_, hcourse, -⟩ :=
        Compiled.attempt_course h job (Compiled.TempFiles.reserve h job.directory) scene
      rw [Compiled.run_of_possible hpossible] at herror
      refine isSpecific_of_settle ?_ herror
      intro attempted hattempt
      exact isSpecific_of_arises (hcourse.arises hattempt)

theorem isSpecific_of_dispatch {failure : Failure}
    (hrun : (dispatch h settings request backend program scene).1 = .failed failure) :
    IsSpecific failure := by
  unfold dispatch at hrun
  split at hrun
  · exact isSpecific_of_onNative hrun
  · split at hrun
    · exact isSpecific_of_onMachine hrun
    · cases hrun
      exact fun _ => Cause.noConfusion

theorem isSpecific_of_parseProgram {source : Content} {failure : Failure}
    (hparse : parseProgram source = .error failure) : IsSpecific failure := by
  unfold parseProgram at hparse
  split at hparse
  next hinvalid =>
    cases hparse
    obtain ⟨position, rfl, -⟩ := exists_unmatched_of_validate hinvalid
    exact isSpecific_unmatchedBracket position none
  next => cases hparse

/-- Every failure of a run is of a kind that has a name of its own. -/
theorem isSpecific_of_runOn {failure : Failure}
    (hrun : (runOn h settings request backend scene).1 = .failed failure) :
    IsSpecific failure := by
  unfold runOn at hrun
  split at hrun
  next hparse =>
    cases hrun
    exact isSpecific_of_parseProgram hparse
  next =>
    split at hrun
    · exact isSpecific_of_dispatch hrun
    · exact isSpecific_of_dispatch hrun

theorem isSpecific_of_translate {input : Option Input} {failure : Failure}
    (hcode : Rust.translate program input = .error failure) : IsSpecific failure := by
  unfold Rust.translate at hcode
  cases hbytes : inputBytes input with
  | ok data => simp [hbytes, Except.map] at hcode
  | error refusal =>
      rw [hbytes] at hcode
      cases hcode
      exact isSpecific_of_inputBytes hbytes

theorem isSpecific_of_rustCode {source : Content} {input : Option Input} {failure : Failure}
    (hcode : rustCode source input = .error failure) : IsSpecific failure := by
  unfold rustCode at hcode
  split at hcode
  next hparse =>
    cases hcode
    exact isSpecific_of_parseProgram hparse
  next => exact isSpecific_of_translate hcode

/-! ## Writes of a run -/

theorem writes_onMachine (hverbosity : settings.verbosity < 2) :
    (onMachine h settings request program scene).2.writes = scene.writes := by
  have hlines : (watchGiven program request.input (limit h request.timeout) settings.verbosity
      scene.stats).2 = [] := by
    cases hfeed : feed program request.input with
    | error refusal => rw [watchGiven_of_refusal hfeed]
    | ok data =>
        rw [watchGiven_of_feed hfeed]
        unfold traceProgram
        split
        · exact if_neg (by omega)
        · rfl
  simp only [onMachine, hlines]
  cases request.counted <;> simp [write]

theorem writesRemarks_dispatch (hverbosity : settings.verbosity < 2) :
    WritesRemarks scene (dispatch h settings request backend program scene).2 := by
  unfold dispatch
  split
  · exact (remarks_onNative h settings request program scene).writes
  · split
    · exact .of_eq (writes_onMachine hverbosity)
    · exact .of_eq rfl

theorem writesRemarks_probed (h : Host) (settings : Settings) (scene : Scene) :
    WritesRemarks scene (probed h settings scene) := by
  unfold probed
  split
  · exact ⟨["  ~ backend: " ++ backendFor h], rfl⟩
  · exact ⟨[], rfl⟩

/-- A run that is not traced writes nothing but remarks. -/
theorem writesRemarks_runOn (hverbosity : settings.verbosity < 2) :
    WritesRemarks scene (runOn h settings request backend scene).2 := by
  unfold runOn
  split
  · exact .of_eq rfl
  · split
    · rw [chooseBackend_eq]
      exact (writesRemarks_probed h settings scene).trans (writesRemarks_dispatch hverbosity)
    · exact writesRemarks_dispatch hverbosity

end Session

namespace Command

open Scene Session Compiled

variable {h : Host} {o : Options} {script : Script} {input : Option Input}
  {scene prompted : Scene} {files : Files} {stdin : List UInt8}

/-! ## What is written before the report -/

/-- The command has to ask for the program's input. -/
def Asks (o : Options) (script : Script) : Prop := o.input = none ∧ ',' ∈ script.source

instance (o : Options) (script : Script) : Decidable (Asks o script) :=
  inferInstanceAs (Decidable (_ ∧ _))

def promptWrites (o : Options) (script : Script) : List Write :=
  if Asks o script then [⟨.stderr, promptText⟩] else []

theorem writes_of_obtainInput (hinput : obtainInput? o script scene = some (input, prompted)) :
    prompted.writes = scene.writes ++ promptWrites o script := by
  unfold obtainInput? at hinput
  split at hinput
  next given hgiven =>
    have hasks : ¬Asks o script := by simp [Asks, hgiven]
    cases hinput
    simp [promptWrites, hasks]
  next hnone =>
    split at hinput
    next hreads =>
      have hasks : Asks o script := by simpa [Asks, hnone, readsInput] using hreads
      obtain ⟨line, -, hline⟩ := Option.map_eq_some_iff.mp hinput
      cases hline
      simp [promptWrites, hasks, write]
    next hreads =>
      have hasks : ¬Asks o script := by simpa [Asks, hnone, readsInput] using hreads
      cases hinput
      simp [promptWrites, hasks]

theorem writesRemarks_perform (hverbosity : o.verbosity < 2) :
    WritesRemarks scene (perform h o script input scene).2 := by
  have hlevel : o.settings.verbosity < 2 := by
    change (o.verbosity : Int) < 2
    omega
  unfold perform
  split
  · exact .of_eq rfl
  · exact writesRemarks_runOn hlevel

/-- Nothing is written but the prompt, if the command has to ask, and remarks. -/
structure IsPrepared (o : Options) (script : Script) (scene : Scene) : Prop where
  aside : ∀ w ∈ scene.writes, IsAside w
  prompt_iff : ⟨.stderr, promptText⟩ ∈ scene.writes ↔ Asks o script

theorem remark_ne_prompt (text : String) : remark text ≠ ⟨.stderr, promptText⟩ := by
  intro heq
  have hbegins := begins_remark text
  rw [heq] at hbegins
  exact absurd hbegins (by decide)

theorem isPrepared_perform (hverbosity : o.verbosity < 2)
    (hinput : obtainInput? o script (.initial files) = some (input, prompted)) :
    IsPrepared o script (perform h o script input prompted).2 := by
  obtain ⟨texts, htexts⟩ : WritesRemarks prompted (perform h o script input prompted).2 :=
    writesRemarks_perform hverbosity
  have hwrites : (perform h o script input prompted).2.writes =
      promptWrites o script ++ texts.map remark := by
    rw [htexts, writes_of_obtainInput hinput]
    rfl
  constructor
  case aside =>
    intro w hw
    rw [hwrites] at hw
    rcases List.mem_append.mp hw with hprompt | hremark
    · unfold promptWrites at hprompt
      split at hprompt
      · rw [List.mem_singleton.mp hprompt]
        exact .prompt
      · cases hprompt
    · obtain ⟨text, -, rfl⟩ := List.mem_map.mp hremark
      exact .remark text
  case prompt_iff =>
    rw [hwrites]
    by_cases hasks : Asks o script <;> simp [promptWrites, hasks, remark_ne_prompt]

/-! ## The report -/

/-- The text is all of standard output, and no banner is shown. -/
structure ReportsText (o : Options) (script : Script) (text : String) (e : Ending)
    (shown : Scene) : Prop where
  status_eq : e.status = 0
  stdout_eq : shown.textOn .stdout = text
  no_banner : ∀ w ∈ shown.writes, w.stream = .stderr → ¬IsBanner w.text
  prompt_iff : ⟨.stderr, promptText⟩ ∈ shown.writes ↔ Asks o script

/-- The failure is shown under the only banner, with its notes behind it and nothing else. -/
structure ReportsFailure (o : Options) (script : Script) (failure : Failure) (e : Ending)
    (shown : Scene) : Prop where
  status_eq : e.status = 1
  stdout_eq : shown.textOn .stdout = ""
  banner : ∃ title banner before, IsTitled failure.cause title ∧
    Begins (Style.banner (" " ++ title ++ " ")) banner ∧
    shown.writes.filter (IsBanner ·.text) = [⟨.stderr, banner⟩] ∧
    shown.writes = before ++
      ⟨.stderr, banner⟩ :: failure.notes.map fun note => ⟨.stderr, noteText note⟩
  no_statistics : ∀ w ∈ shown.writes, ¬IsStatistics w.text
  prompt_iff : ⟨.stderr, promptText⟩ ∈ shown.writes ↔ Asks o script

theorem begins_of_mem_statisticsTexts {steps : Int} {seconds : Float} {text : String}
    (ht : text ∈ statisticsTexts steps seconds) :
    ∃ mark ∈ [statisticsMark, "step\t", "time\t"], Begins mark text := by
  simp only [statisticsTexts, List.mem_cons, List.not_mem_nil, or_false] at ht
  rcases ht with rfl | rfl | rfl
  · exact ⟨statisticsMark, by simp, ((Begins.refl _).append _).append _⟩
  · exact ⟨"step\t", by simp, (begins_append _ _).append _⟩
  · exact ⟨"time\t", by simp, (begins_append _ _).append _⟩

theorem not_isBanner_of_mem_statisticsTexts {steps : Int} {seconds : Float} {text : String}
    (ht : text ∈ statisticsTexts steps seconds) : ¬IsBanner text ∧ text ≠ promptText := by
  obtain ⟨mark, hmark, hbegins⟩ := begins_of_mem_statisticsTexts ht
  have hapart : ∀ mark ∈ [statisticsMark, "step\t", "time\t"],
      Apart mark (Style.code "30;43") ∧ ¬Begins mark promptText := by decide
  refine ⟨hbegins.not_begins (hapart mark hmark).1, ?_⟩
  rintro rfl
  exact (hapart mark hmark).2 hbegins

theorem textOn_stdout_of_isPrepared (hprepared : IsPrepared o script scene) :
    scene.textOn .stdout = "" := by
  have hnone : scene.writes.filter (·.stream = .stdout) = [] := by
    apply List.filter_eq_nil_iff.mpr
    intro w hw
    simp [(hprepared.aside w hw).stream_eq]
  rw [textOn, hnone]
  rfl

/-- What is written for statistics that may be wanted. -/
def statisticsWanted (steps : Option Int) (seconds : Float) : List String :=
  (steps.map (statisticsTexts · seconds)).getD []

theorem mem_statisticsTexts_of_wanted {steps : Option Int} {seconds : Float} {text : String}
    (ht : text ∈ statisticsWanted steps seconds) :
    ∃ n, text ∈ statisticsTexts n seconds := by
  cases steps with
  | none => cases ht
  | some n => exact ⟨n, ht⟩

theorem sceneAfter_of_not_plain {e : Ending} (hplain : e.plain = false) (seconds : Float) :
    e.sceneAfter seconds = e.scene.write .stderr (statisticsWanted e.steps seconds) := by
  rw [Ending.sceneAfter, hplain]
  rfl

/-- How a command ends in colours when it has a text to show. -/
def textEnding (scene : Scene) (text : String) (steps : Option Int) : Ending :=
  ⟨0, scene.write .stdout [text], steps, false⟩

/-- How a command ends in colours when it has a failure to show. -/
def failureEnding (scene : Scene) (subject : Subject) (failure : Failure) : Ending :=
  ⟨1, scene.write .stderr (failureTexts subject failure), none, false⟩

/-- After a failure no statistics are due, wanted or not. -/
theorem finish_report (stats : Bool) (subject : Subject) (failure : Failure) (scene : Scene) :
    finish stats false true (report subject [failure] scene) =
      failureEnding scene subject failure := by
  cases stats <;> rfl

theorem reportsText_of_isPrepared {text : String} {steps : Option Int} {seconds : Float}
    (hprepared : IsPrepared o script scene) :
    ReportsText o script text (textEnding scene text steps)
      ((textEnding scene text steps).sceneAfter seconds) := by
  rw [sceneAfter_of_not_plain rfl, textEnding]
  have hstatistics : ∀ t ∈ statisticsWanted steps seconds, ¬IsBanner t ∧ t ≠ promptText := by
    intro t ht
    obtain ⟨n, hn⟩ := mem_statisticsTexts_of_wanted ht
    exact not_isBanner_of_mem_statisticsTexts hn
  constructor
  case status_eq => rfl
  case stdout_eq =>
    rw [textOn_write_ne _ (by decide), textOn_write_self, textOn_stdout_of_isPrepared hprepared]
    simp
  case no_banner =>
    intro w hw hstream
    simp only [write, List.mem_append, List.mem_map, List.mem_singleton] at hw
    rcases hw with (haside | ⟨_, _, rfl⟩) | ⟨t, ht, rfl⟩
    · exact (hprepared.aside w haside).not_isBanner
    · cases hstream
    · exact (hstatistics t ht).1
  case prompt_iff =>
    rw [← hprepared.prompt_iff]
    have hnot : promptText ∉ statisticsWanted steps seconds := fun ht => (hstatistics _ ht).2 rfl
    simp [write, hnot]

theorem filter_isBanner_of_aside {writes : List Write} (haside : ∀ w ∈ writes, IsAside w) :
    writes.filter (IsBanner ·.text) = [] := by
  apply List.filter_eq_nil_iff.mpr
  intro w hw
  simpa using (haside w hw).not_isBanner

theorem reportsFailure_of_isPrepared {subject : Subject} {failure : Failure} {seconds : Float}
    (hprepared : IsPrepared o script scene)
    (htitled : IsTitled failure.cause (title failure.cause)) :
    ReportsFailure o script failure (failureEnding scene subject failure)
      ((failureEnding scene subject failure).sceneAfter seconds) := by
  rw [sceneAfter_of_not_plain rfl, failureEnding]
  let banner : Write := ⟨.stderr, bannerText subject failure⟩
  let notes : List Write := failure.notes.map fun note => ⟨.stderr, noteText note⟩
  have hwrites : ((scene.write .stderr (failureTexts subject failure)).write .stderr
      (statisticsWanted none seconds)).writes = scene.writes ++ banner :: notes := by
    simp [write, failureTexts, statisticsWanted, banner, notes, Function.comp_def]
  have hnotes : ∀ w ∈ notes, IsAside w := by
    intro w hw
    obtain ⟨note, -, rfl⟩ := List.mem_map.mp hw
    exact .remark ("  " ++ note)
  constructor
  case status_eq => rfl
  case stdout_eq =>
    rw [textOn_write_ne _ (by decide), textOn_write_ne _ (by decide)]
    exact textOn_stdout_of_isPrepared hprepared
  case banner =>
    refine ⟨title failure.cause, bannerText subject failure, scene.writes, htitled,
      begins_bannerText subject failure, ?_, hwrites⟩
    rw [hwrites, List.filter_append, filter_isBanner_of_aside hprepared.aside, List.nil_append,
      List.filter_cons_of_pos (by simpa using isBanner_bannerText subject failure),
      filter_isBanner_of_aside hnotes]
  case no_statistics =>
    intro w hw
    rw [hwrites, List.mem_append, List.mem_cons] at hw
    rcases hw with haside | rfl | hnote
    · exact (hprepared.aside w haside).not_isStatistics
    · exact not_isStatistics_bannerText subject failure
    · exact (hnotes w hnote).not_isStatistics
  case prompt_iff =>
    rw [hwrites, ← hprepared.prompt_iff, List.mem_append, List.mem_cons, or_iff_left]
    rintro (hbanner | hnote)
    · exact bannerText_ne_promptText subject failure (congrArg Write.text hbanner).symm
    · obtain ⟨note, -, hnote⟩ := List.mem_map.mp hnote
      exact remark_ne_prompt _ hnote

/-- The command ends with one report of the answer, if that is a text or a failure to report. -/
structure ReportsOnce (o : Options) (script : Script) (seconds : Float) (answer : Outcome String)
    (completion : Completion) : Prop where
  text : ∀ text, answer = .returned text →
    ∃ e, completion = .exited e ∧ ReportsText o script text e (e.sceneAfter seconds)
  failure : ∀ failure, answer = .failed failure → failure.cause.isReported = true →
    ∃ e, completion = .exited e ∧ ReportsFailure o script failure e (e.sceneAfter seconds)

theorem reportsOnce_conclude {answer : Outcome String} {seconds : Float} (hplain : o.plain = false)
    (hprepared : IsPrepared o script scene)
    (hspecific : ∀ failure, answer = .failed failure → IsSpecific failure) :
    ReportsOnce o script seconds answer (conclude o script (answer, scene)) := by
  constructor
  case text =>
    rintro text rfl
    simp only [conclude, hplain]
    exact ⟨_, rfl, reportsText_of_isPrepared hprepared⟩
  case failure =>
    rintro failure rfl hreported
    simp only [conclude, hreported, hplain, finish_report]
    exact ⟨_, rfl, reportsFailure_of_isPrepared hprepared
      (isTitled_title hreported (hspecific failure rfl))⟩

theorem runScript_eq_conclude
    (hscript : Script.load? files h.workingDirectory o.script stdin = some script)
    (hinput : obtainInput? o script (.initial files) = some (input, prompted)) :
    runScript h o stdin (.initial files) =
      conclude o script (perform h o script input prompted) := by
  have hload : Script.load? (initial files).files h.workingDirectory o.script stdin =
      some script := hscript
  simp only [runScript, hload, hinput]

/-- What the command has a session do, when it has obtained the input of its program. -/
def Options.request (o : Options) (script : Script) (input : Option Input) : Request :=
  ⟨.text script.source, input, o.timeout, none, o.stats⟩

theorem perform_of_emitRust (hemit : o.emitRust = true) :
    (perform h o script input scene).1 =
      .ofExcept (rustCode (.text script.source) input) := by
  simp [perform, hemit]

theorem perform_of_not_emitRust (hemit : o.emitRust = false) :
    (perform h o script input scene).1 =
      (runOn h o.settings (o.request script input) o.backend scene).1.map outputText := by
  simp [perform, hemit, Options.request]

theorem isSpecific_of_perform {failure : Failure}
    (hfailed : (perform h o script input scene).1 = .failed failure) : IsSpecific failure := by
  cases hemit : o.emitRust with
  | true =>
      rw [perform_of_emitRust hemit, Outcome.ofExcept_eq_failed_iff] at hfailed
      exact isSpecific_of_rustCode hfailed
  | false =>
      rw [perform_of_not_emitRust hemit, Outcome.map_eq_failed_iff] at hfailed
      exact isSpecific_of_runOn hfailed

end Command

end TapeMachine
