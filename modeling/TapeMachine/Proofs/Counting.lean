import TapeMachine.Call
import TapeMachine.Proofs.Dispatch
import TapeMachine.Proofs.Safety

/-!
# Shared counters

Only a run on the machine that returns adds to the counters, and what it adds is the number of
instructions that it has executed. So over any number of calls the counter of steps sums these up,
whatever else is called in between and however that ends.
-/

namespace TapeMachine

variable {h : Host} {settings : Settings} {request : Request} {requests : List Request}
  {program : List Instruction} {input : List UInt8} {scene : Scene} {before after : Stats} {n : Nat}

def Outcome.hasReturned {α : Type} : Outcome α → Bool
  | .returned _ => true
  | _ => false

@[simp] theorem hasReturned_map {α β : Type} (f : α → β) (outcome : Outcome α) :
    (outcome.map f).hasReturned = outcome.hasReturned := by
  cases outcome <;> rfl

/-! ## Executed instructions -/

/-- On the input the machine executes `n` instructions of the program and is then behind its end. -/
def Executes (program : List Instruction) (input : List UInt8) (n : Nat) : Prop :=
  ∃ m history s, Machine.load program input = .ok m ∧ m.Reaches history s ∧
    s.counter = m.code.size ∧ history.length = n

theorem executes_of_returned {limit : Machine.Limit} {result : Machine.Result}
    (hrun : runProgram program input limit = .returned result) :
    Executes program input result.steps := by
  cases hload : Machine.load program input with
  | error index =>
      rw [runProgram, hload] at hrun
      cases hrun
  | ok m =>
      rw [runProgram_of_load hload] at hrun
      rcases Machine.stopsWith_or_suspended hload limit limit.steps .start with
        hstops | ⟨_, t, -, -, hsuspended⟩
      · rw [hrun] at hstops
        cases hstops with
        | @returned history s reached behind => exact ⟨m, history, s, hload, reached, behind, rfl⟩
      · rw [hsuspended] at hrun
        cases limit <;> cases hrun

theorem Executes.le {k : Nat} (h : Executes program input n) (h' : Executes program input k) :
    n ≤ k := by
  obtain ⟨m, history, s, hload, reached, -, rfl⟩ := h
  obtain ⟨m', history', s', hload', reached', behind', rfl⟩ := h'
  obtain rfl : m = m' := Except.ok.inj (hload.symm.trans hload')
  by_contra hlt
  obtain ⟨j, hj⟩ := Nat.exists_eq_add_of_lt (Nat.lt_of_not_le hlt)
  have hafter := reached.after?
  rw [hj, Nat.add_assoc, Machine.after?_add, reached'.after?] at hafter
  -- Behind the end there is nothing left to execute.
  have hend : m.step s' = .halted s' := by simp [Machine.step, behind']
  simp [Machine.after?, hend] at hafter

/-- There is only one number of instructions that are executed. -/
theorem Executes.unique {k : Nat} (h : Executes program input n) (h' : Executes program input k) :
    n = k :=
  Nat.le_antisymm (h.le h') (h'.le h)

/-- What the machine executes for a request. -/
def Request.Executes (request : Request) (n : Nat) : Prop :=
  ∃ data, inputBytes request.input = .ok data ∧
    TapeMachine.Executes (condense request.source.units) data n

/-! ## Requests that count -/

namespace Session

/-- Whether a name means the machine, which `auto` does when the compiler does not answer. -/
def meansMachine (h : Host) (backend : String) : Bool :=
  backend = "interpret" || (backend = "auto" && h.versionStatus ≠ some 0)

/-- The request of a run, if it hands over the counters, is run on the machine, and returns. -/
def counting (h : Host) (request : Request) (backend : String) (returned : Bool) : List Request :=
  if request.counted && meansMachine h backend && returned then [request] else []

end Session

/-- The request of a call that can hand over counters, and the backend that it asks for. -/
def Call.request? : Call → Option (Request × String)
  | .run request => some (request, "auto")
  | .runBytes request backend => some (request, backend)
  | .interpret request => some (request, "interpret")
  | _ => none

def Turn.counting (t : Turn) (outcome : Outcome Answer) : List Request :=
  match t.call.request? with
  | some (request, backend) => Session.counting t.host request backend outcome.hasReturned
  | none => []

/-- The requests that count, among turns that came to the outcomes. -/
def counting (turns : List Turn) (outcomes : List (Outcome Answer)) : List Request :=
  (turns.zip outcomes).flatMap fun (t, outcome) => t.counting outcome

/-! ## Adding up -/

/-- Requests add the instructions that they execute, one after the other. -/
inductive AddsUp : List Request → Stats → Stats → Prop where
  | nil (stats : Stats) : AddsUp [] stats stats
  | cons {request : Request} {n : Nat} {requests : List Request} {before after : Stats}
      (executes : request.Executes n) (rest : AddsUp requests (before.addSteps n) after) :
      AddsUp (request :: requests) before after

theorem AddsUp.one (executes : request.Executes n) (before : Stats) :
    AddsUp [request] before (before.addSteps n) :=
  .cons executes (.nil _)

theorem AddsUp.append {requests' : List Request} {middle : Stats}
    (hfirst : AddsUp requests before middle) (hsecond : AddsUp requests' middle after) :
    AddsUp (requests ++ requests') before after := by
  induction hfirst with
  | nil => exact hsecond
  | cons executes _ ih => exact .cons executes (ih hsecond)

/-- The counter of steps grows by the sum, and there is one as soon as anything is added. -/
theorem AddsUp.exists_counts (h : AddsUp requests before after) :
    ∃ counts : List Nat, List.Forall₂ Request.Executes requests counts ∧
      (requests ≠ [] → List.lookup Stats.stepsKey after =
        some ((List.lookup Stats.stepsKey before).getD 0 + counts.sum)) ∧
      (∀ key ≠ Stats.stepsKey, List.lookup key after = List.lookup key before) ∧
      (requests = [] → after = before) := by
  induction h with
  | nil => exact ⟨[], .nil, by simp, fun _ _ => rfl, fun _ => rfl⟩
  | @cons request n requests before after executes rest ih =>
      obtain ⟨counts, hcounts, hsteps, hothers, hnone⟩ := ih
      refine ⟨n :: counts, .cons executes hcounts, fun _ => ?_, fun key hkey => ?_, by simp⟩
      · have hself := Stats.lookup_add_self Stats.stepsKey n before
        rw [List.sum_cons, Int.natCast_add, ← Int.add_assoc]
        by_cases hempty : requests = []
        · subst hempty
          cases hcounts
          rw [hnone rfl, Stats.addSteps, hself]
          simp
        · rw [hsteps hempty, Stats.addSteps, hself]
          rfl
      · rw [hothers key hkey]
        exact Stats.lookup_add_ne n before hkey

/-! ## Turns -/

namespace Session

variable {backend : String}

theorem outcome_onMachine (h : Host) (settings : Settings) (request : Request)
    (program : List Instruction) (scene : Scene) :
    (onMachine h settings request program scene).1 =
      (watchGiven program request.input (limit h request.timeout) settings.verbosity
        scene.stats).1.1 := rfl

theorem stats_onMachine (h : Host) (settings : Settings) (request : Request)
    (program : List Instruction) (scene : Scene) :
    (onMachine h settings request program scene).2.stats =
      if request.counted then
        (watchGiven program request.input (limit h request.timeout) settings.verbosity
          scene.stats).1.2
      else scene.stats := by
  unfold onMachine
  cases request.counted <;> rfl

theorem addsUp_runCounted {data : List UInt8}
    (hprogram : program = condense request.source.units)
    (hbytes : inputBytes request.input = .ok data) (limit : Machine.Limit) (stats : Stats) :
    AddsUp (if (runCounted program data limit stats).1.hasReturned then [request] else [])
      stats (runCounted program data limit stats).2 := by
  rw [runCounted]
  cases hrun : runProgram program data limit with
  | returned result =>
      have hexecutes : request.Executes result.steps := by
        refine ⟨data, hbytes, ?_⟩
        rw [← hprogram]
        exact executes_of_returned hrun
      exact .one hexecutes stats
  | failed failure => exact .nil stats
  | unfinished => exact .nil stats

theorem addsUp_onMachine (hprogram : program = condense request.source.units) :
    AddsUp (if request.counted && (onMachine h settings request program scene).1.hasReturned then
        [request] else [])
      scene.stats (onMachine h settings request program scene).2.stats := by
  rw [outcome_onMachine, stats_onMachine]
  cases request.counted with
  | false => exact .nil _
  | true =>
      cases hfeed : feed program request.input with
      | error failure =>
          rw [watchGiven_of_refusal hfeed]
          exact .nil _
      | ok data =>
          rw [watchGiven_of_feed hfeed]
          exact addsUp_runCounted hprogram (inputBytes_of_feed hfeed) _ _

theorem addsUp_dispatch (hprogram : program = condense request.source.units)
    (hb : backend ≠ "auto") :
    AddsUp (counting h request backend
        (dispatch h settings request backend program scene).1.hasReturned)
      scene.stats (dispatch h settings request backend program scene).2.stats := by
  by_cases hnative : backend = "native"
  · subst hnative
    have hstats := (remarks_onNative h settings request program scene).stats_eq
    simpa [counting, meansMachine, dispatch, hstats] using AddsUp.nil scene.stats
  by_cases hmachine : backend = "interpret"
  · subst hmachine
    simpa [counting, meansMachine, dispatch] using addsUp_onMachine hprogram
  · simpa [counting, meansMachine, dispatch, hnative, hmachine, hb] using AddsUp.nil scene.stats

theorem stats_probed (h : Host) (settings : Settings) (scene : Scene) :
    (probed h settings scene).stats = scene.stats := rfl

theorem meansMachine_auto (h : Host) : meansMachine h "auto" = meansMachine h (backendFor h) := by
  by_cases hstatus : h.versionStatus = some 0 <;> simp [meansMachine, backendFor, hstatus]

theorem addsUp_runOn (h : Host) (settings : Settings) (request : Request) (backend : String)
    (scene : Scene) :
    AddsUp (counting h request backend (runOn h settings request backend scene).1.hasReturned)
      scene.stats (runOn h settings request backend scene).2.stats := by
  cases hvalid : validate request.source with
  | error failure =>
      rw [(refuses_of_validate hvalid).runOn_eq backend]
      simpa [counting, Outcome.hasReturned] using AddsUp.nil scene.stats
  | ok valid =>
      by_cases hb : backend = "auto"
      · subst hb
        rw [runOn_auto_of_validate hvalid, counting, meansMachine_auto, ← stats_probed h settings scene]
        exact addsUp_dispatch rfl (backendFor_ne_auto h)
      · rw [runOn_of_validate hvalid hb]
        exact addsUp_dispatch rfl hb

theorem runInterpreted_eq (h : Host) (settings : Settings) (request : Request) (scene : Scene) :
    runInterpreted h settings request scene =
      ((runOn h settings request "interpret" scene).1.map outputText,
        (runOn h settings request "interpret" scene).2) := by
  unfold runInterpreted runOn
  cases parseProgram request.source <;> rfl

theorem stats_runNatively (h : Host) (settings : Settings) (request : Request) (scene : Scene) :
    (runNatively h settings request scene).2.stats = scene.stats := by
  unfold runNatively
  cases parseProgram request.source with
  | error failure => rfl
  | ok program => exact (remarks_onNative h settings request program scene).stats_eq

end Session

/-- What one turn adds. -/
theorem addsUp_take (t : Turn) (scene : Scene) :
    AddsUp (t.counting (t.take scene).1) scene.stats (t.take scene).2.stats := by
  obtain ⟨h, settings, call⟩ := t
  cases call with
  | compile source => exact .nil _
  | translate source input => exact .nil _
  | wantsInput source => exact .nil _
  | compilerAvailable => exact .nil _
  | selectBackend =>
      rw [Turn.take, Call.perform, Session.chooseBackend_eq]
      exact .nil _
  | run request =>
      have hruns := Session.addsUp_runOn h settings request "auto" scene
      simpa [Turn.take, Call.perform, Session.run, Turn.counting, Call.request?] using hruns
  | runBytes request backend =>
      have hruns := Session.addsUp_runOn h settings request backend scene
      simpa [Turn.take, Call.perform, Turn.counting, Call.request?] using hruns
  | interpret request =>
      have hruns := Session.addsUp_runOn h settings request "interpret" scene
      simpa [Turn.take, Call.perform, Session.runInterpreted_eq, Turn.counting, Call.request?]
        using hruns
  | transpile request =>
      have hstats := Session.stats_runNatively h settings request scene
      simpa [Turn.take, Call.perform, Turn.counting, Call.request?, hstats] using AddsUp.nil _

/-- What any number of turns adds. -/
theorem addsUp_takeTurns (turns : List Turn) (scene : Scene) :
    AddsUp (counting turns (takeTurns turns scene).1) scene.stats
      (takeTurns turns scene).2.stats := by
  induction turns generalizing scene with
  | nil => exact .nil _
  | cons t turns ih => exact (addsUp_take t scene).append (ih (t.take scene).2)

theorem length_takeTurns (turns : List Turn) (scene : Scene) :
    (takeTurns turns scene).1.length = turns.length := by
  induction turns generalizing scene with
  | nil => rfl
  | cons t turns ih => exact congrArg (· + 1) (ih (t.take scene).2)

/-- Over any number of turns, the counter of steps grows by all that the requests execute that are
run on the machine with the counters and return. Nothing else is counted, and without such a
request the counters are what they were. -/
theorem turns_add_up (turns : List Turn) (scene : Scene) :
    (takeTurns turns scene).1.length = turns.length ∧
    ∃ counts : List Nat,
      List.Forall₂ Request.Executes (counting turns (takeTurns turns scene).1) counts ∧
      (counting turns (takeTurns turns scene).1 ≠ [] →
        List.lookup Stats.stepsKey (takeTurns turns scene).2.stats =
          some ((List.lookup Stats.stepsKey scene.stats).getD 0 + counts.sum)) ∧
      (∀ key ≠ Stats.stepsKey, List.lookup key (takeTurns turns scene).2.stats =
        List.lookup key scene.stats) ∧
      (counting turns (takeTurns turns scene).1 = [] →
        (takeTurns turns scene).2.stats = scene.stats) :=
  ⟨length_takeTurns turns scene, (addsUp_takeTurns turns scene).exists_counts⟩

end TapeMachine
