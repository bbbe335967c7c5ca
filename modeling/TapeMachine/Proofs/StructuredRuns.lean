import TapeMachine.Machine.Counted
import TapeMachine.Proofs.Runs
import TapeMachine.Proofs.Stores

/-!
# The machine follows the structured meaning

A block that comes to a result takes the machine through the same steps to the same result. And
for any number of steps, either the machine can take that many or the block comes to its result
within them. So runs on the machine end exactly as blocks do, and go on for ever exactly if the
block has no result.
-/

namespace TapeMachine

open Structured

namespace Machine

/-- Where the machine may be when a block at index `n` is about to be evaluated: a loop is also
entered from its closing bracket, by the test behind its body. -/
def IsEntry (n counter : Nat) : Block Action → Prop
  | .loop body _ => counter = n ∨ counter = n + body.length + 1
  | _ => counter = n

theorem isEntry_self (n : Nat) (b : Block Action) : IsEntry n n b := by
  cases b with
  | done => rfl
  | leaf a rest => rfl
  | loop body rest => exact .inl rfl

/-- After `k` steps the machine shows the result: the store behind the block, or the failure
where it arose. -/
def Shows (m : Machine) (s : State) (k stop : Nat) : Except Failed Store → Prop
  | .ok t => ∃ s', m.after? k s = some s' ∧ m.Matches s' t ∧ s'.counter = stop
  | .error (i, fault) =>
    ∃ s', m.after? k s = some s' ∧ m.step s' = .faulted fault s' ∧ s'.counter = i

variable {m : Machine} {s u : State} {t : Store}

theorem Shows.trans {k j stop : Nat} {r : Except Failed Store} (h : m.after? k s = some u)
    (h' : m.Shows u j stop r) : m.Shows s (k + j) stop r := by
  match r, h' with
  | .ok t, ⟨s', hafter, hmatch, hcounter⟩ =>
      exact ⟨s', after?_trans h hafter, hmatch, hcounter⟩
  | .error (i, fault), ⟨s', hafter, hfault, hcounter⟩ =>
      exact ⟨s', after?_trans h hafter, hfault, hcounter⟩

theorem Shows.step {k stop : Nat} {r : Except Failed Store} (h : m.step s = .next u)
    (h' : m.Shows u k stop r) : m.Shows s (k + 1) stop r := by
  have hone : m.after? 1 s = some u := by
    rw [after?_succ h]
    rfl
  rw [Nat.add_comm]
  exact h'.trans hone

/-- The test of a loop that is about to be evaluated. -/
theorem step_loop {n : Nat} {body rest : Block Action} (hplaced : m.IsPlaced n (.loop body rest))
    (hentry : IsEntry n s.counter (.loop body rest)) (hmatch : m.Matches s t) :
    m.step s = .next (s.advance (if t.cell = 0 then n + body.length + 1 else n)) := by
  obtain ⟨⟨hstart, hstop⟩, ⟨hforth, hback⟩, -, -⟩ := hplaced
  exact step_bracket hmatch hstart hstop hforth hback hentry

/-- Evaluating an indexed block, the machine goes along. The induction is on the evaluation; a
loop that is evaluated again starts from its closing bracket. -/
theorem shows_of_eval {B : Block (Nat × Action)} {k : Nat} {r : Except Failed Store}
    (h : B.Eval applyAt Store.isOpen t k r) {n : Nat} {b : Block Action} (hB : B = b.indexed n)
    (hplaced : m.IsPlaced n b) (hentry : IsEntry n s.counter b) (hmatch : m.Matches s t) :
    m.Shows s k (n + b.length) r := by
  induction h generalizing n b s with
  | done t =>
      cases b with
      | leaf a rest => cases hB
      | loop body rest => cases hB
      | done => exact ⟨s, rfl, hmatch, hentry⟩
  | @leaf p rest t t' k r first next ih =>
      cases b with
      | done => cases hB
      | loop body rest => cases hB
      | leaf a rest =>
          cases hB
          have hcounter : s.counter = n := hentry
          have hstop : n + (Block.leaf a rest).length = n + 1 + rest.length := by
            simp only [Block.length]
            omega
          rcases step_action hmatch (hcounter ▸ hplaced.1) with
            ⟨t'', s', happly, hstep, hmatch', hnext⟩ | ⟨fault, happly, -⟩
          · have htt : t'' = t' := by simpa [applyAt, happly] using first
            subst htt
            rw [hcounter] at hnext
            rw [hstop]
            exact (ih rfl hplaced.2 (hnext ▸ isEntry_self _ _) hmatch').step hstep
          · simp [applyAt, happly] at first
  | @fail p rest t e first =>
      cases b with
      | done => cases hB
      | loop body rest => cases hB
      | leaf a rest =>
          cases hB
          have hcounter : s.counter = n := hentry
          rcases step_action hmatch (hcounter ▸ hplaced.1) with
            ⟨t', s', happly, -⟩ | ⟨fault, happly, hstep⟩
          · simp [applyAt, happly] at first
          · have he : (n, fault) = e := by simpa [applyAt, happly] using first
            subst he
            exact ⟨s, rfl, hstep, hcounter⟩
  | @leave body' rest' t k r closed next ih =>
      cases b with
      | done => cases hB
      | leaf a rest => cases hB
      | loop body rest =>
          cases hB
          have hzero : t.cell = 0 := by simpa [Store.isOpen] using closed
          have hstep := step_loop hplaced hentry hmatch
          rw [if_pos hzero] at hstep
          have hstop : n + (Block.loop body rest).length = n + body.length + 2 + rest.length := by
            simp only [Block.length]
            omega
          rw [hstop]
          exact (ih rfl hplaced.2.2.2 (isEntry_self _ _) (hmatch.advance _)).step hstep
  | @enter body' rest' t t' k j r opened once again ihOnce ihAgain =>
      cases b with
      | done => cases hB
      | leaf a rest => cases hB
      | loop body rest =>
          cases hB
          have hne : t.cell ≠ 0 := by simpa [Store.isOpen] using opened
          have hstep := step_loop hplaced hentry hmatch
          rw [if_neg hne] at hstep
          obtain ⟨u, hafter, hmatch', hcounter⟩ :=
            ihOnce rfl hplaced.2.2.1 (isEntry_self _ _) (hmatch.advance _)
          have hagain : IsEntry n u.counter (.loop body rest) := by
            right
            rw [hcounter]
            omega
          have hshows := ((ihAgain rfl hplaced hagain hmatch').trans hafter).step hstep
          rwa [Nat.add_comm j k] at hshows
  | @broken body' rest' t k e opened once ih =>
      cases b with
      | done => cases hB
      | leaf a rest => cases hB
      | loop body rest =>
          cases hB
          have hne : t.cell ≠ 0 := by simpa [Store.isOpen] using opened
          have hstep := step_loop hplaced hentry hmatch
          rw [if_neg hne] at hstep
          have hshows := ih rfl hplaced.2.2.1 (isEntry_self _ _) (hmatch.advance _)
          obtain ⟨i, fault⟩ := e
          exact hshows.step hstep
  | @refused body' rest' t e failed => simp [Store.isOpen] at failed

/-- Either the machine can take `k` steps or the block comes to its result within them. The
induction is on the number of steps, which every leaf and every test uses up. -/
theorem after?_or_eval (k : Nat) {n : Nat} {b : Block Action} (hplaced : m.IsPlaced n b)
    (hentry : IsEntry n s.counter b) (hmatch : m.Matches s t) :
    (∃ s', m.after? k s = some s') ∨
      ∃ j r, j ≤ k ∧ (b.indexed n).Eval applyAt Store.isOpen t j r := by
  induction k using Nat.strongRecOn generalizing n b s t with
  | ind k ih =>
      cases k with
      | zero => exact .inl ⟨s, rfl⟩
      | succ k =>
          cases b with
          | done => exact .inr ⟨0, .ok t, Nat.zero_le _, .done t⟩
          | leaf a rest =>
              have hcounter : s.counter = n := hentry
              rcases step_action hmatch (hcounter ▸ hplaced.1) with
                ⟨t', s', happly, hstep, hmatch', hnext⟩ | ⟨fault, happly, hstep⟩
              · rw [hcounter] at hnext
                have hfirst : applyAt (n, a) t = .ok t' := by simp [applyAt, happly]
                rcases ih k (Nat.lt_succ_self k) hplaced.2 (hnext ▸ isEntry_self _ _) hmatch' with
                  ⟨u, hu⟩ | ⟨j, r, hj, heval⟩
                · exact .inl ⟨u, (after?_succ hstep).trans hu⟩
                · exact .inr ⟨j + 1, r, by omega, .leaf hfirst heval⟩
              · have hfirst : applyAt (n, a) t = .error (n, fault) := by simp [applyAt, happly]
                exact .inr ⟨0, _, Nat.zero_le _, .fail hfirst⟩
          | loop body rest =>
              have hstep := step_loop hplaced hentry hmatch
              by_cases hzero : t.cell = 0
              · have hclosed : Store.isOpen (ε := Failed) t = .ok false := by
                  simp [Store.isOpen, hzero]
                rw [if_pos hzero] at hstep
                rcases ih k (Nat.lt_succ_self k) hplaced.2.2.2 (isEntry_self _ _)
                  (hmatch.advance _) with ⟨u, hu⟩ | ⟨j, r, hj, heval⟩
                · exact .inl ⟨u, (after?_succ hstep).trans hu⟩
                · exact .inr ⟨j + 1, r, by omega, .leave hclosed heval⟩
              · have hopened : Store.isOpen (ε := Failed) t = .ok true := by
                  simp [Store.isOpen, hzero]
                rw [if_neg hzero] at hstep
                rcases ih k (Nat.lt_succ_self k) hplaced.2.2.1 (isEntry_self _ _)
                  (hmatch.advance _) with ⟨u, hu⟩ | ⟨j, r, hj, heval⟩
                · exact .inl ⟨u, (after?_succ hstep).trans hu⟩
                · have hshows := shows_of_eval heval rfl hplaced.2.2.1 (isEntry_self _ _)
                    (hmatch.advance n)
                  cases r with
                  | error e => exact .inr ⟨j + 1, _, by omega, .broken hopened heval⟩
                  | ok t' =>
                      -- The body is through after `j` steps, and the loop is tested again.
                      obtain ⟨u, hu, hmatch', hcounter⟩ := hshows
                      have hagain : IsEntry n u.counter (.loop body rest) := by
                        right
                        rw [hcounter]
                        omega
                      rcases ih (k - j) (by omega) hplaced hagain hmatch' with
                        ⟨v, hv⟩ | ⟨i, r, hi, hrest⟩
                      · refine .inl ⟨v, (after?_succ hstep).trans ?_⟩
                        have hboth := after?_trans hu hv
                        rwa [Nat.add_sub_cancel' hj] at hboth
                      · exact .inr ⟨i + j + 1, r, by omega, .enter hopened heval hrest⟩

end Machine

namespace Structured

/-! ## Outcomes -/

/-- What the machine reports for a result that comes after `n` steps. -/
def report (n : Nat) : Except Failed Store → Outcome Machine.Result
  | .ok t => .returned ⟨t.output, n⟩
  | .error (i, .outOfBounds) => .failed (Failure.outOfBounds (some i) .interpreter)
  | .error (i, .inputExhausted) => .failed (Failure.inputExhausted (some i) .interpreter)

theorem report_ne_unfinished (n : Nat) (r : Except Failed Store) : report n r ≠ .unfinished := by
  match r with
  | .ok t => simp [report]
  | .error (i, .outOfBounds) => simp [report]
  | .error (i, .inputExhausted) => simp [report]

variable {b : Block Action} {input : List UInt8} {n : Nat} {r : Except Failed Store} {m : Machine}

theorem shows_of_runs (hload : Machine.load (program b) input = .ok m) (h : Runs b input n r) :
    m.Shows .start n b.length r := by
  obtain ⟨hplaced, -, hinput⟩ := Machine.isPlaced_of_load hload
  have hshows := Machine.shows_of_eval h rfl hplaced (Machine.isEntry_self 0 b)
    (Machine.matches_start hinput)
  rwa [Nat.zero_add] at hshows

/-- With more fuel than the block takes steps, the run reports the result of the block. -/
theorem runProgram_of_runs (h : Runs b input n r) (k : Nat) :
    runProgram (program b) input (.fuel (n + (k + 1))) = report n r := by
  have hload := Machine.load_program b input
  obtain ⟨-, hsize, -⟩ := Machine.isPlaced_of_load hload
  have hshows := shows_of_runs hload h
  simp only [runProgram, hload, Machine.Limit.steps]
  match r, hshows with
  | .ok t, ⟨s, hafter, hmatch, hcounter⟩ =>
      have hsteps : s.steps = n := by simpa [Machine.State.start] using Machine.steps_of_after? hafter
      have hcode : (program b).toArray[s.counter]? = none := by
        rw [Array.getElem?_eq_none_iff, hcounter]
        exact Nat.le_of_eq hsize
      rw [Machine.run_of_after? hafter, Machine.run, Machine.step, hcode]
      simp [Machine.Halt.outcome, report, hsteps, hmatch.output_eq]
  | .error (i, fault), ⟨s, hafter, hfault, hcounter⟩ =>
      rw [Machine.run_of_after? hafter, Machine.run, hfault]
      subst hcounter
      cases fault <;> rfl

/-- Whatever the fuel, the run is suspended or the block has come to its result before. -/
theorem after?_or_runs (hload : Machine.load (program b) input = .ok m) (k : Nat) :
    (∃ s, m.after? k .start = some s) ∨ ∃ n r, n < k ∧ Runs b input n r := by
  obtain ⟨hplaced, -, hinput⟩ := Machine.isPlaced_of_load hload
  rcases Machine.after?_or_eval k hplaced (Machine.isEntry_self 0 b)
    (Machine.matches_start hinput) with hafter | ⟨n, r, hn, heval⟩
  · exact .inl hafter
  · rcases Nat.lt_or_eq_of_le hn with hlt | rfl
    · exact .inr ⟨n, r, hlt, heval⟩
    · left
      match r, shows_of_runs hload heval with
      | .ok t, ⟨s, hafter, _⟩ => exact ⟨s, hafter⟩
      | .error e, ⟨s, hafter, _⟩ => exact ⟨s, hafter⟩

/-- A run ends with what the machine reports for the result of the block. -/
theorem endsWith_program_iff {outcome : Outcome Machine.Result} :
    EndsWith (program b) input outcome ↔ ∃ n r, Runs b input n r ∧ outcome = report n r := by
  have hload := Machine.load_program b input
  constructor
  · rintro ⟨hne, fuel, hrun⟩
    rcases after?_or_runs hload fuel with ⟨s, hafter⟩ | ⟨n, r, hn, hruns⟩
    · have hsuspended := Machine.run_eq_suspended hafter
      simp only [runProgram, hload, Machine.Limit.steps, hsuspended] at hrun
      exact (hne hrun.symm).elim
    · obtain ⟨k, rfl⟩ : ∃ k, fuel = n + (k + 1) := ⟨fuel - n - 1, by omega⟩
      rw [runProgram_of_runs hruns k] at hrun
      exact ⟨n, r, hruns, hrun.symm⟩
  · rintro ⟨n, r, hruns, rfl⟩
    exact ⟨report_ne_unfinished n r, _, runProgram_of_runs hruns 0⟩

/-- A run goes on for ever exactly if the block has no result. -/
theorem runsForever_program_iff :
    RunsForever (program b) input ↔ ∀ n r, ¬ Runs b input n r := by
  have hload := Machine.load_program b input
  constructor
  · rintro ⟨m, hm, hforever⟩ n r hruns
    rw [hload] at hm
    cases hm
    have hrun := runProgram_of_runs hruns 0
    obtain ⟨s, hafter⟩ := hforever (n + (0 + 1))
    simp only [runProgram, hload, Machine.Limit.steps, Machine.run_eq_suspended hafter] at hrun
    exact report_ne_unfinished n r hrun.symm
  · intro hnone
    refine ⟨_, hload, fun k => ?_⟩
    rcases after?_or_runs hload k with hafter | ⟨n, r, -, hruns⟩
    · exact hafter
    · exact (hnone n r hruns).elim

theorem endsWith_returned_iff {result : Machine.Result} :
    EndsWith (program b) input (.returned result) ↔
      ∃ t, Runs b input result.steps (.ok t) ∧ t.output = result.output := by
  rw [endsWith_program_iff]
  constructor
  · rintro ⟨n, r, hruns, heq⟩
    match r, hruns with
    | .ok t, hruns =>
        simp only [report, Outcome.returned.injEq] at heq
        exact ⟨t, by rwa [heq], by rw [heq]⟩
    | .error (i, .outOfBounds), _ => simp [report] at heq
    | .error (i, .inputExhausted), _ => simp [report] at heq
  · rintro ⟨t, hruns, houtput⟩
    exact ⟨_, _, hruns, by rw [report, houtput]⟩

theorem endsWith_outOfBounds_iff {site : Option Int} :
    EndsWith (program b) input (.failed (Failure.outOfBounds site .interpreter)) ↔
      ∃ n i, Runs b input n (.error (i, .outOfBounds)) ∧ site = some (i : Int) := by
  rw [endsWith_program_iff]
  constructor
  · rintro ⟨n, r, hruns, heq⟩
    match r, hruns with
    | .ok t, _ => simp [report] at heq
    | .error (i, .outOfBounds), hruns =>
        exact ⟨n, i, hruns, by simpa [report, Failure.outOfBounds] using heq⟩
    | .error (i, .inputExhausted), _ =>
        simp [report, Failure.outOfBounds, Failure.inputExhausted] at heq
  · rintro ⟨n, i, hruns, rfl⟩
    exact ⟨n, _, hruns, rfl⟩

theorem endsWith_inputExhausted_iff {site : Option Int} :
    EndsWith (program b) input (.failed (Failure.inputExhausted site .interpreter)) ↔
      ∃ n i, Runs b input n (.error (i, .inputExhausted)) ∧ site = some (i : Int) := by
  rw [endsWith_program_iff]
  constructor
  · rintro ⟨n, r, hruns, heq⟩
    match r, hruns with
    | .ok t, _ => simp [report] at heq
    | .error (i, .outOfBounds), _ =>
        simp [report, Failure.outOfBounds, Failure.inputExhausted] at heq
    | .error (i, .inputExhausted), hruns =>
        exact ⟨n, i, hruns, by simpa [report, Failure.inputExhausted] using heq⟩
  · rintro ⟨n, i, hruns, rfl⟩
    exact ⟨n, _, hruns, rfl⟩

/-- A program with a jump table is the flat program of one block. Its runs end exactly as that
block does, with the same output, failure and position, and count the steps of the block; they go
on for ever exactly if the block has no result. -/
theorem machine_follows_block {program : List Instruction} {table : JumpTable}
    (h : JumpTable.build program = .ok table) :
    ∃ b, Structured.program b = program ∧ (∀ c, Structured.program c = program → c = b) ∧
      ∀ input : List UInt8,
        (∀ outcome, EndsWith program input outcome ↔
          ∃ n r, Runs b input n r ∧ outcome = report n r) ∧
        (RunsForever program input ↔ ∀ n r, ¬ Runs b input n r) ∧
        ∀ n t, Runs b input n (.ok t) → ∀ stats : Stats, ∃ stats',
          (∀ fuel, n < fuel →
            runCounted program input (.fuel fuel) stats = (.returned t.output, stats')) ∧
          stats'.lookup Stats.stepsKey = some ((stats.lookup Stats.stepsKey).getD 0 + n) ∧
          ∀ key ≠ Stats.stepsKey, stats'.lookup key = stats.lookup key := by
  obtain ⟨b, rfl⟩ := JumpTable.exists_block_of_build h
  refine ⟨b, rfl, fun c hc => program_injective hc, fun input => ?_⟩
  refine ⟨fun outcome => endsWith_program_iff, runsForever_program_iff, ?_⟩
  intro n t hruns stats
  refine ⟨stats.addSteps n, fun fuel hfuel => ?_, ?_, ?_⟩
  · obtain ⟨k, rfl⟩ : ∃ k, fuel = n + (k + 1) := ⟨fuel - n - 1, by omega⟩
    rw [runCounted, runProgram_of_runs hruns k]
    rfl
  · exact Stats.lookup_add_self _ _ _
  · exact fun key hkey => Stats.lookup_add_ne _ _ hkey

/-- Two loops that close one right after the other. -/
theorem machine_follows_block_nested :
    ∃ b, Structured.program b =
        [.read, .loopStart, .loopStart, .print, .addBy (-1), .loopEnd, .loopEnd] ∧
      ∀ input : List UInt8, ∀ outcome,
        EndsWith [.read, .loopStart, .loopStart, .print, .addBy (-1), .loopEnd, .loopEnd]
          input outcome ↔ ∃ n r, Runs b input n r ∧ outcome = report n r := by
  have hbuild : JumpTable.build
      [.read, .loopStart, .loopStart, .print, .addBy (-1), .loopEnd, .loopEnd] =
        .ok #[none, some 6, some 5, none, none, some 2, some 1] := rfl
  obtain ⟨b, hprogram, -, hruns⟩ := machine_follows_block hbuild
  exact ⟨b, hprogram, fun input => (hruns input).1⟩

end Structured

end TapeMachine
