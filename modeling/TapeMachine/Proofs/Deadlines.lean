import Mathlib.Data.ENat.Lattice
import Mathlib.Order.CompletePartialOrder
import TapeMachine.Machine.Polled
import TapeMachine.Proofs.StructuredRuns

/-!
# Deadlines

A token that is expired from its poll `n` on leaves time for `n` instructions. If the run without
a deadline completes fewer, it comes to its outcome before the token is noticed; otherwise it is
broken off behind the last of them. So under a deadline every run ends.
-/

namespace TapeMachine

open Structured

namespace Machine

variable {m : Machine} {s t : State}

/-! ## Polls -/

theorem counter_of_jump (h : m.jump s = .next t) :
    t.counter = (m.jumps.target? s.counter).getD s.counter + 1 := by
  rw [jump] at h
  split at h
  next target htarget =>
    cases h
    simp [htarget, State.advance]
  next => cases h

/-- The counter moves on from where the step has landed. -/
theorem counter_of_step (h : m.step s = .next t) : t.counter = m.landing s + 1 := by
  rw [step.eq_def] at h
  split at h
  next => cases h
  next => cases h
  next i cell hcode hcell =>
    rw [landing, hcode, hcell]
    cases i with
    | moveBy d =>
        simp only [execute] at h
        split at h <;> cases h
        rfl
    | addBy d =>
        cases h
        rfl
    | print =>
        cases h
        rfl
    | read =>
        simp only [execute] at h
        split at h <;> cases h
        rfl
    | loopStart =>
        by_cases hzero : cell = 0
        · rw [execute, if_pos hzero] at h
          simp only [if_pos hzero]
          exact counter_of_jump h
        · rw [execute, if_neg hzero] at h
          cases h
          simp only [if_neg hzero]
          rfl
    | loopEnd =>
        by_cases hzero : cell = 0
        · rw [execute, if_pos hzero] at h
          cases h
          simp only [if_pos hzero]
          rfl
        · rw [execute, if_neg hzero] at h
          simp only [if_neg hzero]
          exact counter_of_jump h

theorem Polled.unique {expired : Nat → Prop} {k : Nat} {x y : Halt}
    (hx : m.Polled expired k s x) (hy : m.Polled expired k s y) : x = y := by
  induction hx with
  | halted hstep => cases hy <;> simp_all
  | faulted hstep => cases hy <;> simp_all
  | stuck hstep => cases hy <;> simp_all
  | broken hstep hpoll => cases hy <;> simp_all
  | resumed hstep hpoll _ ih => cases hy <;> simp_all

/-- A token that is expired from some poll on leaves time for as many steps as there are polls up
to that one. -/
theorem polled_run (m : Machine) (k d : Nat) (s : State) :
    m.Polled (k + d + 1 ≤ ·) k s (m.run (d + 1) s) := by
  rw [run]
  induction d generalizing k s with
  | zero =>
      cases hstep : m.step s with
      | next t => exact .broken hstep (Nat.le_refl _)
      | halted t => exact .halted hstep
      | faulted fault t => exact .faulted hstep
      | stuck => exact .stuck hstep
  | succ d ih =>
      cases hstep : m.step s with
      | next t =>
          have hearly : ¬ k + (d + 1) + 1 ≤ k + 1 := by omega
          have hrest := ih (k + 1) t
          rw [show k + 1 + d + 1 = k + (d + 1) + 1 by omega] at hrest
          exact .resumed hstep hearly hrest
      | halted t => exact .halted hstep
      | faulted fault t => exact .faulted hstep
      | stuck => exact .stuck hstep

theorem polled_iff {n : Nat} (hn : 1 ≤ n) {x : Halt} :
    m.Polled (n ≤ ·) 0 s x ↔ x = m.run n s := by
  have hpolled : m.Polled (n ≤ ·) 0 s (m.run n s) := by
    obtain ⟨d, rfl⟩ : ∃ d, n = d + 1 := ⟨n - 1, by omega⟩
    simpa using m.polled_run 0 d s
  constructor
  · intro hx
    exact hx.unique hpolled
  · rintro rfl
    exact hpolled

/-! ## The number of completed instructions -/

/-- How many instructions the run without a deadline completes, `⊤` if it never ends. -/
noncomputable def completed (m : Machine) : ℕ∞ :=
  sSup {k | ∃ n : ℕ, k = n ∧ ∃ s, m.after? n .start = some s}

theorem exists_after?_of_le {n k : Nat} (h : ∃ t, m.after? n s = some t) (hle : k ≤ n) :
    ∃ t, m.after? k s = some t := by
  obtain ⟨t, ht⟩ := h
  obtain ⟨j, rfl⟩ := Nat.le.dest hle
  rw [after?_add] at ht
  obtain ⟨u, hu, -⟩ := Option.bind_eq_some_iff.mp ht
  exact ⟨u, hu⟩

theorem le_completed_iff (m : Machine) (n : ℕ) :
    (n : ℕ∞) ≤ m.completed ↔ ∃ s, m.after? n .start = some s := by
  constructor
  · intro hle
    by_contra hnone
    have hbelow : ∀ k : ℕ, (∃ s, m.after? k .start = some s) → k < n := by
      intro k hk
      by_contra hge
      exact hnone (exists_after?_of_le hk (Nat.le_of_not_lt hge))
    obtain ⟨j, rfl⟩ : ∃ j, n = j + 1 := by
      have hpos : 0 < n := hbelow 0 ⟨_, rfl⟩
      exact ⟨n - 1, by omega⟩
    have hbound : m.completed ≤ (j : ℕ∞) := by
      refine sSup_le ?_
      rintro _ ⟨k, rfl, hk⟩
      exact_mod_cast Nat.lt_succ_iff.mp (hbelow k hk)
    have hjj : ((j + 1 : ℕ) : ℕ∞) ≤ (j : ℕ∞) := hle.trans hbound
    exact absurd (Nat.cast_le.mp hjj) (Nat.not_succ_le_self j)
  · intro hafter
    exact le_sSup ⟨n, rfl, hafter⟩

theorem completed_lt_iff (m : Machine) (n : ℕ) :
    m.completed < n ↔ ∀ s, m.after? n .start ≠ some s := by
  rw [← not_le, le_completed_iff, not_exists]

theorem completed_eq_top_iff (m : Machine) :
    m.completed = ⊤ ↔ ∀ n, ∃ s, m.after? n .start = some s := by
  constructor
  · intro htop n
    rw [← le_completed_iff, htop]
    exact le_top
  · intro hforever
    refine ENat.eq_top_iff_forall_ge.mpr fun n => ?_
    exact (m.le_completed_iff n).mpr (hforever n)

/-! ## Runs that stop -/

theorem run_eq_of_after?_eq_none {n k : Nat} (h : m.after? n s = none) (hle : n ≤ k) :
    m.run k s = m.run n s := by
  induction n generalizing s k with
  | zero => cases h
  | succ n ih =>
      obtain ⟨k, rfl⟩ : ∃ j, k = j + 1 := ⟨k - 1, by omega⟩
      cases hstep : m.step s with
      | next t =>
          rw [after?_succ hstep] at h
          rw [run, run, hstep]
          exact ih h (Nat.le_of_succ_le_succ hle)
      | halted t => simp [run, hstep]
      | faulted fault t => simp [run, hstep]
      | stuck => simp [run, hstep]

theorem run_ne_suspended {n : Nat} (h : m.after? n s = none) (t : State) :
    m.run n s ≠ .suspended t := by
  induction n generalizing s with
  | zero => cases h
  | succ n ih =>
      rw [run]
      cases hstep : m.step s with
      | next u =>
          rw [after?_succ hstep] at h
          exact ih h
      | halted u => simp
      | faulted fault u => simp
      | stuck => simp

/-- Only a run that is broken off depends on how it was limited. -/
theorem outcome_eq_outcome {x : Halt} (h : ∀ t, x ≠ .suspended t) (limit limit' : Limit) :
    x.outcome limit = x.outcome limit' := by
  cases x with
  | halted t => rfl
  | faulted fault t => rfl
  | suspended t => exact (h t rfl).elim
  | stuck => rfl

end Machine

section Runs

variable {program : List Instruction} {input : List UInt8} {m : Machine}

theorem runProgram_of_load (hload : Machine.load program input = .ok m) (limit : Machine.Limit) :
    runProgram program input limit = (m.run limit.steps .start).outcome limit := by
  rw [runProgram, hload]

theorem steps_poll {n : ℕ} (hn : 1 ≤ n) : (Machine.Limit.poll n).steps = n :=
  Nat.max_eq_left hn

/-- With time for more instructions than it completes, a run comes to one outcome. -/
theorem runProgram_eq_of_completed_lt (hload : Machine.load program input = .ok m)
    {limit limit' : Machine.Limit} (h : m.completed < limit.steps)
    (h' : m.completed < limit'.steps) :
    runProgram program input limit = runProgram program input limit' := by
  wlog hle : limit.steps ≤ limit'.steps generalizing limit limit'
  · exact (this h' h (Nat.le_of_not_le hle)).symm
  have hstopped : m.after? limit.steps .start = none := by
    rw [Option.eq_none_iff_forall_ne_some]
    exact (m.completed_lt_iff _).mp h
  rw [runProgram_of_load hload, runProgram_of_load hload,
    Machine.run_eq_of_after?_eq_none hstopped hle]
  exact Machine.outcome_eq_outcome (Machine.run_ne_suspended hstopped) _ _

theorem runProgram_ne_unfinished (hload : Machine.load program input = .ok m) {fuel : ℕ}
    (h : m.completed < fuel) : runProgram program input (.fuel fuel) ≠ .unfinished := by
  obtain ⟨b, rfl⟩ := Machine.exists_block_of_load hload
  rcases after?_or_runs hload fuel with ⟨s, hafter⟩ | ⟨n, r, hn, hruns⟩
  · exact ((m.completed_lt_iff fuel).mp h s hafter).elim
  · obtain ⟨k, rfl⟩ : ∃ k, fuel = n + (k + 1) := ⟨fuel - n - 1, by omega⟩
    rw [runProgram_of_runs hruns k]
    exact report_ne_unfinished n r

theorem runsForever_iff_completed (hload : Machine.load program input = .ok m) :
    RunsForever program input ↔ m.completed = ⊤ := by
  rw [Machine.completed_eq_top_iff]
  constructor
  · rintro ⟨m', hload', hforever⟩
    rw [hload] at hload'
    cases hload'
    exact hforever
  · intro hforever
    exact ⟨m, hload, hforever⟩

/-- A run for which time is up is broken off where its last instruction has landed. -/
theorem runProgram_of_le_completed (hload : Machine.load program input = .ok m) {n : ℕ}
    (hn : 1 ≤ n) (h : n ≤ m.completed) :
    ∃ s, m.after? (n - 1) .start = some s ∧ runProgram program input (.poll n) =
      .failed (Failure.timeout (some (m.landing s)) .interpreter) := by
  obtain ⟨t, ht⟩ := (m.le_completed_iff n).mp h
  obtain ⟨d, rfl⟩ : ∃ d, n = d + 1 := ⟨n - 1, by omega⟩
  obtain ⟨s, hs, hstep⟩ := Machine.step_of_after?_succ ht
  refine ⟨s, hs, ?_⟩
  have hrun : m.run (d + 1) .start = .suspended t := by
    rw [Machine.run_of_after? hs, Machine.run, hstep]
    rfl
  rw [runProgram_of_load hload, steps_poll hn, hrun, Machine.Halt.outcome,
    Machine.counter_of_step hstep]
  simp

/-- Under a token that is expired from poll `n` on, a run comes to the outcome that it has without
a deadline if it completes fewer than `n` instructions. If it completes `n` or more, it is broken
off where the last of them has landed, and nothing is counted. -/
theorem deadline_transparent {table : JumpTable} (h : JumpTable.build program = .ok table)
    (input : List UInt8) (stats : Stats) {n : ℕ} (hn : 1 ≤ n) :
    ∃ m, Machine.load program input = .ok m ∧
      (∃ x, (∀ y, m.Polled (n ≤ ·) 0 .start y ↔ y = x) ∧
        runProgram program input (.poll n) = x.outcome (.poll n)) ∧
      (m.completed = ⊤ ↔ RunsForever program input) ∧
      (m.completed < n → ∀ fuel : ℕ, m.completed < fuel →
        runProgram program input (.fuel fuel) ≠ .unfinished ∧
        runCounted program input (.poll n) stats = runCounted program input (.fuel fuel) stats) ∧
      (n ≤ m.completed → ∃ s, m.after? (n - 1) .start = some s ∧
        runCounted program input (.poll n) stats =
          (.failed (Failure.timeout (some (m.landing s)) .interpreter), stats)) ∧
      (runCounted program input (.poll n) stats).1 ≠ .unfinished := by
  obtain ⟨m, hload⟩ : ∃ m, Machine.load program input = .ok m :=
    ⟨_, Machine.load_of_build h input⟩
  have hpolled : ∃ x, (∀ y, m.Polled (n ≤ ·) 0 .start y ↔ y = x) ∧
      runProgram program input (.poll n) = x.outcome (.poll n) := by
    refine ⟨m.run n .start, fun y => Machine.polled_iff hn, ?_⟩
    rw [runProgram_of_load hload, steps_poll hn]
  have hearly : m.completed < n → ∀ fuel : ℕ, m.completed < fuel →
      runProgram program input (.fuel fuel) ≠ .unfinished ∧
      runCounted program input (.poll n) stats = runCounted program input (.fuel fuel) stats := by
    intro hlt fuel hfuel
    refine ⟨runProgram_ne_unfinished hload hfuel, ?_⟩
    have hlimit : m.completed < (Machine.Limit.poll n).steps := by rwa [steps_poll hn]
    have hsame : runProgram program input (.poll n) = runProgram program input (.fuel fuel) :=
      runProgram_eq_of_completed_lt hload hlimit hfuel
    rw [runCounted, runCounted, hsame]
  have hlate : n ≤ m.completed → ∃ s, m.after? (n - 1) .start = some s ∧
      runCounted program input (.poll n) stats =
        (.failed (Failure.timeout (some (m.landing s)) .interpreter), stats) := by
    intro hle
    obtain ⟨s, hs, hrun⟩ := runProgram_of_le_completed hload hn hle
    exact ⟨s, hs, by rw [runCounted, hrun]⟩
  refine ⟨m, hload, hpolled, (runsForever_iff_completed hload).symm, hearly, hlate, ?_⟩
  rcases lt_or_ge m.completed n with hlt | hle
  · obtain ⟨hended, hsame⟩ := hearly hlt n hlt
    rw [hsame, runCounted]
    cases hrun : runProgram program input (.fuel n) with
    | returned result => simp
    | failed failure => simp
    | unfinished => exact (hended hrun).elim
  · obtain ⟨s, -, hrun⟩ := hlate hle
    rw [hrun]
    simp

/-- An endless loop is broken off at the bracket that its third instruction jumps back to. -/
theorem deadline_transparent_of_endless_loop :
    JumpTable.build [.addBy 1, .loopStart, .loopEnd] = .ok #[none, some 2, some 1] ∧ 1 ≤ 3 ∧
      runCounted [.addBy 1, .loopStart, .loopEnd] [] (.poll 3) [] =
        (.failed (Failure.timeout (some 1) .interpreter), []) := by
  have hbuild : JumpTable.build [.addBy 1, .loopStart, .loopEnd] =
      .ok #[none, some 2, some 1] := rfl
  obtain ⟨m, hload, -, -, -, hlate, -⟩ := deadline_transparent hbuild [] [] (n := 3) (by decide)
  obtain rfl : m = ⟨#[.addBy 1, .loopStart, .loopEnd], #[none, some 2, some 1], #[]⟩ :=
    (Except.ok.inj hload).symm
  have htwo : Machine.after? ⟨#[.addBy 1, .loopStart, .loopEnd], #[none, some 2, some 1], #[]⟩ 2
      .start = some ⟨(Array.replicate tapeLength 0).setIfInBounds 0 1, 0, 2, 0, #[], 2⟩ := by
    simp [Machine.after?, Machine.step, Machine.execute, Machine.State.start,
      Machine.State.advance, tapeLength]
  have hone : Machine.after? ⟨#[.addBy 1, .loopStart, .loopEnd], #[none, some 2, some 1], #[]⟩ 1
      ⟨(Array.replicate tapeLength 0).setIfInBounds 0 1, 0, 2, 0, #[], 2⟩ =
        some ⟨(Array.replicate tapeLength 0).setIfInBounds 0 1, 0, 2, 0, #[], 3⟩ := by
    simp [Machine.after?, Machine.step, Machine.execute, Machine.jump, JumpTable.target?,
      Machine.State.advance, tapeLength]
  have hthree := Machine.after?_trans htwo hone
  obtain ⟨s, hs, hrun⟩ := hlate ((Machine.le_completed_iff _ 3).mpr ⟨_, hthree⟩)
  obtain rfl := Option.some.inj (hs.symm.trans htwo)
  exact ⟨hbuild, by decide, by
    simpa [Machine.landing, JumpTable.target?, tapeLength] using hrun⟩

end Runs

end TapeMachine
