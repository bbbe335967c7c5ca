import TapeMachine.Machine.Unbounded

/-!
# Runs step by step

A run of `n` steps is the first `k` steps followed by the others, and every step is counted. So a
run that can take a number of steps is suspended after them, and with more fuel it goes on there.
Two machines run alike as long as they take the same steps.
-/

namespace TapeMachine

namespace Machine

variable {m : Machine} {s t : State}

theorem after?_add (m : Machine) (n k : Nat) (s : State) :
    m.after? (n + k) s = (m.after? n s).bind (m.after? k) := by
  induction n generalizing s with
  | zero => simp [after?]
  | succ n ih =>
      rw [Nat.succ_add]
      cases hstep : m.step s with
      | next u => simp [after?, hstep, ih]
      | halted u => simp [after?, hstep]
      | faulted fault u => simp [after?, hstep]
      | stuck => simp [after?, hstep]

theorem after?_trans {u : State} {n k : Nat} (h : m.after? n s = some t)
    (h' : m.after? k t = some u) : m.after? (n + k) s = some u := by
  rw [after?_add, h]
  exact h'

theorem after?_succ {n : Nat} (h : m.step s = .next t) : m.after? (n + 1) s = m.after? n t := by
  rw [after?, h]

/-- With fuel for more steps than are known, a run goes on behind those. -/
theorem run_of_after? {n k : Nat} (h : m.after? n s = some t) : m.run (n + k) s = m.run k t := by
  induction n generalizing s with
  | zero =>
      cases h
      rw [Nat.zero_add]
  | succ n ih =>
      rw [Nat.succ_add]
      cases hstep : m.step s with
      | next u =>
          rw [after?_succ hstep] at h
          rw [run, hstep]
          exact ih h
      | halted u => simp [after?, hstep] at h
      | faulted fault u => simp [after?, hstep] at h
      | stuck => simp [after?, hstep] at h

theorem run_eq_suspended {n : Nat} (h : m.after? n s = some t) : m.run n s = .suspended t :=
  run_of_after? (k := 0) h

theorem step_of_after?_succ {n : Nat} (h : m.after? (n + 1) s = some t) :
    ∃ u, m.after? n s = some u ∧ m.step u = .next t := by
  rw [after?_add] at h
  obtain ⟨u, hu, hlast⟩ := Option.bind_eq_some_iff.mp h
  refine ⟨u, hu, ?_⟩
  rw [after?] at hlast
  split at hlast
  next v hv =>
    cases hlast
    exact hv
  next => cases hlast

section Alike

variable {m' : Machine} {n : Nat}

theorem run_congr (h : ∀ k u, k < n → m.after? k s = some u → m'.step u = m.step u) :
    m'.run n s = m.run n s := by
  induction n generalizing s with
  | zero => rfl
  | succ n ih =>
      rw [run, run, h 0 s (Nat.succ_pos n) rfl]
      cases hstep : m.step s with
      | next u =>
          apply ih
          intro k v hk hv
          exact h (k + 1) v (Nat.succ_lt_succ hk) ((after?_succ hstep).trans hv)
      | halted u => rfl
      | faulted fault u => rfl
      | stuck => rfl

theorem after?_congr (h : ∀ k u, k < n → m.after? k s = some u → m'.step u = m.step u) :
    m'.after? n s = m.after? n s := by
  induction n generalizing s with
  | zero => rfl
  | succ n ih =>
      rw [after?, after?, h 0 s (Nat.succ_pos n) rfl]
      cases hstep : m.step s with
      | next u =>
          apply ih
          intro k v hk hv
          exact h (k + 1) v (Nat.succ_lt_succ hk) ((after?_succ hstep).trans hv)
      | halted u => rfl
      | faulted fault u => rfl
      | stuck => rfl

end Alike

theorem steps_of_jump (h : m.jump s = .next t) : t.steps = s.steps + 1 := by
  rw [jump] at h
  split at h
  · cases h
    rfl
  · cases h

theorem steps_of_execute {cell : UInt8} {i : Instruction} (h : m.execute s cell i = .next t) :
    t.steps = s.steps + 1 := by
  cases i with
  | moveBy d =>
      simp only [execute] at h
      split at h <;> cases h
      rfl
  | addBy d =>
      cases h
      rfl
  | print =>
      cases h
      rfl
  | read =>
      simp only [execute] at h
      split at h <;> cases h
      rfl
  | loopStart =>
      simp only [execute] at h
      split at h
      · exact steps_of_jump h
      · cases h
        rfl
  | loopEnd =>
      simp only [execute] at h
      split at h
      · cases h
        rfl
      · exact steps_of_jump h

theorem steps_of_step (h : m.step s = .next t) : t.steps = s.steps + 1 := by
  rw [step.eq_def] at h
  split at h
  · cases h
  · cases h
  · exact steps_of_execute h

/-- The state counts the steps that led to it. -/
theorem steps_of_after? {n : Nat} (h : m.after? n s = some t) : t.steps = s.steps + n := by
  induction n generalizing s with
  | zero =>
      cases h
      rfl
  | succ n ih =>
      cases hstep : m.step s with
      | next u =>
          rw [after?_succ hstep] at h
          rw [ih h, steps_of_step hstep]
          omega
      | halted u => simp [after?, hstep] at h
      | faulted fault u => simp [after?, hstep] at h
      | stuck => simp [after?, hstep] at h

end Machine

end TapeMachine
