import Mathlib.Algebra.Order.Field.Rat
import Mathlib.Algebra.Order.BigOperators.Group.List
import Mathlib.Tactic.Linarith
import TapeMachine.Timer

/-!
# Timers keep time

What a timer shows depends on the actions so far: when the first of them started it, how far the
clock has come since, and whether some action stopped it in between. The flag is set by the action
with which time is up, the time left is computed from the clock, and the two agree unless the timer
was stopped first.
-/

namespace TapeMachine

namespace Timer

namespace Action

variable {T : Type}

def isStart : Action T → Bool
  | .start | .enter => true
  | _ => false

def isStop : Action T → Bool
  | .exit | .cancel => true
  | _ => false

/-- How far the clock moves on. -/
def elapsed : Action ℚ → ℚ
  | .advance dt => dt
  | _ => 0

theorem isStart_of_isStop {a : Action T} (h : a.isStop = true) : a.isStart = false := by
  cases a with
  | exit | cancel => rfl
  | _ => cases h

theorem isStop_of_isStart {a : Action T} (h : a.isStart = true) : a.isStop = false := by
  cases a with
  | start | enter => rfl
  | _ => cases h

theorem elapsed_of_isStart {a : Action ℚ} (h : a.isStart = true) : a.elapsed = 0 := by
  cases a with
  | start | enter => rfl
  | _ => cases h

theorem elapsed_of_isStop {a : Action ℚ} (h : a.isStop = true) : a.elapsed = 0 := by
  cases a with
  | exit | cancel => rfl
  | _ => cases h

end Action

variable {duration clock : ℚ} {actions before : List (Action ℚ)} {t u : Timer ℚ}

/-! ## What the actions say -/

def clockAfter (clock : ℚ) (actions : List (Action ℚ)) : ℚ :=
  clock + (actions.map Action.elapsed).sum

/-- What the clock shows at the first start. -/
def startTime? : ℚ → List (Action ℚ) → Option ℚ
  | _, [] => none
  | clock, a :: rest => if a.isStart then some clock else startTime? (clock + a.elapsed) rest

/-- After these actions the timer is started, its time has passed and nothing has stopped it. -/
def IsUp (duration clock : ℚ) (actions : List (Action ℚ)) : Prop :=
  (∀ a ∈ actions, a.isStop = false) ∧
    ∃ start, startTime? clock actions = some start ∧
      start + duration ≤ clockAfter clock actions

/-- At some moment of the actions time is up. -/
def RunsOut (duration clock : ℚ) (actions : List (Action ℚ)) : Prop :=
  ∃ moment, moment <+: actions ∧ IsUp duration clock moment

theorem clockAfter_nil (clock : ℚ) : clockAfter clock [] = clock := by
  simp [clockAfter]

theorem clockAfter_append (clock : ℚ) (before actions : List (Action ℚ)) :
    clockAfter clock (before ++ actions) = clockAfter (clockAfter clock before) actions := by
  simp [clockAfter, add_assoc]

theorem clockAfter_singleton (clock : ℚ) (a : Action ℚ) :
    clockAfter clock [a] = clock + a.elapsed := by
  simp [clockAfter]

theorem le_clockAfter (h : ∀ a ∈ actions, 0 ≤ a.elapsed) (clock : ℚ) :
    clock ≤ clockAfter clock actions := by
  have hsum : 0 ≤ (actions.map Action.elapsed).sum := by
    refine List.sum_nonneg ?_
    intro x hx
    obtain ⟨a, ha, rfl⟩ := List.mem_map.mp hx
    exact h a ha
  exact le_add_of_nonneg_right hsum

theorem startTime?_append (clock : ℚ) (before actions : List (Action ℚ)) :
    startTime? clock (before ++ actions) =
      (startTime? clock before).or (startTime? (clockAfter clock before) actions) := by
  induction before generalizing clock with
  | nil => simp [startTime?, clockAfter]
  | cons a before ih =>
      rw [List.cons_append, startTime?, startTime?]
      split
      · rfl
      · rw [ih, ← clockAfter_singleton, ← clockAfter_append, List.singleton_append]

theorem startTime?_eq_none_iff (clock : ℚ) (actions : List (Action ℚ)) :
    startTime? clock actions = none ↔ ∀ a ∈ actions, a.isStart = false := by
  induction actions generalizing clock with
  | nil => simp [startTime?]
  | cons a actions ih => cases h : a.isStart <;> simp [startTime?, h, ih]

theorem runsOut_nil : ¬RunsOut duration clock [] := by
  rintro ⟨moment, hprefix, -, start, hstart, -⟩
  obtain rfl := List.prefix_nil.mp hprefix
  cases hstart

theorem runsOut_concat (a : Action ℚ) :
    RunsOut duration clock (actions ++ [a]) ↔
      RunsOut duration clock actions ∨ IsUp duration clock (actions ++ [a]) := by
  constructor
  · rintro ⟨moment, hprefix, hup⟩
    rcases List.prefix_concat_iff.mp hprefix with rfl | hprefix
    · exact .inr hup
    · exact .inl ⟨moment, hprefix, hup⟩
  · rintro (⟨moment, hprefix, hup⟩ | hup)
    · exact ⟨moment, hprefix.trans (List.prefix_append actions [a]), hup⟩
    · exact ⟨_, List.prefix_refl _, hup⟩

/-- When time was up the clock had come as far, and it does not go back. -/
theorem RunsOut.le (h : RunsOut duration clock actions)
    (hforward : ∀ a ∈ actions, 0 ≤ a.elapsed) :
    ∃ start, startTime? clock actions = some start ∧
      start + duration ≤ clockAfter clock actions := by
  obtain ⟨moment, ⟨later, rfl⟩, -, start, hstart, hle⟩ := h
  refine ⟨start, by rw [startTime?_append, hstart, Option.some_or], ?_⟩
  rw [clockAfter_append]
  exact hle.trans (le_clockAfter (fun a ha => hforward a (List.mem_append_right moment ha)) _)

/-! ## What the timer keeps -/

/-- The timer shows what the actions so far say. -/
structure Tracks (duration clock : ℚ) (actions : List (Action ℚ)) (t : Timer ℚ) : Prop where
  duration_eq : t.duration = duration
  clock_eq : t.clock = clockAfter clock actions
  started_eq : t.started = startTime? clock actions
  cancelled_iff : t.cancelled = true ↔ ∃ a ∈ actions, a.isStop = true
  fired_iff : t.fired = true ↔ RunsOut duration clock actions

theorem tracks_new (duration clock : ℚ) : Tracks duration clock [] (new duration clock) where
  duration_eq := rfl
  clock_eq := (clockAfter_nil clock).symm
  started_eq := rfl
  cancelled_iff := by simp [new]
  fired_iff := by simp [new, runsOut_nil]

/-- Settling changes nothing but the flag. -/
theorem settle_eq (t : Timer ℚ) : t.settle = { t with fired := t.settle.fired } := by
  rw [settle]
  split
  · rfl
  · split <;> rfl

theorem fired_settle (t : Timer ℚ) :
    t.settle.fired = true ↔ t.fired = true ∨
      t.cancelled = false ∧ ∃ start, t.started = some start ∧ start + t.duration ≤ t.clock := by
  rw [settle]
  split
  next hstarted => simp [hstarted]
  next start hstarted =>
    rw [hstarted]
    simp only [Option.some.injEq, exists_eq_left']
    by_cases hup : t.cancelled = false ∧ start + t.duration ≤ t.clock
    · simp [hup]
    · have hwait : (!t.cancelled && decide (start + t.duration ≤ t.clock)) = false := by
        simpa using hup
      rw [hwait, or_iff_left hup]
      simp

/-- An action that stops nothing leaves the timer as it should be, but for the flag: settling sets
that. -/
theorem Tracks.settle {a : Action ℚ} (ha : a.isStop = false)
    (hduration : t.duration = duration) (hclock : t.clock = clockAfter clock (actions ++ [a]))
    (hstarted : t.started = startTime? clock (actions ++ [a]))
    (hcancelled : t.cancelled = true ↔ ∃ b ∈ actions, b.isStop = true)
    (hfired : t.fired = true ↔ RunsOut duration clock actions) :
    Tracks duration clock (actions ++ [a]) t.settle where
  duration_eq := (congrArg Timer.duration (settle_eq t)).trans hduration
  clock_eq := (congrArg Timer.clock (settle_eq t)).trans hclock
  started_eq := (congrArg Timer.started (settle_eq t)).trans hstarted
  cancelled_iff := by
    rw [settle_eq, hcancelled]
    simp [or_and_right, exists_or, ha]
  fired_iff := by
    have hnever : t.cancelled = false ↔ ∀ b ∈ actions ++ [a], b.isStop = false := by
      rw [← Bool.not_eq_true, hcancelled]
      simp [or_imp, forall_and, ha]
    rw [fired_settle, hfired, hnever, hstarted, hduration, hclock, runsOut_concat, IsUp]

/-- A stop changes neither the clock nor the start. -/
theorem Tracks.cancel (h : Tracks duration clock actions t) {a : Action ℚ} (ha : a.isStop = true) :
    Tracks duration clock (actions ++ [a]) t.cancel where
  duration_eq := h.duration_eq
  clock_eq := by
    rw [clockAfter_append, clockAfter_singleton, Action.elapsed_of_isStop ha, add_zero]
    exact h.clock_eq
  started_eq := by
    have hnone : startTime? (clockAfter clock actions) [a] = none := by
      simp [startTime?, Action.isStart_of_isStop ha]
    rw [startTime?_append, hnone, Option.or_none]
    exact h.started_eq
  cancelled_iff := ⟨fun _ => ⟨a, by simp, ha⟩, fun _ => rfl⟩
  fired_iff := by
    have hnot : ¬IsUp duration clock (actions ++ [a]) := by
      intro hup
      exact absurd ha (by simp [hup.1 a (by simp)])
    rw [runsOut_concat, or_iff_left hnot]
    exact h.fired_iff

theorem Tracks.begin (h : Tracks duration clock actions t) {a : Action ℚ} (ha : a.isStart = true)
    (hfirst : ∀ b ∈ actions, b.isStart = false) :
    Tracks duration clock (actions ++ [a]) t.start := by
  have hclock : t.clock = clockAfter clock (actions ++ [a]) := by
    rw [clockAfter_append, clockAfter_singleton, Action.elapsed_of_isStart ha, add_zero]
    exact h.clock_eq
  refine Tracks.settle (Action.isStop_of_isStart ha) h.duration_eq hclock ?_ h.cancelled_iff
    h.fired_iff
  rw [startTime?_append, (startTime?_eq_none_iff clock actions).mpr hfirst, Option.none_or,
    ← h.clock_eq]
  simp [startTime?, ha]

theorem Tracks.advance (h : Tracks duration clock actions t) (dt : ℚ) :
    Tracks duration clock (actions ++ [.advance dt]) (t.advance dt) := by
  have hclock : t.clock + dt = clockAfter clock (actions ++ [.advance dt]) := by
    rw [clockAfter_append, clockAfter_singleton, h.clock_eq]
    rfl
  refine Tracks.settle rfl h.duration_eq hclock ?_ h.cancelled_iff h.fired_iff
  have hnone : startTime? (clockAfter clock actions) [.advance dt] = none := rfl
  rw [startTime?_append, hnone, Option.or_none]
  exact h.started_eq

theorem Tracks.apply (h : Tracks duration clock actions t) (a : Action ℚ)
    (hfirst : a.isStart = true → ∀ b ∈ actions, b.isStart = false) :
    Tracks duration clock (actions ++ [a]) (t.apply a) := by
  cases a with
  | start => exact h.begin rfl (hfirst rfl)
  | enter => exact h.begin rfl (hfirst rfl)
  | exit => exact h.cancel rfl
  | cancel => exact h.cancel rfl
  | advance dt => exact h.advance dt

/-- The states of a run show what the actions up to them say. -/
theorem Tracks.states (h : Tracks duration clock before t)
    (honce : (before ++ actions).countP Action.isStart ≤ 1) {k : ℕ}
    (hk : (t.states actions)[k]? = some u) :
    Tracks duration clock (before ++ actions.take (k + 1)) u := by
  induction actions generalizing before t k with
  | nil => simp [Timer.states] at hk
  | cons a actions ih =>
      have hfirst : a.isStart = true → ∀ b ∈ before, b.isStart = false := by
        intro ha b hb
        rw [List.countP_append, List.countP_cons_of_pos ha] at honce
        by_contra hstart
        have hpos : 0 < before.countP Action.isStart :=
          List.countP_pos_iff.mpr ⟨b, hb, by simpa using hstart⟩
        omega
      have hnext := h.apply a hfirst
      rw [Timer.states] at hk
      cases k with
      | zero =>
          obtain rfl := Option.some.inj hk
          simpa using hnext
      | succ k =>
          rw [List.append_cons] at honce
          have hlater := ih hnext honce hk
          rwa [List.append_assoc, List.singleton_append, ← List.take_succ_cons] at hlater

theorem Tracks.exists_started (h : Tracks duration clock actions t)
    (hstarted : ∃ a ∈ actions, a.isStart = true) : ∃ start, t.started = some start := by
  rw [h.started_eq, ← Option.ne_none_iff_exists', ne_eq, startTime?_eq_none_iff]
  obtain ⟨a, ha, hstart⟩ := hstarted
  intro hnone
  rw [hnone a ha] at hstart
  cases hstart

/-! ## The time left -/

theorem left_eq_max {start : ℚ} (h : t.started = some start) :
    t.left = max 0 (t.duration - (t.clock - start)) := by
  simp only [left, h]
  split
  · exact (max_eq_right (le_of_lt ‹_›)).symm
  · exact (max_eq_left (not_lt.mp ‹_›)).symm

theorem left_eq_zero_iff {start : ℚ} (h : t.started = some start) :
    t.left = 0 ↔ start + t.duration ≤ t.clock := by
  rw [left_eq_max h, max_eq_left_iff, sub_nonpos, le_sub_iff_add_le, add_comm]

/-! ## The flag -/

theorem fired_apply (h : t.fired = true) (a : Action ℚ) : (t.apply a).fired = true := by
  cases a with
  | start => exact (fired_settle _).mpr (.inl h)
  | enter => exact (fired_settle _).mpr (.inl h)
  | exit => exact h
  | cancel => exact h
  | advance dt => exact (fired_settle _).mpr (.inl h)

/-- Nothing takes the flag back. -/
theorem fired_of_mem_states (h : t.fired = true) (hu : u ∈ t.states actions) : u.fired = true := by
  induction actions generalizing t with
  | nil => cases hu
  | cons a actions ih =>
      rcases List.mem_cons.mp hu with rfl | hu
      · exact fired_apply h a
      · exact ih (fired_apply h a) hu

theorem length_states (t : Timer ℚ) (actions : List (Action ℚ)) :
    (t.states actions).length = actions.length := by
  induction actions generalizing t with
  | nil => rfl
  | cons a actions ih => rw [states, List.length_cons, List.length_cons, ih]

/-! ## Flag and time left -/

/-- Once time has run out, no time is left. -/
theorem Tracks.left_eq_zero (h : Tracks duration clock actions t)
    (hforward : ∀ a ∈ actions, 0 ≤ a.elapsed) (hfired : t.fired = true) : t.left = 0 := by
  obtain ⟨start, hstart, hle⟩ := (h.fired_iff.mp hfired).le hforward
  rw [left_eq_zero_iff (h.started_eq.trans hstart), h.duration_eq, h.clock_eq]
  exact hle

/-- Unless something stopped the timer, it has fired when no time is left. -/
theorem Tracks.fired (h : Tracks duration clock actions t)
    (hstarted : ∃ a ∈ actions, a.isStart = true) (hnever : ∀ a ∈ actions, a.isStop = false)
    (hleft : t.left = 0) : t.fired = true := by
  obtain ⟨start, hstart⟩ := h.exists_started hstarted
  rw [left_eq_zero_iff hstart, h.duration_eq, h.clock_eq] at hleft
  exact h.fired_iff.mpr
    ⟨actions, List.prefix_refl _, hnever, start, h.started_eq.symm.trans hstart, hleft⟩

/-- The time left does not grow again, whatever happens to a timer that has been started. -/
theorem Tracks.left_le (h : Tracks duration clock before t)
    (h' : Tracks duration clock (before ++ actions) u)
    (hstarted : ∃ a ∈ before, a.isStart = true) (hforward : ∀ a ∈ actions, 0 ≤ a.elapsed) :
    u.left ≤ t.left := by
  obtain ⟨start, hstart⟩ := h.exists_started hstarted
  have hsame : u.started = some start := by
    rw [h'.started_eq, startTime?_append, ← h.started_eq, hstart, Option.some_or]
  have hclock : t.clock ≤ u.clock := by
    rw [h.clock_eq, h'.clock_eq, clockAfter_append]
    exact le_clockAfter hforward _
  rw [left_eq_max hsame, left_eq_max hstart, h.duration_eq, h'.duration_eq]
  exact max_le_max_left 0 (by linarith)

/-- On an exact clock that never goes back, a timer that is started at most once has fired exactly
if its time ran out before anything stopped it, and then for good. No time is left to it then. From
the start on the time left is never negative and never grows, and if it is used up, the timer has
fired or was stopped. -/
theorem flag_agrees_with_time_left (duration clock : ℚ) {actions : List (Action ℚ)}
    (honce : actions.countP Action.isStart ≤ 1)
    (hforward : ∀ dt, .advance dt ∈ actions → 0 ≤ dt) :
    ((new duration clock).states actions).length = actions.length ∧
    ∀ k t, ((new duration clock).states actions)[k]? = some t →
      (t.fired = true ↔ RunsOut duration clock (actions.take (k + 1))) ∧
      (t.fired = true → t.left = 0 ∧ ∀ later, ∀ u ∈ t.states later, u.fired = true) ∧
      ((∃ a ∈ actions.take (k + 1), a.isStart = true) →
        0 ≤ t.left ∧
        ((∀ a ∈ actions.take (k + 1), a.isStop = false) → t.left = 0 → t.fired = true) ∧
        ∀ k' u, k ≤ k' → ((new duration clock).states actions)[k']? = some u →
          u.left ≤ t.left) := by
  have helapsed : ∀ a ∈ actions, 0 ≤ a.elapsed := by
    intro a ha
    cases a with
    | advance dt => exact hforward dt ha
    | _ => exact le_rfl
  have htracks : ∀ {k t}, ((new duration clock).states actions)[k]? = some t →
      Tracks duration clock (actions.take (k + 1)) t := fun hk =>
    (tracks_new duration clock).states honce hk
  refine ⟨length_states _ actions, fun k t hk => ⟨(htracks hk).fired_iff, ?_, ?_⟩⟩
  · intro hfired
    have hsofar : ∀ a ∈ actions.take (k + 1), 0 ≤ a.elapsed := fun a ha =>
      helapsed a (List.mem_of_mem_take ha)
    exact ⟨(htracks hk).left_eq_zero hsofar hfired, fun later u => fired_of_mem_states hfired⟩
  · intro hstarted
    refine ⟨?_, (htracks hk).fired hstarted, ?_⟩
    · obtain ⟨start, hstart⟩ := (htracks hk).exists_started hstarted
      rw [left_eq_max hstart]
      exact le_max_left 0 _
    · intro k' u hle hk'
      obtain ⟨d, hd⟩ := Nat.exists_eq_add_of_le (Nat.succ_le_succ hle)
      have hlater := htracks hk'
      rw [show k' + 1 = k + 1 + d from hd, List.take_add] at hlater
      refine (htracks hk).left_le hlater hstarted fun a ha => ?_
      exact helapsed a (List.mem_of_mem_drop (List.mem_of_mem_take ha))

/-- A timer of two seconds has fired after two and a half, also when its scope is left then. -/
theorem flag_agrees_with_time_left_of_late_exit :
    [.enter, .advance (1 : ℚ), .advance (3 / 2), .exit].countP Action.isStart ≤ 1 ∧
    (∀ dt : ℚ, .advance dt ∈ [Action.enter, .advance 1, .advance (3 / 2), .exit] → 0 ≤ dt) ∧
    ∃ t, ((new (2 : ℚ) 7).states [.enter, .advance 1, .advance (3 / 2), .exit])[3]? = some t ∧
      t.fired = true ∧ t.left = 0 := by
  have honce : [.enter, .advance (1 : ℚ), .advance (3 / 2), .exit].countP Action.isStart ≤ 1 := by
    decide
  have hforward : ∀ dt : ℚ, .advance dt ∈ [Action.enter, .advance 1, .advance (3 / 2), .exit] →
      0 ≤ dt := by
    intro dt hdt
    simp only [List.mem_cons, reduceCtorEq, Action.advance.injEq, List.not_mem_nil, or_false,
      false_or] at hdt
    rcases hdt with rfl | rfl <;> norm_num
  obtain ⟨hlength, hstates⟩ := flag_agrees_with_time_left 2 7 honce hforward
  obtain ⟨t, ht⟩ : ∃ t, ((new (2 : ℚ) 7).states
      [.enter, .advance 1, .advance (3 / 2), .exit])[3]? = some t :=
    ⟨_, List.getElem?_eq_getElem (by rw [hlength]; decide)⟩
  obtain ⟨hfired, hleft, -⟩ := hstates 3 t ht
  have hout : RunsOut 2 7 [.enter, .advance 1, .advance (3 / 2), .exit] := by
    refine ⟨[.enter, .advance 1, .advance (3 / 2)], ⟨[.exit], rfl⟩, by simp [Action.isStop], 7,
      rfl, ?_⟩
    norm_num [clockAfter, Action.elapsed]
  exact ⟨honce, hforward, t, ht, hfired.mpr hout, (hleft (hfired.mpr hout)).1⟩

end Timer

end TapeMachine
