import TapeMachine.Proofs.Blame
import TapeMachine.Proofs.Deadlines

/-!
# Safe look-ups

What a loaded machine looks up on its way is there: its pointer stays on the tape, its counter
within the program or right behind it, and every bracket has its partner. The cursor is the number
of reads so far, so a run that stops early has moved off the tape or read past the input.
-/

namespace TapeMachine

namespace Machine

variable {m : Machine} {program history : List Instruction} {input : List UInt8} {s t : State}

/-! ## Reachable states -/

theorem code_of_step (h : m.step s = .next t) : ∃ i, m.code[s.counter]? = some i := by
  cases hcode : m.code[s.counter]? with
  | none => simp [step, hcode] at h
  | some i => exact ⟨i, rfl⟩

theorem Reaches.after? (h : m.Reaches history s) : m.after? history.length .start = some s := by
  induction h with
  | start => rfl
  | @step history s t i before code next ih =>
      rw [List.length_append, List.length_singleton]
      apply after?_trans ih
      rw [after?_succ next]
      rfl

theorem exists_reaches_of_after? {n : ℕ} (hs : m.Reaches history s)
    (h : m.after? n s = some t) :
    ∃ later, later.length = n ∧ m.Reaches (history ++ later) t := by
  induction n generalizing history s with
  | zero =>
      cases h
      exact ⟨[], rfl, by simpa using hs⟩
  | succ n ih =>
      cases hstep : m.step s with
      | next u =>
          obtain ⟨i, hcode⟩ := code_of_step hstep
          rw [after?_succ hstep] at h
          obtain ⟨later, hlength, hreaches⟩ := ih (hs.step hcode hstep) h
          exact ⟨i :: later, by simp [hlength], by simpa using hreaches⟩
      | halted u => simp [Machine.after?, hstep] at h
      | faulted fault u => simp [Machine.after?, hstep] at h
      | stuck => simp [Machine.after?, hstep] at h

theorem after?_start_iff {n : ℕ} :
    m.after? n .start = some s ↔ ∃ history, history.length = n ∧ m.Reaches history s := by
  constructor
  · intro h
    simpa using exists_reaches_of_after? .start h
  · rintro ⟨history, rfl, h⟩
    exact h.after?

theorem isReachable_iff : m.IsReachable s ↔ ∃ history, m.Reaches history s := by
  simp only [IsReachable, after?_start_iff]
  constructor
  · rintro ⟨-, history, -, h⟩
    exact ⟨history, h⟩
  · rintro ⟨history, h⟩
    exact ⟨_, history, rfl, h⟩

/-! ## The invariant -/

/-- The state after the instructions of `history`. Its cells are bytes by their type. -/
structure IsSafe (m : Machine) (history : List Instruction) (s : State) : Prop where
  tape_size : s.tape.size = tapeLength
  pointer_lt : s.pointer < tapeLength
  counter_le : s.counter ≤ m.code.size
  cursor_eq : s.cursor = history.count .read
  cursor_le : s.cursor ≤ m.input.size
  output_size : s.output.size = history.count .print
  steps_eq : s.steps = history.length

theorem isSafe_start (m : Machine) : m.IsSafe [] .start where
  tape_size := by simp [State.start]
  pointer_lt := by decide
  counter_le := Nat.zero_le _
  cursor_eq := rfl
  cursor_le := Nat.zero_le _
  output_size := rfl
  steps_eq := rfl

namespace IsSafe

theorem exists_cell (h : m.IsSafe history s) : ∃ cell, s.tape[s.pointer]? = some cell := by
  have hlt : s.pointer < s.tape.size := h.tape_size.symm ▸ h.pointer_lt
  exact ⟨_, Array.getElem?_eq_getElem hlt⟩

/-- Going on from a safe state, with the counters moved as the instruction says. -/
theorem next (h : m.IsSafe history s) (i : Instruction) (hsize : t.tape.size = s.tape.size)
    (hpointer : t.pointer < tapeLength) (hcounter : t.counter ≤ m.code.size)
    (hcursor : t.cursor = s.cursor + [i].count .read) (hinput : t.cursor ≤ m.input.size)
    (houtput : t.output.size = s.output.size + [i].count .print)
    (hsteps : t.steps = s.steps + 1) : m.IsSafe (history ++ [i]) t where
  tape_size := hsize.trans h.tape_size
  pointer_lt := hpointer
  counter_le := hcounter
  cursor_eq := by rw [hcursor, h.cursor_eq, List.count_append]
  cursor_le := hinput
  output_size := by rw [houtput, h.output_size, List.count_append]
  steps_eq := by rw [hsteps, h.steps_eq, List.length_append, List.length_singleton]

/-- Only the counter moves. -/
theorem advance (h : m.IsSafe history s) {i : Instruction} (hread : i ≠ .read)
    (hprint : i ≠ .print) {counter : ℕ} (hcounter : counter < m.code.size) :
    m.IsSafe (history ++ [i]) (s.advance counter) := by
  have hcursor : (s.advance counter).cursor = s.cursor + [i].count .read := by
    simp [State.advance, hread]
  have houtput : (s.advance counter).output.size = s.output.size + [i].count .print := by
    simp [State.advance, hprint]
  exact h.next i rfl h.pointer_lt hcounter hcursor h.cursor_le houtput rfl

end IsSafe

/-! ## Steps -/

/-- What a step from a safe state can come to. -/
inductive SafeStep (m : Machine) (history : List Instruction) (s : State) : Step → Prop where
  | next {i : Instruction} {t : State} (code : m.code[s.counter]? = some i)
      (safe : m.IsSafe (history ++ [i]) t) : SafeStep m history s (.next t)
  | halted (behind : s.counter = m.code.size) : SafeStep m history s (.halted s)
  | outOfBounds {d : Int} (code : m.code[s.counter]? = some (.moveBy d))
      (outside : ¬(0 ≤ (s.pointer : Int) + d ∧ (s.pointer : Int) + d < tapeLength)) :
      SafeStep m history s (.faulted .outOfBounds s)
  | inputExhausted (code : m.code[s.counter]? = some .read) (exhausted : s.cursor = m.input.size) :
      SafeStep m history s (.faulted .inputExhausted s)

theorem safeStep_jump (hload : load program input = .ok m) (h : m.IsSafe history s)
    {i : Instruction} (hcode : m.code[s.counter]? = some i) (hbracket : i.opens?.isSome) :
    m.SafeStep history s (m.jump s) := by
  obtain ⟨target, hlt, htarget⟩ := exists_target_lt_of_load hload hcode hbracket
  have hread : i ≠ .read := by
    rintro rfl
    cases hbracket
  have hprint : i ≠ .print := by
    rintro rfl
    cases hbracket
  rw [jump, htarget]
  exact .next hcode (h.advance hread hprint hlt)

theorem safeStep_step (hload : load program input = .ok m) (h : m.IsSafe history s) :
    m.SafeStep history s (m.step s) := by
  obtain ⟨cell, hcell⟩ := h.exists_cell
  cases hcode : m.code[s.counter]? with
  | none =>
      have hle : m.code.size ≤ s.counter := Array.getElem?_eq_none_iff.mp hcode
      rw [step, hcode]
      exact .halted (Nat.le_antisymm h.counter_le hle)
  | some i =>
      have hlt : s.counter < m.code.size := (Array.getElem?_eq_some_iff.mp hcode).1
      rw [step, hcode, hcell]
      cases i with
      | moveBy d =>
          by_cases hinside : 0 ≤ (s.pointer : Int) + d ∧ (s.pointer : Int) + d < tapeLength
          · have hpointer : ((s.pointer : Int) + d).toNat < tapeLength :=
              (Int.toNat_lt hinside.1).mpr hinside.2
            simp only [execute, if_pos hinside]
            exact .next hcode (h.next _ rfl hpointer hlt rfl h.cursor_le rfl rfl)
          · simp only [execute, if_neg hinside]
            exact .outOfBounds hcode hinside
      | addBy d =>
          refine .next hcode (h.next _ ?_ h.pointer_lt hlt rfl h.cursor_le rfl rfl)
          simp [State.advance]
      | print =>
          refine .next hcode (h.next _ rfl h.pointer_lt hlt rfl h.cursor_le ?_ rfl)
          simp [State.advance]
      | read =>
          simp only [execute]
          cases hinput : m.input[s.cursor]? with
          | none =>
              have hle : m.input.size ≤ s.cursor := Array.getElem?_eq_none_iff.mp hinput
              exact .inputExhausted hcode (Nat.le_antisymm h.cursor_le hle)
          | some b =>
              have hcursor : s.cursor < m.input.size := (Array.getElem?_eq_some_iff.mp hinput).1
              refine .next hcode (h.next _ ?_ h.pointer_lt hlt rfl hcursor rfl rfl)
              simp [State.advance]
      | loopStart =>
          simp only [execute]
          split
          · exact safeStep_jump hload h hcode rfl
          · exact .next hcode (h.advance (by simp) (by simp) hlt)
      | loopEnd =>
          simp only [execute]
          split
          · exact .next hcode (h.advance (by simp) (by simp) hlt)
          · exact safeStep_jump hload h hcode rfl

theorem isSafe_of_reaches (hload : load program input = .ok m) (h : m.Reaches history s) :
    m.IsSafe history s := by
  induction h with
  | start => exact isSafe_start m
  | @step history s t i before code next ih =>
      have hstep := safeStep_step hload ih
      rw [next] at hstep
      cases hstep with
      | next code' safe =>
          obtain rfl := Option.some.inj (code.symm.trans code')
          exact safe

theorem step_ne_stuck (hload : load program input = .ok m) (h : m.IsSafe history s) :
    m.step s ≠ .stuck := by
  intro hstuck
  have hstep := safeStep_step hload h
  rw [hstuck] at hstep
  cases hstep

/-- The look-ups that a step from the state makes. -/
structure IsCovered (m : Machine) (s : State) : Prop where
  code : s.counter < m.code.size → ∃ i, m.code[s.counter]? = some i
  tape : ∃ cell, s.tape[s.pointer]? = some cell
  jumps : ∀ i, m.code[s.counter]? = some i → i.opens?.isSome →
    ∃ target < m.code.size, m.jumps.target? s.counter = some target
  step : m.step s ≠ .stuck

theorem isCovered (hload : load program input = .ok m) (h : m.IsSafe history s) :
    m.IsCovered s where
  code := fun hlt => ⟨_, Array.getElem?_eq_getElem hlt⟩
  tape := h.exists_cell
  jumps := fun _ => exists_target_lt_of_load hload
  step := step_ne_stuck hload h

/-! ## Runs -/

/-- The outcomes of a run that is not broken off. -/
inductive StopsWith (m : Machine) : Outcome Result → Prop where
  | returned {history : List Instruction} {s : State} (reached : m.Reaches history s)
      (behind : s.counter = m.code.size) :
      StopsWith m (.returned ⟨s.output.toList, history.length⟩)
  | outOfBounds {history : List Instruction} {s : State} {d : Int}
      (reached : m.Reaches history s) (code : m.code[s.counter]? = some (.moveBy d))
      (outside : ¬(0 ≤ (s.pointer : Int) + d ∧ (s.pointer : Int) + d < tapeLength)) :
      StopsWith m (.failed (Failure.outOfBounds (some s.counter) .interpreter))
  | inputExhausted {history : List Instruction} {s : State} (reached : m.Reaches history s)
      (code : m.code[s.counter]? = some .read) (exhausted : history.count .read = m.input.size) :
      StopsWith m (.failed (Failure.inputExhausted (some s.counter) .interpreter))

/-- From a state that was reached, a run is suspended or stops with one of those outcomes. -/
theorem stopsWith_or_suspended (hload : load program input = .ok m) (limit : Limit) (n : ℕ)
    (h : m.Reaches history s) :
    m.StopsWith ((m.run n s).outcome limit) ∨
      ∃ later t, later.length = history.length + n ∧ m.Reaches later t ∧
        m.run n s = .suspended t := by
  induction n generalizing history s with
  | zero => exact .inr ⟨history, s, rfl, h, rfl⟩
  | succ n ih =>
      have hsafe := isSafe_of_reaches hload h
      have hstep := safeStep_step hload hsafe
      rw [run]
      cases hnext : m.step s with
      | next t =>
          obtain ⟨i, hcode⟩ := code_of_step hnext
          rcases ih (h.step hcode hnext) with hstops | ⟨later, u, hlength, hreaches, hrun⟩
          · exact .inl hstops
          · refine .inr ⟨later, u, ?_, hreaches, hrun⟩
            rw [hlength, List.length_append, List.length_singleton]
            omega
      | halted t =>
          rw [hnext] at hstep
          cases hstep with
          | halted behind =>
              left
              rw [Halt.outcome, hsafe.steps_eq]
              exact .returned h behind
      | faulted fault t =>
          rw [hnext] at hstep
          cases hstep with
          | outOfBounds code outside => exact .inl (.outOfBounds h code outside)
          | inputExhausted code exhausted =>
              exact .inl (.inputExhausted h code (hsafe.cursor_eq.symm.trans exhausted))
      | stuck => exact (step_ne_stuck hload hsafe hnext).elim

end Machine

variable {program : List Instruction} {input : List UInt8} {m : Machine}

theorem stopsWith_of_endsWith (hload : Machine.load program input = .ok m)
    {outcome : Outcome Machine.Result} (h : EndsWith program input outcome) :
    m.StopsWith outcome := by
  obtain ⟨hended, fuel, rfl⟩ := h
  rw [runProgram_of_load hload] at hended ⊢
  rcases Machine.stopsWith_or_suspended hload (.fuel fuel) fuel .start with
    hstops | ⟨_, t, -, -, hrun⟩
  · exact hstops
  · have hsuspended : m.run (Machine.Limit.fuel fuel).steps .start = .suspended t := hrun
    rw [hsuspended] at hended
    exact (hended rfl).elim

theorem ends_or_runsForever (hload : Machine.load program input = .ok m) :
    (∃ outcome, EndsWith program input outcome) ∨ RunsForever program input := by
  rcases eq_or_ne m.completed ⊤ with htop | hne
  · exact .inr ((runsForever_iff_completed hload).mpr htop)
  · obtain ⟨k, hk⟩ := ENat.ne_top_iff_exists.mp hne
    have hlt : m.completed < (k + 1 : ℕ) := by
      rw [← hk]
      exact_mod_cast Nat.lt_succ_self k
    exact .inl ⟨_, runProgram_ne_unfinished hload hlt, k + 1, rfl⟩

theorem stopsWith_or_timeout (hload : Machine.load program input = .ok m) (n : ℕ) :
    m.StopsWith (runProgram program input (.poll n)) ∨
      ∃ position, runProgram program input (.poll n) =
        .failed (Failure.timeout position .interpreter) := by
  rw [runProgram_of_load hload]
  rcases Machine.stopsWith_or_suspended hload (.poll n) (Machine.Limit.poll n).steps .start with
    hstops | ⟨_, t, -, -, hrun⟩
  · exact .inl hstops
  · rw [hrun]
    exact .inr ⟨_, rfl⟩

/-- In every state that a run goes through the pointer, the counter and the cursor are in range, the
cursor and the output tell how many reads and prints there were, and all look-ups succeed. So a run
returns, or it fails at a move off the tape or at a read behind the input, or it goes on for ever;
under a deadline it may also be broken off. -/
theorem reachable_states_safe {table : JumpTable} (h : JumpTable.build program = .ok table)
    (input : List UInt8) :
    ∃ m : Machine, Machine.load program input = .ok m ∧
      m.code = program.toArray ∧ m.jumps = table ∧ m.input = input.toArray ∧
      (∀ s, m.IsReachable s ↔ ∃ history, m.Reaches history s) ∧
      (∀ history s, m.Reaches history s → m.IsSafe history s ∧ m.IsCovered s) ∧
      ((∃ outcome, EndsWith program input outcome) ∨ RunsForever program input) ∧
      (∀ outcome, EndsWith program input outcome → m.StopsWith outcome) ∧
      ∀ n, m.StopsWith (runProgram program input (.poll n)) ∨
        ∃ position, runProgram program input (.poll n) =
          .failed (Failure.timeout position .interpreter) := by
  have hload := Machine.load_of_build h input
  refine ⟨_, hload, rfl, rfl, rfl, fun s => Machine.isReachable_iff, ?_,
    ends_or_runsForever hload, fun outcome => stopsWith_of_endsWith hload,
    stopsWith_or_timeout hload⟩
  intro history s hreaches
  have hsafe := Machine.isSafe_of_reaches hload hreaches
  exact ⟨hsafe, Machine.isCovered hload hsafe⟩

/-- A loop around a move that is longer than the tape. -/
theorem reachable_states_safe_of_long_move :
    JumpTable.build [.read, .loopStart, .moveBy (-40000), .loopEnd] =
        .ok #[none, some 3, none, some 1] ∧
      ∃ m : Machine, Machine.load [.read, .loopStart, .moveBy (-40000), .loopEnd] [7] = .ok m ∧
        ∀ history s, m.Reaches history s → m.IsSafe history s ∧ m.IsCovered s := by
  have hbuild : JumpTable.build [.read, .loopStart, .moveBy (-40000), .loopEnd] =
      .ok #[none, some 3, none, some 1] := rfl
  obtain ⟨m, hload, -, -, -, -, hsafe, -⟩ := reachable_states_safe hbuild [7]
  exact ⟨hbuild, m, hload, hsafe⟩

end TapeMachine
