import TapeMachine.Machine.Shown
import TapeMachine.Proofs.Numerals
import TapeMachine.Proofs.Safety
import TapeMachine.Session

/-!
# Traces

A watched run does what the run does, whatever it prints. It prints nothing below level two; from
there on it prints one line for every instruction it starts, the failing one included, and the line
can be read back: it tells how many instructions were completed before, which instruction this is
and where it stands, and the pointer and the cell it finds. So two sessions that write the same have
watched runs of the same course.
-/

namespace TapeMachine

/-! ## Labels -/

namespace Instruction

theorem signedCount_injective : Function.Injective signedCount := by
  intro d d' h
  have hhead := congrArg (fun s => s.toList.head?) h
  have hnumber : d.natAbs = d'.natAbs := by
    have hdigits := congrArg (fun s => s.toList.tail) h
    apply eq_of_repr_eq
    apply String.toList_injective
    unfold signedCount at hdigits
    split at hdigits <;> split at hdigits <;> simpa using hdigits
  unfold signedCount at hhead
  split at hhead
  · split at hhead
    · omega
    · simp at hhead
  · split at hhead
    · simp at hhead
    · omega

theorem notMem_signedCount {c : Char} (hc : c.isDigit = false) (hplus : c ≠ '+') (hminus : c ≠ '-')
    (d : Int) : c ∉ (signedCount d).toList := by
  unfold signedCount
  rw [String.toList_append, List.mem_append, not_or]
  refine ⟨?_, notMem_repr hc d.natAbs⟩
  split <;> simpa

theorem label_moveBy (d : Int) : (moveBy d).label = "MoveBy(" ++ signedCount d ++ ")" := rfl

theorem label_addBy (d : Int) : (addBy d).label = "AddBy(" ++ signedCount d ++ ")" := rfl

/-- Labels are words: no blank, no line break and no equality sign is in them. -/
theorem notMem_label {c : Char} (hc : c = ' ' ∨ c = '\n' ∨ c = '=') (i : Instruction) :
    c ∉ i.label.toList := by
  have hcount : ∀ d : Int, c ∉ (signedCount d).toList := by
    intro d
    rcases hc with rfl | rfl | rfl
    · exact notMem_signedCount (by decide) (by decide) (by decide) d
    · exact notMem_signedCount (by decide) (by decide) (by decide) d
    · exact notMem_signedCount (by decide) (by decide) (by decide) d
  cases i with
  | moveBy d =>
      have hd := hcount d
      rw [label_moveBy]
      rcases hc with rfl | rfl | rfl <;> simp [hd]
  | addBy d =>
      have hd := hcount d
      rw [label_addBy]
      rcases hc with rfl | rfl | rfl <;> simp [hd]
  | print => rcases hc with rfl | rfl | rfl <;> simp [label]
  | read => rcases hc with rfl | rfl | rfl <;> simp [label]
  | loopStart => rcases hc with rfl | rfl | rfl <;> simp [label]
  | loopEnd => rcases hc with rfl | rfl | rfl <;> simp [label]

theorem label_injective : Function.Injective label := by
  intro i i' h
  have hlist := congrArg String.toList h
  cases i with
  | moveBy d =>
      cases i' with
      | moveBy d' =>
          rw [label_moveBy, label_moveBy, String.append_left_inj, String.append_right_inj] at h
          rw [signedCount_injective h]
      | _ => simp [label] at hlist
  | addBy d =>
      cases i' with
      | addBy d' =>
          rw [label_addBy, label_addBy, String.append_left_inj, String.append_right_inj] at h
          rw [signedCount_injective h]
      | _ => simp [label] at hlist
  | print => cases i' with
      | print => rfl
      | _ => simp [label] at hlist
  | read => cases i' with
      | read => rfl
      | _ => simp [label] at hlist
  | loopStart => cases i' with
      | loopStart => rfl
      | _ => simp [label] at hlist
  | loopEnd => cases i' with
      | loopEnd => rfl
      | _ => simp [label] at hlist

end Instruction

namespace Machine

/-! ## Lines -/

open Style

/-- A line by its parts, each in front of the character at which it can be cut off. -/
theorem toList_traceLine (s : State) (i : Instruction) (cell : UInt8) :
    (s.traceLine i cell).toList =
      "\x1b[90m".toList ++ ((padLeft 5 s.steps.repr).toList ++ [' '] ++ ':' ::
        ("\x1b[0m  ip=\x1b[97m".toList ++ ((padRight 5 s.counter.repr).toList ++ '\x1b' ::
          ("[0m ".toList ++ ((padRight 14 i.label).toList ++ " dp".toList ++ '=' ::
            ((padRight 5 s.pointer.repr).toList ++ [' '] ++ 'c' ::
              ("ell=".toList ++ (cell.toNat.repr.toList ++ ['\n'])))))))) := by
  simp [State.traceLine, dim, bright, Style.code, reset, String.toList_append]

/-- What a line shows can be read off it. -/
theorem traceLine_inj {s s' : State} {i i' : Instruction} {cell cell' : UInt8}
    (h : s.traceLine i cell = s'.traceLine i' cell') :
    s.steps = s'.steps ∧ s.counter = s'.counter ∧ i = i' ∧ s.pointer = s'.pointer ∧
      cell = cell' := by
  have hblank : ∀ n : Nat, ' ' ∉ n.repr.toList := notMem_repr (by decide)
  have hword : ∀ i : Instruction, ' ' ∉ i.label.toList := Instruction.notMem_label (.inl rfl)
  have hcolon : ∀ n : Nat, ':' ∉ (padLeft 5 n.repr).toList ++ [' '] := fun n => by
    simpa using notMem_padLeft (by decide) (notMem_repr (by decide) n)
  have hescape : ∀ n : Nat, '\x1b' ∉ (padRight 5 n.repr).toList := fun n =>
    notMem_padRight (by decide) (notMem_repr (by decide) n)
  have hequals : ∀ i : Instruction, '=' ∉ (padRight 14 i.label).toList ++ " dp".toList :=
    fun i => by
      simpa using notMem_padRight (by decide) (i.notMem_label (.inr (.inr rfl)))
  have hletter : ∀ n : Nat, 'c' ∉ (padRight 5 n.repr).toList ++ [' '] := fun n => by
    simpa using notMem_padRight (by decide) (notMem_repr (by decide) n)
  have hline := congrArg String.toList h
  rw [toList_traceLine, toList_traceLine] at hline
  obtain ⟨hsteps, hline⟩ := append_cons_inj (hcolon _) (hcolon _) (List.append_cancel_left hline)
  obtain ⟨hcounter, hline⟩ :=
    append_cons_inj (hescape _) (hescape _) (List.append_cancel_left hline)
  obtain ⟨hlabel, hline⟩ := append_cons_inj (hequals i) (hequals i') (List.append_cancel_left hline)
  obtain ⟨hpointer, hline⟩ := append_cons_inj (hletter _) (hletter _) hline
  have hcell := List.append_cancel_right (List.append_cancel_left hline)
  have hsteps' := padLeft_inj (hblank _) (hblank _) (List.append_cancel_right hsteps)
  have hlabel' := padRight_inj (hword i) (hword i') (List.append_cancel_right hlabel)
  have hpointer' := padRight_inj (hblank _) (hblank _) (List.append_cancel_right hpointer)
  exact ⟨eq_of_repr_eq hsteps', eq_of_repr_eq (padRight_inj (hblank _) (hblank _) hcounter),
    Instruction.label_injective hlabel', eq_of_repr_eq hpointer',
    UInt8.toNat_inj.mp (eq_of_repr_eq (String.toList_injective hcell))⟩

/-- A line ends with its only line break. -/
theorem exists_traceLine_eq (s : State) (i : Instruction) (cell : UInt8) :
    ∃ l, (s.traceLine i cell).toList = l ++ ['\n'] ∧ '\n' ∉ l := by
  have hleft : ∀ n : Nat, '\n' ∉ (padLeft 5 n.repr).toList := fun n =>
    notMem_padLeft (by decide) (notMem_repr (by decide) n)
  have hright : ∀ n : Nat, '\n' ∉ (padRight 5 n.repr).toList := fun n =>
    notMem_padRight (by decide) (notMem_repr (by decide) n)
  have hlabel : '\n' ∉ (padRight 14 i.label).toList :=
    notMem_padRight (by decide) (i.notMem_label (.inr (.inl rfl)))
  have hcell : '\n' ∉ cell.toNat.repr.toList := notMem_repr (by decide) _
  rw [toList_traceLine]
  refine ⟨"\x1b[90m".toList ++ ((padLeft 5 s.steps.repr).toList ++ [' '] ++ ':' ::
    ("\x1b[0m  ip=\x1b[97m".toList ++ ((padRight 5 s.counter.repr).toList ++ '\x1b' ::
      ("[0m ".toList ++ ((padRight 14 i.label).toList ++ " dp".toList ++ '=' ::
        ((padRight 5 s.pointer.repr).toList ++ [' '] ++ 'c' ::
          ("ell=".toList ++ cell.toNat.repr.toList))))))), by simp, ?_⟩
  simpa [hleft, hright, hlabel] using hcell

/-! ## Lines of a run -/

variable {m : Machine} {s t : State} {k n : ℕ}

theorem traceLine?_eq_some_iff {line : String} :
    m.traceLine? s = some line ↔ ∃ i cell, m.code[s.counter]? = some i ∧
      s.tape[s.pointer]? = some cell ∧ line = s.traceLine i cell := by
  rw [traceLine?]
  cases m.code[s.counter]? with
  | none => simp
  | some i =>
      cases s.tape[s.pointer]? with
      | none => simp
      | some cell => simp [eq_comm]

/-- An instruction that is completed has its line. -/
theorem exists_traceLine?_of_step (h : m.step s = .next t) :
    ∃ line, m.traceLine? s = some line := by
  rw [step.eq_def] at h
  split at h
  next => cases h
  next => cases h
  next i cell hcode hcell => exact ⟨_, traceLine?_eq_some_iff.mpr ⟨i, cell, hcode, hcell, rfl⟩⟩

/-- Line `k` is that of the state after `k` steps. -/
theorem getElem?_trace (m : Machine) (n : ℕ) (s : State) (k : ℕ) :
    (m.trace n s)[k]? = if k < n then (m.after? k s).bind m.traceLine? else none := by
  induction n generalizing s k with
  | zero => simp [trace]
  | succ n ih =>
      rw [trace]
      cases hstep : m.step s with
      | next t =>
          obtain ⟨line, hline⟩ := exists_traceLine?_of_step hstep
          rw [hline, Option.toList_some, List.singleton_append]
          cases k with
          | zero => simp [after?, hline]
          | succ k =>
              rw [List.getElem?_cons_succ, ih, after?_succ hstep]
              simp only [Nat.succ_lt_succ_iff]
      | _ =>
          cases k with
          | zero => cases hline : m.traceLine? s <;> simp [after?, hline]
          | succ k => cases hline : m.traceLine? s <;> simp [after?, hstep]

theorem trace_of_after? (h : m.after? k s = some t) :
    m.trace (k + n) s = m.trace k s ++ m.trace n t := by
  induction k generalizing s with
  | zero =>
      cases h
      rw [Nat.zero_add, trace, List.nil_append]
  | succ k ih =>
      rw [Nat.succ_add, trace, trace]
      cases hstep : m.step s with
      | next u =>
          rw [after?_succ hstep] at h
          simp only [ih h, List.append_assoc]
      | _ => simp [after?, hstep] at h

/-- Every step that is taken has its line. -/
theorem length_trace (h : m.after? n s = some t) : (m.trace n s).length = n := by
  induction n generalizing s with
  | zero => rfl
  | succ n ih =>
      rw [trace]
      cases hstep : m.step s with
      | next u =>
          obtain ⟨line, hline⟩ := exists_traceLine?_of_step hstep
          rw [after?_succ hstep] at h
          rw [hline, Option.toList_some, List.singleton_append, List.length_cons, ih h]
      | _ => simp [after?, hstep] at h

/-- A run that stops behind `k` steps prints, apart from their lines, at most one more. -/
theorem length_trace_of_stop (h : m.after? k s = some t) (hstop : ∀ u, m.step t ≠ .next u)
    (hk : k < n) : (m.trace n s).length = k + (m.traceLine? t).toList.length := by
  obtain ⟨d, rfl⟩ : ∃ d, n = k + (d + 1) := ⟨n - k - 1, by omega⟩
  have hlast : m.trace (d + 1) t = (m.traceLine? t).toList := by
    rw [trace]
    cases hstep : m.step t with
    | next u => exact (hstop u hstep).elim
    | _ => simp
  rw [trace_of_after? h, hlast, List.length_append, length_trace h]

/-- A run that cannot take all its steps stops at one of them. -/
theorem exists_stop (h : m.after? n s = none) :
    ∃ k < n, ∃ t, m.after? k s = some t ∧ (∀ u, m.step t ≠ .next u) ∧ m.run n s = m.run 1 t := by
  induction n generalizing s with
  | zero => cases h
  | succ n ih =>
      cases hstep : m.step s with
      | next u =>
          rw [after?_succ hstep] at h
          obtain ⟨k, hk, t, ht, hstop, hrun⟩ := ih h
          refine ⟨k + 1, Nat.succ_lt_succ hk, t, by rw [after?_succ hstep, ht], hstop, ?_⟩
          rw [run, hstep]
          exact hrun
      | _ => exact ⟨0, Nat.succ_pos n, s, rfl, by simp [hstep], by simp [run, hstep]⟩

/-- The lines of a run: one for every instruction that is started, in that order. A run that
returns has completed them all, and any other run fails or is broken off at the last of them. -/
structure IsTrace (m : Machine) (limit : Limit) (outcome : Outcome Result)
    (lines : List String) : Prop where
  line_iff : ∀ k line, lines[k]? = some line ↔ ∃ s i cell, m.Starts limit k s i ∧
    s.tape[s.pointer]? = some cell ∧ s.steps = k ∧ line = s.traceLine i cell
  isLine : ∀ line ∈ lines, ∃ l, line.toList = l ++ ['\n'] ∧ '\n' ∉ l
  returned : ∀ result, outcome = .returned result → lines.length = result.steps
  failed : ∀ failure, outcome = .failed failure → ∃ k s i, lines.length = k + 1 ∧
    m.Starts limit k s i ∧ failure.site = some (m.landing s : Int)
  unfinished : outcome = .unfinished → lines.length = limit.steps

/-- Runs with the same lines take the same course: where one starts an instruction, so does the
other, at the same place in the program and in front of the same cell. -/
theorem IsTrace.starts_of_same {m' : Machine} {limit limit' : Limit}
    {outcome outcome' : Outcome Result} {lines : List String} {i : Instruction} {cell : UInt8}
    (htrace : m.IsTrace limit outcome lines) (htrace' : m'.IsTrace limit' outcome' lines)
    (hstarts : m.Starts limit k s i) (hcell : s.tape[s.pointer]? = some cell) :
    ∃ s', m'.Starts limit' k s' i ∧ s'.counter = s.counter ∧ s'.pointer = s.pointer ∧
      s'.tape[s'.pointer]? = some cell := by
  have hsteps : s.steps = k := by simpa [State.start] using steps_of_after? hstarts.after
  have hline : lines[k]? = some (s.traceLine i cell) :=
    (htrace.line_iff k _).mpr ⟨s, i, cell, hstarts, hcell, hsteps, rfl⟩
  obtain ⟨s', i', cell', hstarts', hcell', -, hsame⟩ := (htrace'.line_iff k _).mp hline
  obtain ⟨-, hcounter, rfl, hpointer, rfl⟩ := traceLine_inj hsame
  exact ⟨s', hstarts', hcounter.symm, hpointer.symm, hcell'⟩

section Loaded

variable {program : List Instruction} {input : List UInt8} {limit : Limit}

theorem getElem?_trace_start_iff (m : Machine) (limit : Limit) (k : ℕ) (line : String) :
    (m.trace limit.steps .start)[k]? = some line ↔ ∃ s i cell, m.Starts limit k s i ∧
      s.tape[s.pointer]? = some cell ∧ s.steps = k ∧ line = s.traceLine i cell := by
  rw [getElem?_trace]
  constructor
  · intro h
    split at h
    next hk =>
      obtain ⟨s, hs, hline⟩ := Option.bind_eq_some_iff.mp h
      obtain ⟨i, cell, hcode, hcell, rfl⟩ := traceLine?_eq_some_iff.mp hline
      have hsteps : s.steps = k := by simpa [State.start] using steps_of_after? hs
      exact ⟨s, i, cell, ⟨hk, hs, hcode⟩, hcell, hsteps, rfl⟩
    next => cases h
  · rintro ⟨s, i, cell, ⟨hk, hs, hcode⟩, hcell, -, rfl⟩
    rw [if_pos hk, hs]
    exact traceLine?_eq_some_iff.mpr ⟨i, cell, hcode, hcell, rfl⟩

theorem isLine_of_mem_trace {line : String} (h : line ∈ m.trace limit.steps .start) :
    ∃ l, line.toList = l ++ ['\n'] ∧ '\n' ∉ l := by
  obtain ⟨k, hk⟩ := List.mem_iff_getElem?.mp h
  obtain ⟨s, i, cell, -, -, -, rfl⟩ := (m.getElem?_trace_start_iff limit k line).mp hk
  exact exists_traceLine_eq s i cell

/-- A run that is broken off has a line for every step it took. -/
theorem isTrace_of_suspended (h : m.after? limit.steps .start = some t) :
    m.IsTrace limit ((Halt.suspended t).outcome limit) (m.trace limit.steps .start) where
  line_iff := m.getElem?_trace_start_iff limit
  isLine := fun line => isLine_of_mem_trace
  returned := by
    intro result hresult
    cases limit <;> cases hresult
  failed := by
    intro failure hfailure
    rw [length_trace h]
    cases limit with
    | poll n =>
        obtain ⟨k, hk⟩ : ∃ k, (Limit.poll n).steps = k + 1 :=
          ⟨max n 1 - 1, by simp only [Limit.steps]; omega⟩
        rw [hk] at h
        obtain ⟨s, hs, hstep⟩ := step_of_after?_succ h
        obtain ⟨i, hcode⟩ := code_of_step hstep
        refine ⟨k, s, i, hk, ⟨by omega, hs, hcode⟩, ?_⟩
        cases hfailure
        simp [Failure.timeout, counter_of_step hstep]
    | fuel n => cases hfailure
  unfinished := fun _ => length_trace h

/-- A run that has come to the end of the program has no further line. -/
theorem isTrace_of_halted (h : m.after? k .start = some t) (hk : k < limit.steps)
    (hstep : m.step t = .halted t) (hcode : m.code[t.counter]? = none) :
    m.IsTrace limit ((Halt.halted t).outcome limit) (m.trace limit.steps .start) where
  line_iff := m.getElem?_trace_start_iff limit
  isLine := fun line => isLine_of_mem_trace
  returned := by
    intro result hresult
    have hnone : m.traceLine? t = none := by rw [traceLine?, hcode]
    cases hresult
    rw [length_trace_of_stop h (by simp [hstep]) hk, hnone, steps_of_after? h]
    simp [State.start]
  failed := by
    intro failure hfailure
    cases hfailure
  unfinished := by
    intro hunfinished
    cases hunfinished

/-- A run that fails has one more line, that of the instruction it fails at. -/
theorem isTrace_of_faulted {fault : Fault} {i : Instruction} (h : m.after? k .start = some t)
    (hk : k < limit.steps) (hstep : m.step t = .faulted fault t)
    (hcode : m.code[t.counter]? = some i) (hline : ∃ line, m.traceLine? t = some line)
    (hlanding : m.landing t = t.counter) :
    m.IsTrace limit ((Halt.faulted fault t).outcome limit) (m.trace limit.steps .start) where
  line_iff := m.getElem?_trace_start_iff limit
  isLine := fun line => isLine_of_mem_trace
  returned := by
    intro result hresult
    cases hresult
  failed := by
    intro failure hfailure
    obtain ⟨line, hline⟩ := hline
    refine ⟨k, t, i, ?_, ⟨hk, h, hcode⟩, ?_⟩
    · rw [length_trace_of_stop h (by simp [hstep]) hk, hline]
      rfl
    · cases hfailure
      rw [hlanding]
      cases fault <;> rfl
  unfinished := by
    intro hunfinished
    cases hunfinished

theorem landing_of_moveBy {d : Int} (h : m.code[s.counter]? = some (.moveBy d)) :
    m.landing s = s.counter := by
  simp only [landing, h]

theorem landing_of_read (h : m.code[s.counter]? = some .read) : m.landing s = s.counter := by
  simp only [landing, h]

theorem isTrace_of_load (hload : load program input = .ok m) (limit : Limit) :
    m.IsTrace limit (runProgram program input limit) (m.trace limit.steps .start) := by
  rw [runProgram_of_load hload]
  cases hafter : m.after? limit.steps .start with
  | some t =>
      rw [run_eq_suspended hafter]
      exact isTrace_of_suspended hafter
  | none =>
      obtain ⟨k, hk, t, ht, hstop, hrun⟩ := exists_stop hafter
      obtain ⟨history, -, hreaches⟩ := after?_start_iff.mp ht
      have hsafe := isSafe_of_reaches hload hreaches
      have hsafestep := safeStep_step hload hsafe
      obtain ⟨cell, hcell⟩ := hsafe.exists_cell
      have hline : ∀ {i}, m.code[t.counter]? = some i → ∃ line, m.traceLine? t = some line :=
        fun hcode => ⟨_, traceLine?_eq_some_iff.mpr ⟨_, cell, hcode, hcell, rfl⟩⟩
      rw [hrun, run]
      cases hstep : m.step t with
      | next u => exact (hstop u hstep).elim
      | halted u =>
          rw [hstep] at hsafestep
          cases hsafestep with
          | halted behind => exact isTrace_of_halted ht hk hstep (by simp [behind])
      | faulted fault u =>
          rw [hstep] at hsafestep
          cases hsafestep with
          | outOfBounds code outside =>
              exact isTrace_of_faulted ht hk hstep code (hline code) (landing_of_moveBy code)
          | inputExhausted code exhausted =>
              exact isTrace_of_faulted ht hk hstep code (hline code) (landing_of_read code)
      | stuck => exact (step_ne_stuck hload hsafe hstep).elim

end Loaded

/-! ## Watched runs -/

/-- The loop that prints does what the run does and prints what the trace says. -/
theorem runShown_eq (m : Machine) (verbosity : Int) (n : ℕ) (s : State) (printed : List String) :
    m.runShown verbosity n s printed =
      (m.run n s, printed ++ if 2 ≤ verbosity then m.trace n s else []) := by
  induction n generalizing s printed with
  | zero => simp [runShown, run, trace]
  | succ n ih =>
      rw [runShown, run, trace]
      by_cases hshow : 2 ≤ verbosity
      · cases hstep : m.step s with
        | next t => simp [ih, hshow]
        | _ => simp [hshow]
      · cases hstep : m.step s with
        | next t => simp [ih, hshow]
        | _ => simp [hshow]

end Machine

variable {program : List Instruction} {input : List UInt8} {m : Machine}
  {limit : Machine.Limit} {verbosity : Int} {stats : Stats}

theorem runShown_eq_runCounted (program : List Instruction) (input : List UInt8)
    (limit : Machine.Limit) (verbosity : Int) (stats : Stats) :
    runShown program input limit verbosity stats =
      (runCounted program input limit stats, traceProgram program input limit verbosity) := by
  unfold runShown runCounted runProgram traceProgram
  cases Machine.load program input with
  | error index => rfl
  | ok m =>
      simp only [Machine.runShown_eq, List.nil_append]
      cases (m.run limit.steps .start).outcome limit with
      | returned result => rfl
      | failed failure => rfl
      | unfinished => rfl

theorem isTrace_runShown (hload : Machine.load program input = .ok m) (limit : Machine.Limit)
    (stats : Stats) (hshow : 2 ≤ verbosity) :
    m.IsTrace limit (runProgram program input limit)
      (runShown program input limit verbosity stats).2 := by
  rw [runShown_eq_runCounted, traceProgram, hload]
  simp only [if_pos hshow]
  exact Machine.isTrace_of_load hload limit

/-- Watching changes neither what becomes of a run nor its counters. Below level two nothing is
printed, and from there on the lines are the trace of the run. -/
theorem trace_shows_run {table : JumpTable} (h : JumpTable.build program = .ok table)
    (input : List UInt8) (limit : Machine.Limit) (stats : Stats) :
    ∃ m, Machine.load program input = .ok m ∧ ∀ verbosity : Int, ∃ lines : List String,
      runShown program input limit verbosity stats =
        (runCounted program input limit stats, lines) ∧
      (verbosity < 2 → lines = []) ∧
      (2 ≤ verbosity → m.IsTrace limit (runProgram program input limit) lines) := by
  have hload := Machine.load_of_build h input
  refine ⟨_, hload, fun verbosity => ⟨_, runShown_eq_runCounted program input limit verbosity stats,
    ?_, ?_⟩⟩
  · intro hquiet
    rw [traceProgram, hload]
    exact if_neg (Int.not_le.mpr hquiet)
  · intro hshow
    have htrace := isTrace_runShown hload limit stats hshow
    rwa [runShown_eq_runCounted] at htrace

/-- The last line is that of the move that leaves the tape. -/
theorem trace_shows_run_of_failing_move :
    JumpTable.build [.addBy 1, .loopStart, .moveBy (-1), .loopEnd] =
        .ok #[none, some 3, none, some 1] ∧
      ∃ m, Machine.load [.addBy 1, .loopStart, .moveBy (-1), .loopEnd] [] = .ok m ∧
        m.IsTrace (.poll 9)
          (runProgram [.addBy 1, .loopStart, .moveBy (-1), .loopEnd] [] (.poll 9))
          ["\x1b[90m    0 :\x1b[0m  ip=\x1b[97m0    \x1b[0m AddBy(+1)      dp=0     cell=0\n",
            "\x1b[90m    1 :\x1b[0m  ip=\x1b[97m1    \x1b[0m LoopStart      dp=0     cell=1\n",
            "\x1b[90m    2 :\x1b[0m  ip=\x1b[97m2    \x1b[0m MoveBy(-1)     dp=0     cell=1\n"] := by
  have hbuild : JumpTable.build [.addBy 1, .loopStart, .moveBy (-1), .loopEnd] =
      .ok #[none, some 3, none, some 1] := rfl
  have hlines : (runShown [.addBy 1, .loopStart, .moveBy (-1), .loopEnd] [] (.poll 9) 2 []).2 =
      ["\x1b[90m    0 :\x1b[0m  ip=\x1b[97m0    \x1b[0m AddBy(+1)      dp=0     cell=0\n",
        "\x1b[90m    1 :\x1b[0m  ip=\x1b[97m1    \x1b[0m LoopStart      dp=0     cell=1\n",
        "\x1b[90m    2 :\x1b[0m  ip=\x1b[97m2    \x1b[0m MoveBy(-1)     dp=0     cell=1\n"] := by
    decide +kernel
  obtain ⟨m, hload, hwatched⟩ := trace_shows_run hbuild [] (.poll 9) []
  obtain ⟨lines, hshown, -, htrace⟩ := hwatched 2
  rw [hshown] at hlines
  rw [← hlines]
  exact ⟨hbuild, m, hload, htrace (by decide)⟩

/-! ## Sessions that watch -/

namespace Session

variable {h h' : Host} {settings settings' : Settings} {request request' : Request}
  {program' : List Instruction} {scene : Scene} {data data' : List UInt8}

/-- A session does and prints what the loop does that prints before each step. -/
theorem onMachine_eq_runShown (hfeed : feed program request.input = .ok data) :
    onMachine h settings request program scene =
      let shown := runShown program data (Session.limit h request.timeout) settings.verbosity
        scene.stats
      let scene := scene.write .stdout shown.2
      (shown.1.1, if request.counted then { scene with stats := shown.1.2 } else scene) := by
  simp only [onMachine, watchGiven_of_feed hfeed, runShown_eq_runCounted]

/-- A session that watches a program writes its trace to standard output and nothing else. -/
theorem onMachine_writes_trace {table : JumpTable} (hbuild : JumpTable.build program = .ok table)
    (hdata : inputBytes request.input = .ok data) (hshow : 2 ≤ settings.verbosity)
    (h : Host) (scene : Scene) :
    ∃ m lines, Machine.load program data = .ok m ∧
      (onMachine h settings request program scene).2.writes =
        scene.writes ++ lines.map (⟨.stdout, ·⟩) ∧
      m.IsTrace (Session.limit h request.timeout)
        (runProgram program data (Session.limit h request.timeout)) lines := by
  have hload := Machine.load_of_build hbuild data
  refine ⟨_, _, hload, ?_, isTrace_runShown hload (Session.limit h request.timeout) scene.stats
    hshow⟩
  rw [onMachine_eq_runShown ((feed_of_build hbuild request.input).trans hdata)]
  cases request.counted <;> rfl

/-- What is written tells the course of the run. When two watched runs write the same, the one does
whatever the other does, step by step. -/
theorem starts_of_same_writes {table table' : JumpTable}
    (hbuild : JumpTable.build program = .ok table)
    (hbuild' : JumpTable.build program' = .ok table')
    (hdata : inputBytes request.input = .ok data) (hdata' : inputBytes request'.input = .ok data')
    (hshow : 2 ≤ settings.verbosity) (hshow' : 2 ≤ settings'.verbosity)
    (hwrites : (onMachine h settings request program scene).2.writes =
      (onMachine h' settings' request' program' scene).2.writes) :
    ∃ m m', Machine.load program data = .ok m ∧ Machine.load program' data' = .ok m' ∧
      ∀ k s i cell, m.Starts (Session.limit h request.timeout) k s i →
        s.tape[s.pointer]? = some cell →
        ∃ s', m'.Starts (Session.limit h' request'.timeout) k s' i ∧ s'.counter = s.counter ∧
          s'.pointer = s.pointer ∧ s'.tape[s'.pointer]? = some cell := by
  obtain ⟨m, lines, hload, hlines, htrace⟩ := onMachine_writes_trace hbuild hdata hshow h scene
  obtain ⟨m', lines', hload', hlines', htrace'⟩ :=
    onMachine_writes_trace hbuild' hdata' hshow' h' scene
  rw [hlines, hlines'] at hwrites
  have hsame : lines = lines' := by
    apply List.map_injective_iff.mpr _ (List.append_cancel_left hwrites)
    exact fun _ _ => congrArg Write.text
  subst hsame
  refine ⟨m, m', hload, hload', ?_⟩
  intro k s i cell hstarts hcell
  exact htrace.starts_of_same htrace' hstarts hcell

end Session

end TapeMachine
