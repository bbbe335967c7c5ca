import TapeMachine.Machine.Given
import TapeMachine.Proofs.Safety

/-!
# What a run knows of its input

A run looks at its input only where it reads, at one byte after the other. So with more bytes behind
the input it takes the same steps up to the read that found the input at its end, and a program that
does not read has the same run on all inputs that can be encoded. The check for commas tells which
programs read.
-/

namespace TapeMachine

namespace Machine

variable {m : Machine} {program : List Instruction} {a : List UInt8} {s t : State} {n : ℕ}

def withInput (m : Machine) (input : List UInt8) : Machine := { m with input := input.toArray }

theorem withInput_code (m : Machine) (input : List UInt8) : (m.withInput input).code = m.code := rfl

theorem load_withInput (h : load program a = .ok m) (b : List UInt8) :
    load program b = .ok (m.withInput b) := by
  obtain ⟨table, hbuild, rfl⟩ := load_eq_ok_iff.mp h
  exact load_of_build hbuild b

theorem input_of_load (h : load program a = .ok m) : m.input = a.toArray := by
  obtain ⟨table, -, rfl⟩ := load_eq_ok_iff.mp h
  rfl

theorem code_of_load (h : load program a = .ok m) : m.code = program.toArray := by
  obtain ⟨table, -, rfl⟩ := load_eq_ok_iff.mp h
  rfl

/-! ## Steps -/

/-- Of the input, a step sees at most the byte at the cursor, and that only if it reads. -/
theorem step_withInput {b : List UInt8}
    (h : m.code[s.counter]? = some .read → b[s.cursor]? = m.input[s.cursor]?) :
    (m.withInput b).step s = m.step s := by
  rw [step, step, withInput_code]
  cases hi : m.code[s.counter]? with
  | none => rfl
  | some i =>
      cases s.tape[s.pointer]? with
      | none => rfl
      | some cell =>
          cases i with
          | read =>
              have hbyte : (m.withInput b).input[s.cursor]? = m.input[s.cursor]? := by
                rw [← h hi]
                exact List.getElem?_toArray
              simp only [execute, hbyte]
          | moveBy d => rfl
          | addBy d => rfl
          | print => rfl
          | loopStart => rfl
          | loopEnd => rfl

/-- Only a read behind the end of the input notices that there is more of it. -/
theorem step_append (hinput : m.input = a.toArray) (x : List UInt8)
    (h : m.step s ≠ .faulted .inputExhausted s) :
    (m.withInput (a ++ x)).step s = m.step s := by
  cases hcell : s.tape[s.pointer]? with
  | none =>
      rw [step, step, withInput_code, hcell]
      cases m.code[s.counter]? <;> rfl
  | some cell =>
      apply step_withInput
      intro hread
      have hcursor : s.cursor < a.length := by
        by_contra hend
        apply h
        have hnone : m.input[s.cursor]? = none := by
          rw [hinput]
          simpa using hend
        simp [step, hread, hcell, execute, hnone]
      rw [hinput, List.getElem?_append_left hcursor, List.getElem?_toArray]

/-! ## Runs -/

theorem run_append (hinput : m.input = a.toArray) (x : List UInt8)
    (h : ∀ t, m.run n s ≠ .faulted .inputExhausted t) :
    (m.withInput (a ++ x)).run n s = m.run n s := by
  apply run_congr
  intro k u hk hu
  apply step_append hinput x
  intro hstep
  obtain ⟨j, rfl⟩ : ∃ j, n = k + (j + 1) := ⟨n - k - 1, by omega⟩
  apply h u
  rw [run_of_after? hu, run, hstep]

theorem after?_append (hinput : m.input = a.toArray) (x : List UInt8)
    (h : ∃ t, m.after? n s = some t) :
    (m.withInput (a ++ x)).after? n s = m.after? n s := by
  apply after?_congr
  intro k u hk hu
  apply step_append hinput x
  intro hstep
  obtain ⟨v, hv⟩ := exists_after?_of_le h hk
  obtain ⟨u', hu', hnext⟩ := step_of_after?_succ hv
  obtain rfl : u = u' := Option.some.inj (hu.symm.trans hu')
  rw [hstep] at hnext
  cases hnext

theorem completed_eq_of_faulted {fault : Fault} (h : m.after? n .start = some s)
    (hstep : m.step s = .faulted fault t) : m.completed = n := by
  have hstopped : m.after? (n + 1) .start = none := by
    rw [after?_add, h]
    simp [after?, hstep]
  have hlt : m.completed < (n + 1 : ℕ) := by
    rw [completed_lt_iff, hstopped]
    simp
  have hle : (n : ℕ∞) ≤ m.completed := (m.le_completed_iff n).mpr ⟨s, h⟩
  rw [Nat.cast_add, Nat.cast_one] at hlt
  exact le_antisymm (ENat.lt_natCast_add_one_iff.mp hlt) hle

end Machine

variable {program : List Instruction} {a : List UInt8} {m : Machine}

theorem EndsWith.append_input (hload : Machine.load program a = .ok m)
    {outcome : Outcome Machine.Result} (h : EndsWith program a outcome)
    (hread : ∀ site, outcome ≠ .failed (Failure.inputExhausted site .interpreter))
    (x : List UInt8) : EndsWith program (a ++ x) outcome := by
  obtain ⟨hended, fuel, hrun⟩ := h
  rw [runProgram_of_load hload] at hrun
  have hfound : ∀ t, m.run (Machine.Limit.fuel fuel).steps .start ≠
      .faulted .inputExhausted t := by
    intro t ht
    rw [ht] at hrun
    exact hread _ hrun.symm
  refine ⟨hended, fuel, ?_⟩
  rw [runProgram_of_load (Machine.load_withInput hload (a ++ x)),
    Machine.run_append (Machine.input_of_load hload) x hfound, hrun]

theorem RunsForever.append_input (h : RunsForever program a) (x : List UInt8) :
    RunsForever program (a ++ x) := by
  obtain ⟨m, hload, hforever⟩ := h
  refine ⟨_, Machine.load_withInput hload (a ++ x), ?_⟩
  intro n
  rw [Machine.after?_append (Machine.input_of_load hload) x (hforever n)]
  exact hforever n

/-- A run that found the input too short has read all of it and stands at a read. -/
theorem exists_read_of_endsWith {site : Option Int} (hload : Machine.load program a = .ok m)
    (h : EndsWith program a (.failed (Failure.inputExhausted site .interpreter))) :
    ∃ (n : ℕ) (s : Machine.State), m.completed = n ∧ m.after? n .start = some s ∧
      site = some (s.counter : Int) ∧ program[s.counter]? = some .read ∧
      s.cursor = a.length := by
  have hstops := stopsWith_of_endsWith hload h
  generalize houtcome :
    Outcome.failed (Failure.inputExhausted site .interpreter) = outcome at hstops
  cases hstops with
  | returned reached behind => cases houtcome
  | outOfBounds reached code outside =>
      simp [Failure.inputExhausted, Failure.outOfBounds] at houtcome
  | @inputExhausted history s reached code exhausted =>
      have hsafe := Machine.isSafe_of_reaches hload reached
      have hend : s.cursor = m.input.size := hsafe.cursor_eq.trans exhausted
      have hstep : m.step s = .faulted .inputExhausted s := by
        obtain ⟨cell, hcell⟩ := hsafe.exists_cell
        simp [Machine.step, code, hcell, Machine.execute, hend]
      refine ⟨history.length, s, Machine.completed_eq_of_faulted reached.after? hstep,
        reached.after?, ?_, ?_, ?_⟩
      · simpa [Failure.inputExhausted] using houtcome
      · simpa [Machine.code_of_load hload] using code
      · simpa [Machine.input_of_load hload] using hend

/-- A run depends on the bytes that it reads, not on what comes behind them. If it returns or moves
off the tape, it does so with any more input. If it finds the input too short, then with more of it
the run goes through the same states and stands at the same read in the same state. If it never
ends, more input does not end it. -/
theorem run_depends_on_bytes_read {table : JumpTable} (h : JumpTable.build program = .ok table)
    (a x : List UInt8) :
    (∀ result, EndsWith program a (.returned result) →
      EndsWith program (a ++ x) (.returned result)) ∧
    (∀ site, EndsWith program a (.failed (Failure.outOfBounds site .interpreter)) →
      EndsWith program (a ++ x) (.failed (Failure.outOfBounds site .interpreter))) ∧
    (∀ site, EndsWith program a (.failed (Failure.inputExhausted site .interpreter)) →
      ∃ (m m' : Machine) (n : ℕ) (s : Machine.State),
        Machine.load program a = .ok m ∧ Machine.load program (a ++ x) = .ok m' ∧
        m.completed = n ∧ (∀ k ≤ n, m'.after? k .start = m.after? k .start) ∧
        m'.after? n .start = some s ∧ site = some (s.counter : Int) ∧
        program[s.counter]? = some .read ∧ s.cursor = a.length) ∧
    (RunsForever program a → RunsForever program (a ++ x)) := by
  obtain ⟨m, hload⟩ : ∃ m, Machine.load program a = .ok m := ⟨_, Machine.load_of_build h a⟩
  refine ⟨?_, ?_, ?_, fun hforever => hforever.append_input x⟩
  · intro result hends
    apply hends.append_input hload
    simp
  · intro site hends
    apply hends.append_input hload
    simp [Failure.outOfBounds, Failure.inputExhausted]
  · intro site hends
    obtain ⟨n, s, hcompleted, hs, hsite⟩ := exists_read_of_endsWith hload hends
    have hsame : ∀ k ≤ n, (m.withInput (a ++ x)).after? k .start = m.after? k .start := by
      intro k hk
      apply Machine.after?_append (Machine.input_of_load hload) x
      exact Machine.exists_after?_of_le ⟨s, hs⟩ hk
    exact ⟨m, _, n, s, hload, Machine.load_withInput hload (a ++ x), hcompleted, hsame,
      (hsame n le_rfl).trans hs, hsite⟩

open Structured in
/-- A program that copies its input up to a zero, on an input without one and with one. -/
theorem run_depends_on_bytes_read_of_copy :
    JumpTable.build [.read, .loopStart, .print, .read, .loopEnd] =
        .ok #[none, some 4, none, none, some 1] ∧
      EndsWith [.read, .loopStart, .print, .read, .loopEnd] [7, 0, 9] (.returned ⟨[7], 5⟩) ∧
      ∃ m : Machine, Machine.load [.read, .loopStart, .print, .read, .loopEnd] [7, 0] = .ok m ∧
        ∃ n s, m.after? n .start = some s ∧ s.counter = 3 ∧ s.cursor = 1 := by
  have hbuild : JumpTable.build [.read, .loopStart, .print, .read, .loopEnd] =
      .ok #[none, some 4, none, none, some 1] := rfl
  have hblock : [.read, .loopStart, .print, .read, .loopEnd] =
      program (.leaf .read (.loop (.leaf .print (.leaf .read .done)) .done)) := rfl
  have hshort : EndsWith [.read, .loopStart, .print, .read, .loopEnd] [7]
      (.failed (Failure.inputExhausted (some 3) .interpreter)) := by
    rw [hblock, endsWith_inputExhausted_iff]
    exact ⟨_, 3, .leaf rfl (.broken rfl (.leaf rfl (.fail rfl))), rfl⟩
  have hcopied : EndsWith [.read, .loopStart, .print, .read, .loopEnd] [7, 0]
      (.returned ⟨[7], 5⟩) := by
    rw [hblock, endsWith_returned_iff]
    apply Exists.intro
    apply And.intro
    · apply Block.Eval.leaf rfl
      apply Block.Eval.enter (n := 1) (k := 2)
      · rfl
      · exact .leaf rfl (.leaf rfl (.done _))
      · exact .leave rfl (.done _)
    · rfl
  obtain ⟨hreturned, -⟩ := run_depends_on_bytes_read hbuild [7, 0] [9]
  obtain ⟨-, -, hexhausted, -⟩ := run_depends_on_bytes_read hbuild [7] [0]
  obtain ⟨m, m', n, s, hload, hload', hcompleted, hsame, hs, hsite, hread, hcursor⟩ :=
    hexhausted _ hshort
  have hcounter : (3 : ℤ) = s.counter := Option.some.inj hsite
  exact ⟨hbuild, hreturned _ hcopied, m', hload', n, s, hs, by omega, hcursor⟩

/-! ## Programs that do not read -/

namespace Machine

theorem step_of_no_read (hread : Instruction.read ∉ m.code) (b : List UInt8) (s : State) :
    (m.withInput b).step s = m.step s := by
  apply step_withInput
  intro hcode
  exact (hread (Array.mem_of_getElem? hcode)).elim

end Machine

theorem runProgram_of_no_read (hload : Machine.load program a = .ok m) (hread : .read ∉ program)
    (b : List UInt8) (limit : Machine.Limit) :
    runProgram program b limit = runProgram program a limit := by
  have hcode : .read ∉ m.code := by simpa [Machine.code_of_load hload] using hread
  have hrun : (m.withInput b).run limit.steps .start = m.run limit.steps .start :=
    Machine.run_congr fun _ u _ _ => Machine.step_of_no_read hcode b u
  rw [runProgram_of_load hload, runProgram_of_load (Machine.load_withInput hload b), hrun]

theorem RunsForever.change_input (hread : .read ∉ program) (h : RunsForever program a)
    (b : List UInt8) : RunsForever program b := by
  obtain ⟨m, hload, hforever⟩ := h
  have hcode : .read ∉ m.code := by simpa [Machine.code_of_load hload] using hread
  refine ⟨_, Machine.load_withInput hload b, ?_⟩
  intro n
  have hafter : (m.withInput b).after? n .start = m.after? n .start :=
    Machine.after?_congr fun _ u _ _ => Machine.step_of_no_read hcode b u
  rw [hafter]
  exact hforever n

theorem ofChar?_eq_read_iff {c : Char} : Instruction.ofChar? c = some .read ↔ c = ',' := by
  constructor
  · intro h
    unfold Instruction.ofChar? at h
    split at h <;> simp_all
  · rintro rfl
    rfl

theorem readsInput_iff (text : List Char) : readsInput text ↔ .read ∈ condense text := by
  rw [mem_condense_iff rfl, readInstructions, List.mem_filterMap, readsInput,
    List.contains_iff_mem]
  simp [ofChar?_eq_read_iff]

theorem read_mem_of_inputExhausted {limit : Machine.Limit} {failure : Failure} {message : String}
    (hload : Machine.load program a = .ok m)
    (h : runProgram program a limit = .failed failure)
    (hcause : failure.cause = .inputExhausted message) : .read ∈ program := by
  rw [runProgram_of_load hload] at h
  rcases Machine.stopsWith_or_suspended hload limit limit.steps .start with
    hstops | ⟨_, t, -, -, hrun⟩
  · rw [h] at hstops
    cases hstops with
    | outOfBounds reached code outside => simp [Failure.outOfBounds] at hcause
    | inputExhausted reached code exhausted =>
        rw [Machine.code_of_load hload, List.getElem?_toArray] at code
        exact List.mem_of_getElem? code
  · rw [hrun] at h
    cases limit with
    | poll n =>
        cases h
        simp [Failure.timeout] at hcause
    | fuel n => cases h

section Given

variable {table : JumpTable} {b c : Option Input}

theorem runGiven_of_no_read (hbuild : JumpTable.build program = .ok table)
    (hread : .read ∉ program) (hb : IsEncodable b) (hc : IsEncodable c) (limit : Machine.Limit) :
    runGiven program b limit = runGiven program c limit := by
  obtain ⟨x, hx⟩ := exists_bytes_of_isEncodable hb
  obtain ⟨y, hy⟩ := exists_bytes_of_isEncodable hc
  rw [runGiven_of_bytes hx, runGiven_of_bytes hy]
  exact runProgram_of_no_read (Machine.load_of_build hbuild y) hread x limit

theorem RunsForeverGiven.change_input (hread : .read ∉ program) (h : RunsForeverGiven program b)
    (hc : IsEncodable c) : RunsForeverGiven program c := by
  obtain ⟨x, hx, hforever⟩ := h
  obtain ⟨y, hy⟩ := exists_bytes_of_isEncodable hc
  rw [runsForeverGiven_of_bytes hy]
  exact hforever.change_input hread y

theorem read_mem_of_inputExhausted_given {limit : Machine.Limit} {failure : Failure}
    {message : String} (hbuild : JumpTable.build program = .ok table)
    (h : runGiven program b limit = .failed failure)
    (hcause : failure.cause = .inputExhausted message) : .read ∈ program := by
  by_cases hb : IsEncodable b
  · obtain ⟨x, hx⟩ := exists_bytes_of_isEncodable hb
    rw [runGiven_of_bytes hx] at h
    exact read_mem_of_inputExhausted (Machine.load_of_build hbuild x) h hcause
  · obtain ⟨s, first, last, hrefused⟩ := exists_runGiven_refusal hbuild hb
    rw [hrefused] at h
    cases h
    cases hcause

end Given

/-- The check for commas finds exactly the programs that read. One that it does not find can be
loaded, has the same run on every input that can be encoded, and fails before its first instruction
on any other; it never fails because its input is too short. -/
theorem readsInput_sound (source : Content) :
    (readsInput source.units ↔ .read ∈ condense source.units) ∧
    (validate source = .ok () → readsInput source.units = false →
      ∃ program, parseProgram source = .ok program ∧
        (∀ a b : Option Input, IsEncodable a → IsEncodable b →
          (∀ limit, runGiven program a limit = runGiven program b limit) ∧
          (∀ outcome, EndsGiven program a outcome ↔ EndsGiven program b outcome) ∧
          (RunsForeverGiven program a ↔ RunsForeverGiven program b)) ∧
        (∀ a : Option Input, ¬IsEncodable a → ∃ (s : Surrogate) (first last : Nat), ∀ limit,
          runGiven program a limit = .failed (Failure.unencodable s.value first last)) ∧
        ∀ (a : Option Input) limit failure, runGiven program a limit = .failed failure →
          ∀ message, failure.cause ≠ .inputExhausted message) := by
  refine ⟨readsInput_iff source.units, ?_⟩
  intro hvalid hno
  have hread : .read ∉ condense source.units := by
    rw [← readsInput_iff, hno]
    simp
  have hparse : parseProgram source = .ok (condense source.units) := by
    rw [parseProgram, hvalid]
  obtain ⟨table, htable⟩ := exists_table_of_validate hvalid
  refine ⟨_, hparse, ?_, ?_, ?_⟩
  · intro a b ha hb
    have hsame := runGiven_of_no_read htable hread ha hb
    refine ⟨hsame, ?_, ?_⟩
    · intro outcome
      simp only [EndsGiven, hsame]
    · exact ⟨fun h => h.change_input hread hb, fun h => h.change_input hread ha⟩
  · intro a ha
    exact exists_runGiven_refusal htable ha
  · intro a limit failure hfailed message hcause
    exact hread (read_mem_of_inputExhausted_given htable hfailed hcause)

/-- A program without a comma, without an input and on bytes. -/
theorem readsInput_sound_of_output :
    readsInput ['+', '.'] = false ∧ validate (.text ['+', '.']) = .ok () ∧
      ∃ program, parseProgram (.text ['+', '.']) = .ok program ∧
        ∀ limit, runGiven program none limit = runGiven program (some (.bytes [255])) limit := by
  have hno : readsInput ['+', '.'] = false := rfl
  have hvalid : validate (.text ['+', '.']) = .ok () := rfl
  obtain ⟨program, hparse, hsame, -⟩ := (readsInput_sound (.text ['+', '.'])).2 hvalid hno
  exact ⟨hno, hvalid, program, hparse, (hsame none (some (.bytes [255])) trivial trivial).1⟩

open Structured in
/-- The same program on a text that cannot be encoded. -/
theorem input_matters_of_surrogate :
    readsInput ['+', '.'] = false ∧ validate (.text ['+', '.']) = .ok () ∧
      ∃ (program : List Instruction) (s : Surrogate),
        parseProgram (.text ['+', '.']) = .ok program ∧ s.value = 0xdcff ∧
        EndsGiven program none (.returned ⟨[1], 2⟩) ∧
        EndsGiven program (some (.text [.surrogate s]))
          (.failed (Failure.unencodable 0xdcff 0 0)) ∧
        ¬EndsGiven program (some (.text [.surrogate s])) (.returned ⟨[1], 2⟩) := by
  let s : Surrogate := ⟨0xdcff, by decide, by decide⟩
  have hfails : ∀ limit, runGiven [.addBy 1, .print] (some (.text [.surrogate s])) limit =
      .failed (Failure.unencodable 0xdcff 0 0) := fun _ => rfl
  have hblock : [.addBy 1, .print] = program (.leaf (.add 1) (.leaf .print .done)) := rfl
  have hnone : inputBytes none = .ok [] := rfl
  refine ⟨rfl, rfl, [.addBy 1, .print], s, rfl, rfl, ?_, ?_, ?_⟩
  · rw [endsGiven_of_bytes hnone, hblock, endsWith_returned_iff]
    exact ⟨_, .leaf rfl (.leaf rfl (.done _)), rfl⟩
  · exact ⟨by simp, 0, hfails _⟩
  · rintro ⟨-, fuel, hrun⟩
    rw [hfails] at hrun
    cases hrun

end TapeMachine
