import TapeMachine.Machine.Given
import TapeMachine.Proofs.Loops
import TapeMachine.Proofs.Runs
import TapeMachine.Proofs.RustText

/-!
# Counts modulo 256

Only the count of an addition modulo 256 matters: it is all that the generated text tells of the
count, and all that a run makes of it. So the text of a generated program determines its input and,
up to those counts, its instructions, and with these every run.
-/

namespace TapeMachine

namespace Instruction

/-- An addition with its count modulo 256, and any other instruction as it is. -/
def wrapped : Instruction → Instruction
  | .addBy d => .addBy (d % 256)
  | i => i

@[simp] theorem wrapped_loopStart : wrapped .loopStart = .loopStart := rfl

@[simp] theorem wrapped_loopEnd : wrapped .loopEnd = .loopEnd := rfl

end Instruction

theorem ofInt_emod (d : Int) : UInt8.ofInt (d % 256) = UInt8.ofInt d := by
  apply UInt8.toNat_inj.mp
  simp only [UInt8.ofInt, UInt8.toNat_ofNat']
  omega

/-! ## Reading statements back -/

namespace Rust

/-- The instruction that a statement tells of. -/
def Statement.instruction : Statement → Instruction
  | .effect (.forward n) => .moveBy n
  | .effect (.backward n) => .moveBy (-n)
  | .effect (.increase b) => .addBy b.toNat
  | .effect .emit => .print
  | .effect .take => .read
  | .openLoop => .loopStart
  | .closeLoop => .loopEnd

theorem instruction_ofInstruction (i : Instruction) :
    (Statement.ofInstruction i).instruction = i.wrapped := by
  cases i with
  | moveBy d =>
      rw [Statement.ofInstruction]
      split
      next hd =>
        rw [Statement.instruction, Int.natAbs_of_nonneg hd]
        rfl
      next hd =>
        rw [Statement.instruction, Int.ofNat_natAbs_of_nonpos (by omega), Int.neg_neg]
        rfl
  | addBy d =>
      have hbyte : ((UInt8.ofInt d).toNat : Int) = d % 256 := by
        simp only [UInt8.ofInt, UInt8.toNat_ofNat']
        omega
      rw [Statement.ofInstruction, Statement.instruction, hbyte]
      rfl
  | print => rfl
  | read => rfl
  | loopStart => rfl
  | loopEnd => rfl

theorem ofInstruction_wrapped (i : Instruction) :
    Statement.ofInstruction i.wrapped = Statement.ofInstruction i := by
  cases i with
  | addBy d => rw [Instruction.wrapped, Statement.ofInstruction, Statement.ofInstruction, ofInt_emod]
  | moveBy d => rfl
  | print => rfl
  | read => rfl
  | loopStart => rfl
  | loopEnd => rfl

theorem map_ofInstruction_eq_iff (p q : List Instruction) :
    p.map Statement.ofInstruction = q.map Statement.ofInstruction ↔
      p.map Instruction.wrapped = q.map Instruction.wrapped := by
  have hread : ∀ l : List Instruction,
      (l.map Statement.ofInstruction).map Statement.instruction = l.map Instruction.wrapped := by
    intro l
    rw [List.map_map]
    exact List.map_congr_left fun i _ => instruction_ofInstruction i
  have hwrite : ∀ l : List Instruction,
      (l.map Instruction.wrapped).map Statement.ofInstruction = l.map Statement.ofInstruction := by
    intro l
    rw [List.map_map]
    exact List.map_congr_left fun i _ => ofInstruction_wrapped i
  constructor
  · intro h
    rw [← hread p, ← hread q, h]
  · intro h
    rw [← hwrite p, ← hwrite q, h]

theorem code_eq_iff (p q : List Instruction) (a b : List UInt8) :
    code p a = code q b ↔ a = b ∧ p.map Instruction.wrapped = q.map Instruction.wrapped := by
  rw [code, code, Source.text_injective.eq_iff, Source.ofProgram, Source.ofProgram,
    Source.mk.injEq, map_ofInstruction_eq_iff]

end Rust

/-! ## Running wrapped programs -/

open Structured in
theorem JumpTable.linkFrom_wrapped (table : JumpTable) (opened : List Nat) (n : Nat)
    (program : List Instruction) :
    linkFrom table opened n (program.map Instruction.wrapped) =
      linkFrom table opened n program := by
  induction program generalizing table opened n with
  | nil => rfl
  | cons i program ih =>
      rw [List.map_cons]
      rcases eq_action_or_bracket i with ⟨a, rfl⟩ | rfl | rfl
      · obtain ⟨a', ha'⟩ : ∃ a' : Action, a.instruction.wrapped = a'.instruction := by
          cases a with
          | move d => exact ⟨.move d, rfl⟩
          | add d => exact ⟨.add (d % 256), rfl⟩
          | print => exact ⟨.print, rfl⟩
          | read => exact ⟨.read, rfl⟩
        rw [ha', linkFrom_action, linkFrom_action, ih]
      · rw [Instruction.wrapped_loopStart, linkFrom_loopStart, linkFrom_loopStart, ih]
      · cases opened with
        | nil => rfl
        | cons start opened =>
            rw [Instruction.wrapped_loopEnd, linkFrom_loopEnd, linkFrom_loopEnd, ih]

theorem JumpTable.build_wrapped (program : List Instruction) :
    build (program.map Instruction.wrapped) = build program := by
  rw [build, build, linkFrom_wrapped, List.length_map]

namespace Machine

def wrapped (m : Machine) : Machine := { m with code := m.code.map Instruction.wrapped }

variable {m : Machine} {s : State}

theorem execute_wrapped (m : Machine) (s : State) (cell : UInt8) (i : Instruction) :
    m.wrapped.execute s cell i.wrapped = m.execute s cell i := by
  cases i with
  | addBy d => simp only [Instruction.wrapped, execute, ofInt_emod]
  | moveBy d => rfl
  | print => rfl
  | read => rfl
  | loopStart => rfl
  | loopEnd => rfl

theorem step_wrapped (m : Machine) (s : State) : m.wrapped.step s = m.step s := by
  have hcode : m.wrapped.code[s.counter]? = m.code[s.counter]?.map Instruction.wrapped :=
    Array.getElem?_map
  rw [step, step, hcode]
  cases m.code[s.counter]? with
  | none => rfl
  | some i =>
      cases s.tape[s.pointer]? with
      | none => rfl
      | some cell => exact execute_wrapped m s cell i

theorem run_wrapped (m : Machine) (n : Nat) (s : State) : m.wrapped.run n s = m.run n s :=
  run_congr fun _ u _ _ => step_wrapped m u

theorem after?_wrapped (m : Machine) (n : Nat) (s : State) : m.wrapped.after? n s = m.after? n s :=
  after?_congr fun _ u _ _ => step_wrapped m u

theorem load_wrapped (program : List Instruction) (input : List UInt8) :
    load (program.map Instruction.wrapped) input = (load program input).map wrapped := by
  rw [load, load, JumpTable.build_wrapped]
  cases JumpTable.build program with
  | error index => rfl
  | ok table => simp [Except.map, wrapped]

end Machine

theorem runProgram_wrapped (program : List Instruction) (input : List UInt8)
    (limit : Machine.Limit) :
    runProgram (program.map Instruction.wrapped) input limit = runProgram program input limit := by
  rw [runProgram, runProgram, Machine.load_wrapped]
  cases Machine.load program input with
  | error index => rfl
  | ok m =>
      simp only [Except.map]
      rw [Machine.run_wrapped]

theorem runsForever_wrapped (program : List Instruction) (input : List UInt8) :
    RunsForever (program.map Instruction.wrapped) input ↔ RunsForever program input := by
  rw [RunsForever, RunsForever, Machine.load_wrapped]
  cases Machine.load program input with
  | error index => simp [Except.map]
  | ok m => simp [Except.map, Machine.after?_wrapped]

theorem translate_eq_ok_iff {p : List Instruction} {a : Option Input} {text : String} :
    Rust.translate p a = .ok text ↔ ∃ data, inputBytes a = .ok data ∧ Rust.code p data = text := by
  rw [Rust.translate]
  cases inputBytes a <;> simp [Except.map]

/-- The text of a generated program determines the bytes of its input and its instructions up to
multiples of 256 in additions, and nothing more. Programs with one text have the same runs, whether
they are balanced or not. -/
theorem code_determines_runs (p q : List Instruction) (a b : Option Input) :
    ((∃ text, Rust.translate p a = .ok text ∧ Rust.translate q b = .ok text) ↔
      (∃ data, inputBytes a = .ok data ∧ inputBytes b = .ok data) ∧
        p.map Instruction.wrapped = q.map Instruction.wrapped) ∧
    ((∃ text, Rust.translate p a = .ok text ∧ Rust.translate q b = .ok text) →
      (∀ limit, runGiven p a limit = runGiven q b limit) ∧
      (∀ outcome, EndsGiven p a outcome ↔ EndsGiven q b outcome) ∧
      (RunsForeverGiven p a ↔ RunsForeverGiven q b)) := by
  have hdetermines : (∃ text, Rust.translate p a = .ok text ∧ Rust.translate q b = .ok text) ↔
      (∃ data, inputBytes a = .ok data ∧ inputBytes b = .ok data) ∧
        p.map Instruction.wrapped = q.map Instruction.wrapped := by
    simp only [translate_eq_ok_iff]
    constructor
    · rintro ⟨text, ⟨data, ha, rfl⟩, data', hb, hcode⟩
      obtain ⟨rfl, hprogram⟩ := (Rust.code_eq_iff q p _ _).mp hcode
      exact ⟨⟨_, ha, hb⟩, hprogram.symm⟩
    · rintro ⟨⟨data, ha, hb⟩, hprogram⟩
      exact ⟨_, ⟨data, ha, rfl⟩, data, hb, (Rust.code_eq_iff q p _ _).mpr ⟨rfl, hprogram.symm⟩⟩
  refine ⟨hdetermines, ?_⟩
  intro htexts
  obtain ⟨⟨data, ha, hb⟩, hprogram⟩ := hdetermines.mp htexts
  have hruns : ∀ limit, runGiven p a limit = runGiven q b limit := by
    intro limit
    rw [runGiven_of_bytes ha, runGiven_of_bytes hb, ← runProgram_wrapped p,
      ← runProgram_wrapped q, hprogram]
  refine ⟨hruns, ?_, ?_⟩
  · intro outcome
    simp only [EndsGiven, hruns]
  · rw [runsForeverGiven_of_bytes ha, runsForeverGiven_of_bytes hb, ← runsForever_wrapped p,
      ← runsForever_wrapped q, hprogram]

/-- An addition that goes once around. -/
theorem code_determines_runs_of_full_turn :
    (∃ text, Rust.translate [.addBy 257, .print] none = .ok text ∧
        Rust.translate [.addBy 1, .print] none = .ok text) ∧
      ∀ limit, runGiven [.addBy 257, .print] none limit =
        runGiven [.addBy 1, .print] none limit := by
  obtain ⟨hiff, hruns⟩ := code_determines_runs [.addBy 257, .print] [.addBy 1, .print] none none
  have htexts := hiff.mpr ⟨⟨[], rfl, rfl⟩, by decide⟩
  exact ⟨htexts, (hruns htexts).1⟩

end TapeMachine
