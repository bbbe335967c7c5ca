import TapeMachine.Compiled.Status
import TapeMachine.Proofs.Folding
import TapeMachine.Proofs.RustText
import TapeMachine.Proofs.Weights
import TapeMachine.Rust.Meaning

/-!
# Both backends agree

The generated statements do to a memory what the actions do to a store. Where a move leaves the
tape, the word that wraps around is no index of the tape either, since no count of a condensed
text is as large as what is left of a word beyond the tape. So the block of the program and the
block of its statements run in lockstep, and what the exit of the generated program means is what
the machine reports.
-/

namespace TapeMachine

open Structured

/-! ## Words -/

namespace Rust

/-- The word to which a move by `d` takes the pointer. -/
def target (pointer : UInt64) (d : Int) : UInt64 :=
  if 0 ≤ d then pointer + UInt64.ofNat d.natAbs else pointer - UInt64.ofNat d.natAbs

/-- From a pointer on the tape, a move that is not too long ends where it should or, wrapped around
or not, outside the tape. -/
theorem toNat_target {pointer : UInt64} {d : Int} (hpointer : pointer.toNat < tapeLength)
    (hd : d.natAbs ≤ UInt64.size - tapeLength) :
    (0 ≤ (pointer.toNat : Int) + d ∧ (pointer.toNat : Int) + d < tapeLength ∧
      (target pointer d).toNat = ((pointer.toNat : Int) + d).toNat) ∨
    (¬ (0 ≤ (pointer.toNat : Int) + d ∧ (pointer.toNat : Int) + d < tapeLength) ∧
      tapeLength ≤ (target pointer d).toNat) := by
  have hlength : tapeLength = 30000 := rfl
  have hsize : UInt64.size = 18446744073709551616 := rfl
  have hcount : (UInt64.ofNat d.natAbs).toNat = d.natAbs := by
    rw [UInt64.toNat_ofNat']
    exact Nat.mod_eq_of_lt (by omega)
  by_cases hsign : 0 ≤ d
  · have htarget : (target pointer d).toNat = pointer.toNat + d.natAbs := by
      rw [target, if_pos hsign, UInt64.toNat_add, hcount]
      exact Nat.mod_eq_of_lt (by omega)
    rw [htarget]
    omega
  · by_cases hleft : d.natAbs ≤ pointer.toNat
    · have htarget : (target pointer d).toNat = pointer.toNat - d.natAbs := by
        rw [target, if_neg hsign, UInt64.toNat_sub, hcount]
        omega
      rw [htarget]
      omega
    · have htarget : (target pointer d).toNat = UInt64.size - d.natAbs + pointer.toNat := by
        rw [target, if_neg hsign, UInt64.toNat_sub, hcount]
        exact Nat.mod_eq_of_lt (by omega)
      rw [htarget]
      omega

end Rust

/-! ## Stores and memories -/

namespace Structured

/-- The statement for an action. -/
def Action.effect : Action → Rust.Effect
  | .move d => if 0 ≤ d then .forward d.natAbs else .backward d.natAbs
  | .add d => .increase (UInt8.ofInt d)
  | .print => .emit
  | .read => .take

theorem ofInstruction_instruction (a : Action) :
    Rust.Statement.ofInstruction a.instruction = .effect a.effect := by
  cases a <;> rfl

/-- How a generated program stops where the machine fails. -/
def stop : Machine.Fault → Rust.Stop
  | .outOfBounds => .panic
  | .inputExhausted => .exit inputExhaustedStatus

/-- A memory that holds what the store holds, its pointer being on the tape. -/
structure Mirrors (input : List UInt8) (t : Store) (m : Rust.Memory) : Prop where
  pointer_eq : t.pointer = m.pointer.toNat
  pointer_lt : m.pointer.toNat < tapeLength
  cells_eq : t.cells = m.cells
  unread_eq : t.unread = input.drop m.taken
  output_eq : t.output = m.buffer

variable {input : List UInt8} {t : Store} {m : Rust.Memory}

theorem mirrors_fresh (input : List UInt8) : Mirrors input (Store.fresh input) .initial where
  pointer_eq := rfl
  pointer_lt := by decide
  cells_eq := rfl
  unread_eq := rfl
  output_eq := rfl

namespace Mirrors

theorem cell?_eq (h : Mirrors input t m) : m.cell? = .ok t.cell := by
  rw [Rust.Memory.cell?, if_pos h.pointer_lt, Store.cell, h.cells_eq, h.pointer_eq]

theorem setCell (h : Mirrors input t m) (x : UInt8) :
    Mirrors input (t.setCell x) (m.setCell x) where
  pointer_eq := h.pointer_eq
  pointer_lt := h.pointer_lt
  cells_eq := by
    simp only [Store.setCell, Rust.Memory.setCell, h.cells_eq, h.pointer_eq]
  unread_eq := h.unread_eq
  output_eq := h.output_eq

theorem isOpen_eq (h : Mirrors input t m) : m.isOpen = t.isOpen := by
  rw [Store.isOpen, Rust.Memory.isOpen, h.cell?_eq]
  rfl

theorem agree_move (h : Mirrors input t m) {d : Int} (hd : d.natAbs ≤ UInt64.size - tapeLength) :
    Block.Agree (Mirrors input) (fun fault s => s = stop fault)
      ((Action.move d).apply t) ((Action.move d).effect.apply input m) := by
  have heffect : (Action.move d).effect.apply input m = m.goTo (Rust.target m.pointer d) := by
    simp only [Action.effect, Rust.target]
    split_ifs <;> rfl
  rw [heffect, Action.apply, Rust.Memory.goTo, h.pointer_eq]
  rcases Rust.toNat_target h.pointer_lt hd with ⟨hlow, hhigh, htarget⟩ | ⟨hout, htarget⟩
  · have hcell : (Rust.target m.pointer d).toNat < tapeLength := by omega
    rw [if_pos ⟨hlow, hhigh⟩]
    simp only [Rust.Memory.cell?, if_pos hcell]
    exact .ok ⟨htarget.symm, hcell, h.cells_eq, h.unread_eq, h.output_eq⟩
  · have hcell : ¬ (Rust.target m.pointer d).toNat < tapeLength := Nat.not_lt.mpr htarget
    rw [if_neg hout]
    simp only [Rust.Memory.cell?, if_neg hcell]
    exact .error rfl

theorem agree_read (h : Mirrors input t m) :
    Block.Agree (Mirrors input) (fun fault s => s = stop fault)
      (Action.read.apply t) (Action.read.effect.apply input m) := by
  simp only [Action.effect, Action.apply, Rust.Effect.apply]
  cases hnext : input[m.taken]? with
  | none =>
      have hunread : t.unread = [] := by
        rw [h.unread_eq, List.drop_eq_nil_iff]
        exact List.getElem?_eq_none_iff.mp hnext
      rw [hunread]
      exact .error rfl
  | some x =>
      obtain ⟨hlt, hx⟩ := List.getElem?_eq_some_iff.mp hnext
      have hunread : t.unread = x :: input.drop (m.taken + 1) := by
        rw [h.unread_eq, List.drop_eq_getElem_cons hlt, hx]
      have hmirrors : Mirrors input { t with unread := input.drop (m.taken + 1) }
          { m with taken := m.taken + 1 } :=
        ⟨h.pointer_eq, h.pointer_lt, h.cells_eq, rfl, h.output_eq⟩
      rw [hunread, h.cell?_eq]
      exact .ok (hmirrors.setCell x)

/-- A statement does to the memory what its action does to the store. -/
theorem agree_apply (h : Mirrors input t m) {a : Action}
    (ha : a.instruction.weight ≤ UInt64.size - tapeLength) :
    Block.Agree (Mirrors input) (fun fault s => s = stop fault)
      (a.apply t) (a.effect.apply input m) := by
  cases a with
  | move d => exact h.agree_move ha
  | add d =>
      rw [apply_add, Action.effect, Rust.Effect.apply, h.cell?_eq]
      exact .ok (h.setCell _)
  | print =>
      rw [Action.apply, Action.effect, Rust.Effect.apply, h.cell?_eq]
      exact .ok ⟨h.pointer_eq, h.pointer_lt, h.cells_eq, h.unread_eq, by rw [h.output_eq]⟩
  | read => exact h.agree_read

end Mirrors

/-! ## Runs of generated programs -/

variable {b : Block Action} {n : Nat}

/-- No action of the block has a count that a word could wrap around onto the tape. -/
def IsShort (b : Block Action) : Prop :=
  ∀ i ∈ program b, i.weight ≤ UInt64.size - tapeLength

/-- A statement that stands for an action whose count is not too large. -/
def StandsFor (a : Action) (e : Rust.Effect) : Prop :=
  e = a.effect ∧ a.instruction.weight ≤ UInt64.size - tapeLength

theorem agree_effect (a : Action) (e : Rust.Effect) (t : Store) (m : Rust.Memory)
    (ha : StandsFor a e) (hmirrors : Mirrors input t m) :
    Block.Agree (Mirrors input) (fun fault s => s = stop fault) (a.apply t) (e.apply input m) := by
  rw [ha.1]
  exact hmirrors.agree_apply ha.2

theorem corresponds_effect (h : IsShort b) :
    Block.Corresponds StandsFor b (b.map Action.effect) := by
  have hleaf : ∀ a : Action, a.instruction ∈ b.flatten Action.instruction .loopStart .loopEnd →
      StandsFor a a.effect := fun a ha => ⟨rfl, h _ ha⟩
  exact Block.corresponds_map Action.effect b hleaf

/-- The statements of the block come to the result, run on the input. -/
def Executes (b : Block Action) (input : List UInt8) (n : Nat)
    (z : Except Rust.Stop Rust.Memory) : Prop :=
  (b.map Action.effect).Eval (Rust.Effect.apply input) Rust.Memory.isOpen .initial n z

/-- Both look their tests up in the same cell. -/
theorem agree_isOpen_of_mirrors (t : Store) (m : Rust.Memory) (h : Mirrors input t m) :
    Block.Agree Eq (fun fault s => s = stop fault) t.isOpen m.isOpen := by
  rw [h.isOpen_eq]
  exact .ok rfl

theorem executes_of_yields (hshort : IsShort b) {y : Except Machine.Fault Store}
    (h : Yields b (Store.fresh input) n y) :
    ∃ z, Executes b input n z ∧
      Block.Agree (Mirrors input) (fun fault s => s = stop fault) y z :=
  (corresponds_effect hshort).lockstep (mirrors_fresh input) h agree_effect agree_isOpen_of_mirrors

theorem yields_of_executes (hshort : IsShort b) {z : Except Rust.Stop Rust.Memory}
    (h : Executes b input n z) :
    ∃ y, Yields b (Store.fresh input) n y ∧
      Block.Agree (Mirrors input) (fun fault s => s = stop fault) y z :=
  (corresponds_effect hshort).lockstep_of_second (mirrors_fresh input) h agree_effect
    agree_isOpen_of_mirrors

/-! ## Exits -/

theorem statements_map_effect (b : Block Action) :
    (program b).map Rust.Statement.ofInstruction = Rust.statements (b.map Action.effect) := by
  have hleaf : Rust.Statement.ofInstruction ∘ Action.instruction =
      Rust.Statement.effect ∘ Action.effect := funext ofInstruction_instruction
  rw [program, Block.map_flatten, hleaf, Rust.statements, Block.flatten_map]
  rfl

theorem statements_injective : Function.Injective Rust.statements := by
  intro b c h
  refine Block.flatten_inj ?_ ?_ ?_ ?_ h
  · exact fun e e' heq => Rust.Statement.effect.inj heq
  · exact fun e heq => Rust.Statement.noConfusion heq
  · exact fun e heq => Rust.Statement.noConfusion heq
  · exact fun heq => Rust.Statement.noConfusion heq

/-- The generated text means what the statements of the block do. -/
theorem textEnds_code_iff {x : Rust.Exit} :
    Rust.TextEnds (Rust.code (program b) input) x ↔
      ∃ n z, Executes b input n z ∧ x = .ofResult z := by
  constructor
  · rintro ⟨s, htext, c, n, z, hbody, heval, hx⟩
    obtain rfl : s = .ofProgram (program b) input := Rust.Source.text_injective htext
    have hstatements : Rust.statements c = Rust.statements (b.map Action.effect) :=
      hbody.trans (statements_map_effect b)
    obtain rfl : c = b.map Action.effect := statements_injective hstatements
    exact ⟨n, z, heval, hx⟩
  · rintro ⟨n, z, heval, hx⟩
    exact ⟨.ofProgram (program b) input, rfl, _, n, z, (statements_map_effect b).symm, heval, hx⟩

theorem dropEnd_append_lineFeed (data : List UInt8) :
    dropEnd Compiled.isBlankByte (data ++ [10]) = dropEnd Compiled.isBlankByte data := by
  have hblank : Compiled.isBlankByte 10 = true := by decide
  simp [dropEnd, hblank]

/-- What the exit of the generated program has to mean, given what the block comes to. -/
def verdictOf : Except Machine.Fault Store → Except Failure (List UInt8)
  | .ok t => .ok (dropEnd Compiled.isBlankByte t.output)
  | .error .outOfBounds => .error (Failure.outOfBounds none .native)
  | .error .inputExhausted => .error (Failure.inputExhausted none .native)

theorem verdict_ofResult {y : Except Machine.Fault Store} {z : Except Rust.Stop Rust.Memory}
    (h : Block.Agree (Mirrors input) (fun fault s => s = stop fault) y z) :
    Compiled.verdict (Rust.Exit.ofResult z).status (Rust.Exit.ofResult z).stdout =
      verdictOf y := by
  cases h with
  | ok hmirrors =>
      rw [verdictOf, hmirrors.output_eq, ← dropEnd_append_lineFeed]
      rfl
  | @error fault _ hstop =>
      subst hstop
      cases fault <;> rfl

theorem report_unique {k : Nat} {x y : Except Failed Store} (hx : Runs b input n x)
    (hy : Runs b input k y) : report n x = report k y := by
  rw [← runProgram_of_runs hx k, ← runProgram_of_runs hy n]
  have hfuel : n + (k + 1) = k + (n + 1) := by omega
  rw [hfuel]

end Structured

theorem exists_block_of_parseProgram {source : Content} {program : List Instruction}
    (h : parseProgram source = .ok program) :
    program = condense source.units ∧ ∃ b, Structured.program b = program := by
  rw [parseProgram] at h
  cases hvalid : validate source with
  | error failure => simp [hvalid] at h
  | ok _ =>
      have hprogram : condense source.units = program := by simpa [hvalid] using h
      obtain ⟨b, hb⟩ := exists_block_of_validate hvalid
      refine ⟨hprogram.symm, mergeBlock b, ?_⟩
      rw [program_mergeBlock, hb, ← condense_eq_merge, hprogram]

/-- A generated program ends exactly if the machine does, and its exit means what the machine
reports: the output without blanks at its end, that the input is used up, or that the tape was
left. -/
theorem backends_agree {source : Content} {program : List Instruction}
    (h : parseProgram source = .ok program)
    (hlength : source.units.length ≤ UInt64.size - tapeLength) (input : List UInt8) :
    ((∃ x, Rust.TextEnds (Rust.code program input) x) ↔
      ∃ outcome, EndsWith program input outcome) ∧
    ∀ x outcome, Rust.TextEnds (Rust.code program input) x → EndsWith program input outcome →
      (∃ result, outcome = .returned result ∧
        Compiled.verdict x.status x.stdout =
          .ok (dropEnd Compiled.isBlankByte result.output)) ∨
      (∃ i, outcome = .failed (Failure.inputExhausted i .interpreter) ∧
        Compiled.verdict x.status x.stdout = .error (Failure.inputExhausted none .native)) ∨
      ∃ i, outcome = .failed (Failure.outOfBounds i .interpreter) ∧
        Compiled.verdict x.status x.stdout = .error (Failure.outOfBounds none .native) := by
  obtain ⟨hcondense, b, rfl⟩ := exists_block_of_parseProgram h
  have hshort : IsShort b := by
    intro i hi
    rw [hcondense] at hi
    exact (weight_le_length hi).trans hlength
  refine ⟨⟨?_, ?_⟩, ?_⟩
  · rintro ⟨x, hx⟩
    obtain ⟨n, z, hexecutes, -⟩ := textEnds_code_iff.mp hx
    obtain ⟨y, hyields, -⟩ := yields_of_executes hshort hexecutes
    obtain ⟨r, hruns, -⟩ := runs_of_yields hyields
    exact ⟨_, endsWith_program_iff.mpr ⟨n, r, hruns, rfl⟩⟩
  · rintro ⟨outcome, hends⟩
    obtain ⟨n, r, hruns, -⟩ := endsWith_program_iff.mp hends
    obtain ⟨z, hexecutes, -⟩ := executes_of_yields hshort (yields_of_runs hruns)
    exact ⟨_, textEnds_code_iff.mpr ⟨n, z, hexecutes, rfl⟩⟩
  · intro x outcome hx hends
    obtain ⟨n, z, hexecutes, rfl⟩ := textEnds_code_iff.mp hx
    obtain ⟨y, hyields, hagree⟩ := yields_of_executes hshort hexecutes
    obtain ⟨r, hruns, rfl⟩ := runs_of_yields hyields
    obtain ⟨k, r', hruns', houtcome⟩ := endsWith_program_iff.mp hends
    rw [report_unique hruns' hruns] at houtcome
    rw [verdict_ofResult hagree, houtcome]
    match r with
    | .ok t => exact .inl ⟨_, rfl, rfl⟩
    | .error (i, .inputExhausted) => exact .inr (.inl ⟨_, rfl, rfl⟩)
    | .error (i, .outOfBounds) => exact .inr (.inr ⟨_, rfl, rfl⟩)

/-- An echo of one byte ends on both backends, and both give the byte. -/
theorem backends_agree_of_echo :
    parseProgram (.text [',', '.']) = .ok [.read, .print] ∧
      ∃ x, Rust.TextEnds (Rust.code [.read, .print] [7]) x ∧
        Compiled.verdict x.status x.stdout = .ok [7] := by
  have hparse : parseProgram (.text [',', '.']) = .ok [.read, .print] := rfl
  have hblock : [.read, .print] = program (.leaf .read (.leaf .print .done)) := rfl
  have hends : EndsWith [.read, .print] [7] (.returned ⟨[7], 2⟩) := by
    rw [hblock, endsWith_returned_iff]
    exact ⟨_, .leaf rfl (.leaf rfl (.done _)), rfl⟩
  obtain ⟨hiff, hmeaning⟩ := backends_agree hparse (by decide) [7]
  obtain ⟨x, hx⟩ := hiff.mpr ⟨_, hends⟩
  refine ⟨hparse, x, hx, ?_⟩
  rcases hmeaning x _ hx hends with ⟨result, hresult, hverdict⟩ | ⟨i, hfailed, -⟩ | ⟨i, hfailed, -⟩
  · cases hresult
    exact hverdict
  · cases hfailed
  · cases hfailed

end TapeMachine
