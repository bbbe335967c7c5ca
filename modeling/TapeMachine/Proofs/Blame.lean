import TapeMachine.Proofs.Brackets
import TapeMachine.Proofs.Condensing
import TapeMachine.Machine.Run

/-!
# The bracket to blame

The check of a text and the construction of a jump table both go by the brackets alone, and
condensing keeps these. So both accept the same texts, and of the others they blame the same
bracket, each by its own count of positions.
-/

namespace TapeMachine

/-- Whether a bracket opens a loop, none for any other character. -/
def opens? : Char → Option Bool
  | '[' => some true
  | ']' => some false
  | _ => none

namespace Instruction

def opens? : Instruction → Option Bool
  | .loopStart => some true
  | .loopEnd => some false
  | _ => none

end Instruction

/-! ## Brackets with their positions -/

section Blame

variable {α β γ : Type}

/-- The position of the bracket to blame, when the brackets at the positions `opened` are still
open, the innermost first. A bracket comes with its position and with whether it opens. -/
def blameFrom : List β → List (Bool × β) → Option β
  | opened, [] => opened.head?
  | opened, (true, p) :: rest => blameFrom (p :: opened) rest
  | [], (false, p) :: _ => some p
  | _ :: opened, (false, _) :: rest => blameFrom opened rest

/-- Only the order of the brackets matters, whatever their positions are called. -/
theorem blameFrom_map (f : β → γ) (opened : List β) (l : List (Bool × β)) :
    blameFrom (opened.map f) (l.map (Prod.map id f)) = (blameFrom opened l).map f := by
  induction l generalizing opened with
  | nil => simp [blameFrom]
  | cons bracket rest ih =>
      obtain ⟨_ | _, p⟩ := bracket
      · cases opened with
        | nil => simp [blameFrom]
        | cons q opened => simpa [blameFrom] using ih opened
      · simpa [blameFrom] using ih (p :: opened)

/-- Which bracket is to blame, counted from zero. -/
def blamed (kinds : List Bool) : Option Nat := blameFrom [] (kinds.zip (List.range kinds.length))

theorem mem_of_blameFrom {opened : List β} {l : List (Bool × β)} {p : β}
    (h : blameFrom opened l = some p) : p ∈ opened ∨ p ∈ l.map Prod.snd := by
  induction l generalizing opened with
  | nil => exact .inl (List.mem_of_mem_head? h)
  | cons bracket rest ih =>
      obtain ⟨_ | _, q⟩ := bracket
      · cases opened with
        | nil =>
            obtain rfl : q = p := by simpa [blameFrom] using h
            exact .inr (by simp)
        | cons o opened =>
            rcases ih h with hopened | hrest
            · exact .inl (List.mem_cons_of_mem o hopened)
            · exact .inr (List.mem_cons_of_mem q hrest)
      · rcases ih h with hopened | hrest
        · rcases List.mem_cons.mp hopened with rfl | hopened
          · exact .inr (by simp)
          · exact .inl hopened
        · exact .inr (List.mem_cons_of_mem q hrest)

theorem lt_of_blamed {kinds : List Bool} {j : Nat} (h : blamed kinds = some j) :
    j < kinds.length := by
  rcases mem_of_blameFrom h with hopened | hrest
  · simp at hopened
  · obtain ⟨bracket, hbracket, rfl⟩ := List.mem_map.mp hrest
    exact List.mem_range.mp (List.of_mem_zip hbracket).2

theorem blameFrom_zip (kinds : List Bool) {positions : List Nat}
    (h : positions.length = kinds.length) :
    blameFrom [] (kinds.zip positions) = (blamed kinds).bind fun j => positions[j]? := by
  have hpositions : (List.range kinds.length).map (fun j => positions.getD j 0) = positions := by
    refine List.ext_getElem (by simp [h]) ?_
    intro j _ hj
    simp [hj]
  have hzip : kinds.zip positions = (kinds.zip (List.range kinds.length)).map
      (Prod.map id fun j => positions.getD j 0) := by
    rw [← List.zip_map, List.map_id, hpositions]
  have hmap : blameFrom [] (kinds.zip positions) =
      (blamed kinds).map fun j => positions.getD j 0 := by
    rw [hzip]
    exact blameFrom_map _ [] _
  rw [hmap]
  cases hblamed : blamed kinds with
  | none => rfl
  | some j =>
      have hj : j < positions.length := h.symm ▸ lt_of_blamed hblamed
      simp [hj]

/-- The brackets of a list whose first element has position `n`. -/
def bracketsFrom (opens? : α → Option Bool) (n : Nat) (l : List α) : List (Bool × Nat) :=
  (l.filterMap opens?).zip (l.findIdxs (fun a => (opens? a).isSome) n)

theorem bracketsFrom_cons_some {opens? : α → Option Bool} {a : α} {kind : Bool}
    (h : opens? a = some kind) (n : Nat) (l : List α) :
    bracketsFrom opens? n (a :: l) = (kind, n) :: bracketsFrom opens? (n + 1) l := by
  simp [bracketsFrom, h]

theorem bracketsFrom_cons_none {opens? : α → Option Bool} {a : α} (h : opens? a = none) (n : Nat)
    (l : List α) : bracketsFrom opens? n (a :: l) = bracketsFrom opens? (n + 1) l := by
  simp [bracketsFrom, h]

theorem length_filterMap_opens (opens? : α → Option Bool) (l : List α) :
    (l.findIdxs fun a => (opens? a).isSome).length = (l.filterMap opens?).length := by
  rw [List.length_findIdxs, List.length_filterMap_eq_countP]

end Blame

/-! ## Both matchers go by the brackets -/

theorem opens?_eq_none {c : Char} (hopen : c ≠ '[') (hclose : c ≠ ']') : opens? c = none := by
  unfold opens?
  split
  · exact (hopen rfl).elim
  · exact (hclose rfl).elim
  · rfl

theorem unmatchedFrom_eq_blameFrom (opened : List Nat) (n : Nat) (text : List Char) :
    unmatchedFrom opened (Token.scanFrom n text) =
      blameFrom opened (bracketsFrom opens? n text) := by
  induction text generalizing opened n with
  | nil => cases opened <;> rfl
  | cons c text ih =>
      by_cases hopen : c = '['
      · subst hopen
        have hkind : opens? '[' = some true := rfl
        rw [bracketsFrom_cons_some hkind, unmatchedFrom_open, blameFrom, ih]
      by_cases hclose : c = ']'
      · subst hclose
        have hkind : opens? ']' = some false := rfl
        rw [bracketsFrom_cons_some hkind]
        cases opened with
        | nil => exact unmatchedFrom_stray n text
        | cons p opened => rw [unmatchedFrom_close, blameFrom, ih]
      rw [bracketsFrom_cons_none (opens?_eq_none hopen hclose),
        unmatchedFrom_other hopen hclose, ih]

theorem unmatched?_eq_blameFrom (text : List Char) :
    unmatched? text = blameFrom [] (bracketsFrom opens? 0 text) :=
  unmatchedFrom_eq_blameFrom [] 0 text

namespace Structured

theorem opens?_action (a : Action) : a.instruction.opens? = none := by
  cases a <;> rfl

end Structured

open Structured

theorem linkFrom_eq_error_iff (table : JumpTable) (opened : List Nat) (n : Nat)
    (program : List Instruction) (index : Nat) :
    JumpTable.linkFrom table opened n program = .error index ↔
      blameFrom opened (bracketsFrom Instruction.opens? n program) = some index := by
  induction program generalizing table opened n with
  | nil => cases opened <;> simp [JumpTable.linkFrom, bracketsFrom, blameFrom]
  | cons i program ih =>
      rcases eq_action_or_bracket i with ⟨a, rfl⟩ | rfl | rfl
      · rw [JumpTable.linkFrom_action, bracketsFrom_cons_none (opens?_action a), ih]
      · have hkind : Instruction.opens? .loopStart = some true := rfl
        rw [JumpTable.linkFrom_loopStart, bracketsFrom_cons_some hkind, blameFrom, ih]
      · have hkind : Instruction.opens? .loopEnd = some false := rfl
        rw [bracketsFrom_cons_some hkind]
        cases opened with
        | nil => simp [JumpTable.linkFrom, blameFrom]
        | cons start opened => rw [JumpTable.linkFrom_loopEnd, blameFrom, ih]

/-! ## Condensing keeps the brackets -/

theorem opens?_bind_ofChar? (c : Char) :
    (Instruction.ofChar? c).bind Instruction.opens? = opens? c := by
  by_cases hopen : c = '['
  · subst hopen
    rfl
  by_cases hclose : c = ']'
  · subst hclose
    rfl
  rw [opens?_eq_none hopen hclose]
  rcases Instruction.ofChar?_action hopen hclose with hc | ⟨a, hc⟩
  · rw [hc]
    rfl
  · rw [hc]
    exact opens?_action a

theorem filterMap_opens?_condense (text : List Char) :
    (condense text).filterMap Instruction.opens? = text.filterMap opens? := by
  have hmarkers : ∀ l : List Instruction,
      (l.filter (·.run?.isNone)).filterMap Instruction.opens? =
        l.filterMap Instruction.opens? := by
    intro l
    rw [List.filterMap_filter]
    apply congrArg (List.filterMap · l)
    funext i
    cases i <;> rfl
  rw [← hmarkers, filter_condense, hmarkers, readInstructions, List.filterMap_filterMap]
  exact congrArg (List.filterMap · text) (funext opens?_bind_ofChar?)

/-! ## The same bracket is blamed -/

theorem unmatched?_eq_blamed (text : List Char) :
    unmatched? text = (blamed (text.filterMap opens?)).bind fun j =>
      (text.findIdxs fun c => (opens? c).isSome)[j]? := by
  rw [unmatched?_eq_blameFrom]
  exact blameFrom_zip _ (length_filterMap_opens opens? text)

theorem build_eq_error_iff (program : List Instruction) (index : Nat) :
    JumpTable.build program = .error index ↔
      (blamed (program.filterMap Instruction.opens?)).bind (fun j =>
        (program.findIdxs fun i => i.opens?.isSome)[j]?) = some index := by
  rw [JumpTable.build, linkFrom_eq_error_iff, bracketsFrom,
    blameFrom_zip _ (length_filterMap_opens Instruction.opens? program)]

/-- The text and its condensed program have bracket `j` to blame, or neither has any. -/
theorem blamed_alike (text : List Char) :
    (unmatched? text = none ∧ ∃ table, JumpTable.build (condense text) = .ok table) ∨
      ∃ j offset index : Nat, unmatched? text = some offset ∧
        JumpTable.build (condense text) = .error index ∧
        (text.findIdxs fun c => (opens? c).isSome)[j]? = some offset ∧
        ((condense text).findIdxs fun i => i.opens?.isSome)[j]? = some index := by
  have hsame := filterMap_opens?_condense text
  have hbuild := build_eq_error_iff (condense text)
  rw [hsame] at hbuild
  cases hblamed : blamed (text.filterMap opens?) with
  | none =>
      left
      refine ⟨by rw [unmatched?_eq_blamed, hblamed]; rfl, ?_⟩
      cases htable : JumpTable.build (condense text) with
      | ok table => exact ⟨table, rfl⟩
      | error index =>
          rw [hbuild index, hblamed] at htable
          cases htable
  | some j =>
      right
      have hj := lt_of_blamed hblamed
      have hoffset : j < (text.findIdxs fun c => (opens? c).isSome).length := by
        rwa [length_filterMap_opens]
      have hindex : j < ((condense text).findIdxs fun i => i.opens?.isSome).length := by
        rwa [length_filterMap_opens Instruction.opens?, hsame]
      have hoffset' := List.getElem?_eq_getElem hoffset
      have hindex' := List.getElem?_eq_getElem hindex
      refine ⟨j, _, _, ?_, ?_, hoffset', hindex'⟩
      · rw [unmatched?_eq_blamed, hblamed]
        exact hoffset'
      · rw [hbuild, hblamed]
        exact hindex'

theorem exists_table_of_validate {source : Content} (h : validate source = .ok ()) :
    ∃ table, JumpTable.build (condense source.units) = .ok table := by
  rcases blamed_alike source.units with ⟨-, htable⟩ | ⟨j, offset, index, hoffset, -⟩
  · exact htable
  · rw [unmatched?_of_validate h] at hoffset
    cases hoffset

namespace Machine

/-- Every bracket of a block has a target in that block, wherever the block stands. -/
theorem IsPlaced.exists_target {m : Machine} {n : Nat} {b : Block Action} (h : m.IsPlaced n b)
    {p : Nat} (hlow : n ≤ p) (hhigh : p < n + b.length) {i : Instruction}
    (hcode : m.code[p]? = some i) (hbracket : i.opens?.isSome) :
    ∃ target < n + b.length, m.jumps.target? p = some target := by
  induction b generalizing n with
  | done =>
      simp only [Block.length] at hhigh
      omega
  | leaf a rest ih =>
      simp only [Block.length] at hhigh ⊢
      by_cases hp : p = n
      · subst hp
        obtain rfl : a.instruction = i := Option.some.inj (h.1.symm.trans hcode)
        simp [opens?_action] at hbracket
      · obtain ⟨target, hlt, htarget⟩ := ih h.2 (by omega) (by omega)
        exact ⟨target, by omega, htarget⟩
  | loop body rest ihb ihr =>
      simp only [Block.length] at hhigh ⊢
      obtain ⟨-, ⟨hforth, hback⟩, hbody, hrest⟩ := h
      by_cases hstart : p = n
      · exact ⟨_, by omega, hstart ▸ hforth⟩
      by_cases hstop : p = n + body.length + 1
      · exact ⟨_, by omega, hstop ▸ hback⟩
      by_cases hinside : p < n + body.length + 1
      · obtain ⟨target, hlt, htarget⟩ := ihb hbody (by omega) (by omega)
        exact ⟨target, by omega, htarget⟩
      · obtain ⟨target, hlt, htarget⟩ := ihr hrest (by omega) (by omega)
        exact ⟨target, by omega, htarget⟩

theorem exists_target_lt_of_load {program : List Instruction} {input : List UInt8} {m : Machine}
    (h : load program input = .ok m) {p : Nat} {i : Instruction} (hcode : m.code[p]? = some i)
    (hbracket : i.opens?.isSome) : ∃ target < m.code.size, m.jumps.target? p = some target := by
  obtain ⟨b, rfl⟩ := exists_block_of_load h
  obtain ⟨hplaced, hsize, -⟩ := isPlaced_of_load h
  obtain ⟨hp, -⟩ := Array.getElem?_eq_some_iff.mp hcode
  obtain ⟨target, hlt, htarget⟩ := hplaced.exists_target (Nat.zero_le p) (by omega) hcode hbracket
  exact ⟨target, by omega, htarget⟩

theorem exists_target_of_load {program : List Instruction} {input : List UInt8} {m : Machine}
    (h : load program input = .ok m) {p : Nat} {i : Instruction} (hcode : m.code[p]? = some i)
    (hbracket : i.opens?.isSome) : ∃ target, m.jumps.target? p = some target := by
  obtain ⟨target, -, htarget⟩ := exists_target_lt_of_load h hcode hbracket
  exact ⟨target, htarget⟩

end Machine

theorem validate_eq_error_iff (source : Content) (offset : Nat) :
    validate source = .error (Failure.unmatchedBracket offset none) ↔
      unmatched? source.units = some offset := by
  rw [validate]
  cases unmatched? source.units with
  | none => simp
  | some position =>
      have hinj : (position : Int) = offset ↔ position = offset := Int.ofNat_inj
      simp [Failure.unmatchedBracket, hinj]

theorem validate_of_parseProgram {source : Content} {program : List Instruction}
    (h : parseProgram source = .ok program) :
    validate source = .ok () ∧ program = condense source.units := by
  rw [parseProgram] at h
  split at h
  · cases h
  next hvalid =>
    cases h
    exact ⟨hvalid, rfl⟩

/-- What becomes of a loaded program is never an unmatched bracket. -/
theorem cause_of_outcome {x : Machine.Halt} {limit : Machine.Limit} {failure : Failure}
    (h : x.outcome limit = .failed failure) (position : Int) :
    failure.cause ≠ .unmatchedBracket position := by
  cases x with
  | halted s => cases h
  | faulted fault s =>
      cases h
      cases fault <;> simp [Machine.Fault.failure, Failure.outOfBounds, Failure.inputExhausted]
  | suspended s =>
      cases limit with
      | poll n =>
          cases h
          simp [Failure.timeout]
      | fuel n => cases h
  | stuck => cases h

/-- The check of a text and the construction of a jump table refuse the same texts and blame the
same bracket. A program that comes out of the check is never refused for its brackets again, and
every jump in it has a target. -/
theorem validate_agrees_with_build (source : Content) :
    ((∃ failure, validate source = .error failure) ↔
      ∃ index, JumpTable.build (condense source.units) = .error index) ∧
    (∀ offset index, validate source = .error (Failure.unmatchedBracket offset none) →
      JumpTable.build (condense source.units) = .error index →
        offset ∈ source.units.findIdxs (fun c => (opens? c).isSome) ∧
        ∀ j : Nat, (source.units.findIdxs fun c => (opens? c).isSome)[j]? = some offset →
          ((condense source.units).findIdxs fun i => i.opens?.isSome)[j]? = some index) ∧
    ∀ program, parseProgram source = .ok program → ∀ input : List UInt8,
      (∀ limit failure, runProgram program input limit = .failed failure →
        ∀ position, failure.cause ≠ .unmatchedBracket position) ∧
      ∃ m, Machine.load program input = .ok m ∧
        ∀ p i, m.code[p]? = some i → i.opens?.isSome →
          ∃ target, m.jumps.target? p = some target := by
  have halike := blamed_alike source.units
  refine ⟨?_, ?_, ?_⟩
  · rcases halike with ⟨hnone, table, htable⟩ | ⟨j, offset, index, hoffset, hindex, -⟩
    · constructor
      · rintro ⟨failure, hfailure⟩
        rw [validate, hnone] at hfailure
        cases hfailure
      · rintro ⟨index, hindex⟩
        rw [htable] at hindex
        cases hindex
    · exact iff_of_true ⟨_, (validate_eq_error_iff source offset).mpr hoffset⟩ ⟨index, hindex⟩
  · intro offset index hvalidate hbuild
    rw [validate_eq_error_iff] at hvalidate
    rcases halike with ⟨hnone, -⟩ | ⟨j, offset', index', hoffset, hindex, hj, hj'⟩
    · rw [hnone] at hvalidate
      cases hvalidate
    · obtain rfl : offset' = offset := Option.some.inj (hoffset.symm.trans hvalidate)
      obtain rfl : index' = index := Except.error.inj (hindex.symm.trans hbuild)
      refine ⟨List.mem_of_getElem? hj, ?_⟩
      intro k hk
      have hjk : j = k := by
        have hlt := (List.getElem?_eq_some_iff.mp hj).1
        exact (List.getElem?_inj hlt List.nodup_findIdxs).mp (hj.trans hk.symm)
      exact hjk ▸ hj'
  · intro program hparse input
    obtain ⟨hvalid, rfl⟩ := validate_of_parseProgram hparse
    obtain ⟨table, htable⟩ := exists_table_of_validate hvalid
    have hload := Machine.load_of_build htable input
    refine ⟨?_, _, hload, fun p i => Machine.exists_target_of_load hload⟩
    intro limit failure hfailed
    rw [runProgram, hload] at hfailed
    exact cause_of_outcome hfailed

end TapeMachine
