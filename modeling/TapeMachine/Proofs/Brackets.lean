import TapeMachine.Canonical
import TapeMachine.Program
import TapeMachine.Proofs.Loops
import TapeMachine.Proofs.Tokens

/-!
# Balanced texts

A text whose brackets are balanced is the text of a block: its instructions, one by one, have a
jump table.
-/

namespace TapeMachine

open Structured

/-- A character is commentary, a bracket or an action. -/
theorem Instruction.ofChar?_action {c : Char} (hopen : c ≠ '[') (hclose : c ≠ ']') :
    Instruction.ofChar? c = none ∨ ∃ a : Action, Instruction.ofChar? c = some a.instruction := by
  unfold Instruction.ofChar?
  split
  · exact .inr ⟨.move 1, rfl⟩
  · exact .inr ⟨.move (-1), rfl⟩
  · exact .inr ⟨.add 1, rfl⟩
  · exact .inr ⟨.add (-1), rfl⟩
  · exact .inr ⟨.print, rfl⟩
  · exact .inr ⟨.read, rfl⟩
  · exact (hopen rfl).elim
  · exact (hclose rfl).elim
  · exact .inl rfl

/-! ## The check of tokens, character by character -/

section Tokens

open Token

variable {opened : List Nat} {n : Nat} {c : Char} {text : List Char}

theorem scanFrom_cons_marker {kind : TokenKind} (hc : TokenKind.ofChar? c = some kind)
    (hrun : kind.isRun = false) (n : Nat) (text : List Char) :
    scanFrom n (c :: text) = ⟨kind, n, [c]⟩ :: scanFrom (n + 1) text := by
  rw [scanFrom_cons_some hc, attach_apart]
  simp [hrun]

theorem unmatchedFrom_open (opened : List Nat) (n : Nat) (text : List Char) :
    unmatchedFrom opened (scanFrom n ('[' :: text)) =
      unmatchedFrom (n :: opened) (scanFrom (n + 1) text) := by
  rw [scanFrom_cons_marker rfl rfl]
  rfl

theorem unmatchedFrom_stray (n : Nat) (text : List Char) :
    unmatchedFrom [] (scanFrom n (']' :: text)) = some n := by
  rw [scanFrom_cons_marker rfl rfl]
  rfl

theorem unmatchedFrom_close (start : Nat) (opened : List Nat) (n : Nat) (text : List Char) :
    unmatchedFrom (start :: opened) (scanFrom n (']' :: text)) =
      unmatchedFrom opened (scanFrom (n + 1) text) := by
  rw [scanFrom_cons_marker rfl rfl]
  rfl

theorem unmatchedFrom_skip {t : Token} (hstart : t.kind ≠ .loopStart) (hend : t.kind ≠ .loopEnd)
    (opened : List Nat) (ts : List Token) :
    unmatchedFrom opened (t :: ts) = unmatchedFrom opened ts := by
  obtain ⟨kind, offset, text⟩ := t
  cases kind with
  | loopStart => exact (hstart rfl).elim
  | loopEnd => exact (hend rfl).elim
  | move | delta | print | read => cases opened <;> rfl

/-- Characters that are no brackets do not count, whether they are a token of their own, a part of
one, or commentary. -/
theorem unmatchedFrom_other (hopen : c ≠ '[') (hclose : c ≠ ']') (opened : List Nat) (n : Nat)
    (text : List Char) :
    unmatchedFrom opened (scanFrom n (c :: text)) =
      unmatchedFrom opened (scanFrom (n + 1) text) := by
  cases hc : TokenKind.ofChar? c with
  | none => rw [scanFrom_cons_none hc]
  | some kind =>
      have hstart : kind ≠ .loopStart := by
        rintro rfl
        exact hopen (eq_of_loopStart hc)
      have hend : kind ≠ .loopEnd := by
        rintro rfl
        exact hclose (eq_of_loopEnd hc)
      rw [scanFrom_cons_some hc]
      cases scanFrom (n + 1) text with
      | nil => exact unmatchedFrom_skip hstart hend opened []
      | cons u us =>
          rw [attach]
          split
          next hrun =>
            obtain ⟨-, rfl, -⟩ := hrun
            have hjoined : unmatchedFrom opened (⟨u.kind, n, c :: u.text⟩ :: us) =
                unmatchedFrom opened us := by
              apply unmatchedFrom_skip
              · exact hstart
              · exact hend
            rw [hjoined, unmatchedFrom_skip hstart hend]
          next => exact unmatchedFrom_skip hstart hend opened (u :: us)

end Tokens

/-- The check of a text opens and closes brackets as the jump table of its instructions does. -/
theorem linkFrom_of_unmatchedFrom {opened : List Nat} {n : Nat} {text : List Char}
    (h : unmatchedFrom opened (Token.scanFrom n text) = none) {starts : List Nat}
    (hlength : starts.length = opened.length) (table : JumpTable) (k : Nat) :
    ∃ result, JumpTable.linkFrom table starts k (readInstructions text) = .ok result := by
  induction text generalizing opened n starts table k with
  | nil =>
      have hopened : opened = [] := List.head?_eq_none_iff.mp h
      rw [hopened, List.length_nil, List.length_eq_zero_iff] at hlength
      exact ⟨table, by rw [hlength]; rfl⟩
  | cons c text ih =>
      by_cases hopen : c = '['
      · subst hopen
        rw [unmatchedFrom_open] at h
        rw [readInstructions_cons_some rfl, JumpTable.linkFrom_loopStart]
        exact ih h (by simp [hlength]) table (k + 1)
      by_cases hclose : c = ']'
      · subst hclose
        cases opened with
        | nil => simp [unmatchedFrom_stray] at h
        | cons m opened =>
            rw [unmatchedFrom_close] at h
            cases starts with
            | nil => simp at hlength
            | cons start starts =>
                rw [readInstructions_cons_some rfl, JumpTable.linkFrom_loopEnd]
                exact ih h (by simpa using hlength) _ (k + 1)
      rw [unmatchedFrom_other hopen hclose] at h
      rcases Instruction.ofChar?_action hopen hclose with hc | ⟨a, hc⟩
      · rw [readInstructions_cons_none hc]
        exact ih h hlength table k
      · rw [readInstructions_cons_some hc, JumpTable.linkFrom_action]
        exact ih h hlength table (k + 1)

theorem validate_eq_ok_iff (source : Content) :
    validate source = .ok () ↔ unmatched? source.units = none := by
  rw [validate]
  cases unmatched? source.units <;> simp

theorem unmatched?_of_validate {source : Content} (h : validate source = .ok ()) :
    unmatched? source.units = none :=
  (validate_eq_ok_iff source).mp h

theorem exists_unmatched_of_validate {source : Content} {failure : Failure}
    (h : validate source = .error failure) :
    ∃ position, failure = Failure.unmatchedBracket position none ∧
      unmatched? source.units = some position := by
  rw [validate] at h
  split at h
  next position hposition => exact ⟨position, (Except.error.inj h).symm, hposition⟩
  next => cases h

/-- The instructions of a balanced text are the flat program of a block. -/
theorem exists_block_of_validate {source : Content} (h : validate source = .ok ()) :
    ∃ b, program b = readInstructions source.units := by
  obtain ⟨table, htable⟩ := linkFrom_of_unmatchedFrom (unmatched?_of_validate h) rfl
    (Array.replicate (readInstructions source.units).length none) 0
  exact JumpTable.exists_block_of_build htable

end TapeMachine
