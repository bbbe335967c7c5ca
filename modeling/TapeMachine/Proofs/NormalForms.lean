import TapeMachine.Proofs.Condensing

/-!
# Condensed programs are complete normal forms

Every text is equal to the text of its condensed program, since a character in front of a
canonical program either lengthens its first run or cancels against it. Conversely nothing that
keeps a text equal changes what it amounts to in front of a canonical program. So two texts have
the same condensed program exactly if they are equal.
-/

namespace TapeMachine

namespace RunKind

/-- The character that counts up. -/
def up : RunKind → Char
  | .move => '>'
  | .add => '+'

/-- The character that counts down. -/
def down : RunKind → Char
  | .move => '<'
  | .add => '-'

theorem sourceText_instruction (k : RunKind) (d : Int) :
    (k.instruction d).sourceText = List.replicate d.natAbs (if 0 < d then k.up else k.down) := by
  cases k <;> rfl

theorem sourceText_up (k : RunKind) {d : Int} (hd : 0 ≤ d) :
    (k.instruction (1 + d)).sourceText = k.up :: (k.instruction d).sourceText := by
  obtain ⟨n, rfl⟩ := Int.eq_ofNat_of_zero_le hd
  have habs : (1 + (n : Int)).natAbs = n + 1 := by omega
  rw [k.sourceText_instruction, k.sourceText_instruction, habs, if_pos (by omega),
    List.replicate_succ, Int.natAbs_natCast]
  cases n with
  | zero => rfl
  | succ n => rw [if_pos (by omega)]

theorem sourceText_down (k : RunKind) {d : Int} (hd : d ≤ 0) :
    (k.instruction (-1 + d)).sourceText = k.down :: (k.instruction d).sourceText := by
  have habs : (-1 + d).natAbs = d.natAbs + 1 := by omega
  rw [k.sourceText_instruction, k.sourceText_instruction, habs, if_neg (by omega),
    if_neg (by omega), List.replicate_succ]

theorem sourceText_of_pos (k : RunKind) {d : Int} (hd : 0 < d) :
    (k.instruction d).sourceText = k.up :: (k.instruction (-1 + d)).sourceText := by
  have hrest := k.sourceText_up (d := -1 + d) (by omega)
  rwa [show 1 + (-1 + d) = d by omega] at hrest

theorem sourceText_of_neg (k : RunKind) {d : Int} (hd : d < 0) :
    (k.instruction d).sourceText = k.down :: (k.instruction (1 + d)).sourceText := by
  have hrest := k.sourceText_down (d := 1 + d) (by omega)
  rwa [show -1 + (1 + d) = d by omega] at hrest

theorem cancels_up_down (k : RunKind) : cancels k.up k.down = true := by cases k <;> rfl

theorem cancels_down_up (k : RunKind) : cancels k.down k.up = true := by cases k <;> rfl

end RunKind

/-- A character stands for a run of one, upwards or downwards, or for an instruction that is no
run. -/
theorem Instruction.ofChar?_cases {c : Char} {i : Instruction} (h : Instruction.ofChar? c = some i) :
    (∃ k, c = RunKind.up k ∧ i = k.instruction 1) ∨
      (∃ k, c = RunKind.down k ∧ i = k.instruction (-1)) ∨
      (i.run? = none ∧ i.sourceText = [c]) := by
  unfold Instruction.ofChar? at h
  split at h <;> cases h
  · exact .inl ⟨.move, rfl, rfl⟩
  · exact .inr (.inl ⟨.move, rfl, rfl⟩)
  · exact .inl ⟨.add, rfl, rfl⟩
  · exact .inr (.inl ⟨.add, rfl, rfl⟩)
  · exact .inr (.inr ⟨rfl, rfl⟩)
  · exact .inr (.inr ⟨rfl, rfl⟩)
  · exact .inr (.inr ⟨rfl, rfl⟩)
  · exact .inr (.inr ⟨rfl, rfl⟩)

theorem sourceText_cons (i : Instruction) (program : List Instruction) :
    sourceText (i :: program) = i.sourceText ++ sourceText program := by
  simp [sourceText]

/-! ## A text is equal to the text of its condensed program -/

namespace SameProgram

theorem cons {s t : List Char} (c : Char) (h : SameProgram s t) :
    SameProgram (c :: s) (c :: t) := by
  induction h with
  | refl s => exact .refl _
  | symm _ ih => exact ih.symm
  | trans _ _ ih ih' => exact ih.trans ih'
  | comment u v d hd => exact .comment (c :: u) v d hd
  | cancel u v x y hxy => exact .cancel (c :: u) v x y hxy

/-- Counting up by one extends a run upwards and cancels against a run downwards. -/
theorem up_run (k : RunKind) (d : Int) (v : List Char) :
    SameProgram (k.up :: ((k.instruction d).sourceText ++ v))
      ((k.instruction (1 + d)).sourceText ++ v) := by
  rcases Int.lt_or_le d 0 with hd | hd
  · rw [k.sourceText_of_neg hd]
    exact .cancel [] _ k.up k.down k.cancels_up_down
  · rw [k.sourceText_up hd]
    exact .refl _

/-- Counting down by one extends a run downwards and cancels against a run upwards. -/
theorem down_run (k : RunKind) (d : Int) (v : List Char) :
    SameProgram (k.down :: ((k.instruction d).sourceText ++ v))
      ((k.instruction (-1 + d)).sourceText ++ v) := by
  rcases Int.lt_or_le 0 d with hd | hd
  · rw [k.sourceText_of_pos hd]
    exact .cancel [] _ k.down k.up k.cancels_down_up
  · rw [k.sourceText_down hd]
    exact .refl _

end SameProgram

theorem sourceText_mergeFront_run (k : RunKind) (d e : Int) (rest : List Instruction) :
    sourceText (mergeFront (k.instruction d) (k.instruction e :: rest)) =
      (k.instruction (d + e)).sourceText ++ sourceText rest := by
  rw [mergeFront_run]
  split_ifs with hzero
  · simp [hzero, k.sourceText_instruction]
  · exact sourceText_cons _ _

theorem sourceText_mergeFront_apart {k : RunKind} {program : List Instruction}
    (h : BeginsApart k program) (d : Int) :
    sourceText (mergeFront (k.instruction d) program) =
      (k.instruction d).sourceText ++ sourceText program := by
  rw [mergeFront_apart h]
  split_ifs with hzero
  · simp [hzero, k.sourceText_instruction]
  · exact sourceText_cons _ _

/-- A character in front of the text of a canonical program. -/
theorem sameProgram_mergeFront {c : Char} {i : Instruction} (hc : Instruction.ofChar? c = some i)
    {program : List Instruction} (h : IsCanonical program) :
    SameProgram (c :: sourceText program) (sourceText (mergeFront i program)) := by
  rcases Instruction.ofChar?_cases hc with ⟨k, rfl, rfl⟩ | ⟨k, rfl, rfl⟩ | ⟨hi, htext⟩
  · rcases h.run_or_apart k with ⟨d, rest, rfl, -⟩ | hapart
    · rw [sourceText_mergeFront_run, sourceText_cons]
      exact .up_run k d _
    · rw [sourceText_mergeFront_apart hapart, k.sourceText_instruction]
      exact .refl _
  · rcases h.run_or_apart k with ⟨d, rest, rfl, -⟩ | hapart
    · rw [sourceText_mergeFront_run, sourceText_cons]
      exact .down_run k d _
    · rw [sourceText_mergeFront_apart hapart, k.sourceText_instruction]
      exact .refl _
  · rw [mergeFront_marker hi, sourceText_cons, htext]
    exact .refl _

theorem sameProgram_sourceText_merge (text : List Char) :
    SameProgram text (sourceText (merge (readInstructions text))) := by
  induction text with
  | nil => exact .refl []
  | cons c text ih =>
      cases hc : Instruction.ofChar? c with
      | none =>
          rw [readInstructions_cons_none hc]
          exact (SameProgram.comment [] text c hc).trans ih
      | some i =>
          rw [readInstructions_cons_some hc]
          exact (ih.cons c).trans (sameProgram_mergeFront hc (isCanonical_merge _))

/-! ## Equal texts amount to the same -/

/-- Characters that cancel count one run up and down, or down and up. -/
theorem cancels_cases {x y : Char} (h : cancels x y = true) :
    ∃ k d, Instruction.ofChar? x = some (RunKind.instruction k d) ∧
      Instruction.ofChar? y = some (RunKind.instruction k (-d)) := by
  unfold cancels at h
  split at h
  · exact ⟨.add, 1, rfl, rfl⟩
  · exact ⟨.add, -1, rfl, rfl⟩
  · exact ⟨.move, 1, rfl, rfl⟩
  · exact ⟨.move, -1, rfl, rfl⟩
  · cases h

theorem alike_cancel (k : RunKind) (d : Int) :
    Alike [k.instruction d, k.instruction (-d)] [] := by
  have hadd := Alike.run_add k d (-d)
  rw [Int.add_right_neg] at hadd
  exact hadd.trans (Alike.run_zero k)

theorem SameProgram.alike {s t : List Char} (h : SameProgram s t) :
    Alike (readInstructions s) (readInstructions t) := by
  induction h with
  | refl s => exact .refl _
  | symm _ ih => exact ih.symm
  | trans _ _ ih ih' => exact ih.trans ih'
  | comment u v c hc =>
      rw [readInstructions_append, readInstructions_append, readInstructions_cons_none hc]
      exact .refl _
  | cancel u v x y hxy =>
      obtain ⟨k, d, hx, hy⟩ := cancels_cases hxy
      rw [readInstructions_append, readInstructions_append, readInstructions_cons_some hx,
        readInstructions_cons_some hy]
      exact (Alike.refl _).append ((alike_cancel k d).append (Alike.refl _))

/-- Two texts condense to the same program exactly if commentary and cancelling pairs are all that
tells them apart. -/
theorem condense_eq_condense_iff (s t : List Char) :
    condense s = condense t ↔ SameProgram s t := by
  rw [condense_eq_merge, condense_eq_merge]
  constructor
  · intro h
    have hs := sameProgram_sourceText_merge s
    rw [h] at hs
    exact hs.trans (sameProgram_sourceText_merge t).symm
  · intro h
    exact h.alike.merge_eq

/-- A cancellation that reaches back through an emitted move. -/
example : condense "+>-+<-.".toList = condense ".".toList := by decide

end TapeMachine
