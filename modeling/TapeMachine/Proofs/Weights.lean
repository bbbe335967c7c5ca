import TapeMachine.Proofs.Condensing

/-!
# Weights

The weight of a program is the sum of its absolute counts. Merging an instruction into a program
adds no weight beyond its own, and a character has a weight of at most one, so no count of a
condensed text is larger than the text is long.
-/

namespace TapeMachine

/-- The absolute count of an instruction, and none if it has no count. -/
def Instruction.weight : Instruction → Nat
  | .moveBy d => d.natAbs
  | .addBy d => d.natAbs
  | _ => 0

theorem weight_instruction (k : RunKind) (d : Int) : (k.instruction d).weight = d.natAbs := by
  cases k <;> rfl

/-- The sum of the absolute counts. -/
def weight : List Instruction → Nat
  | [] => 0
  | i :: rest => i.weight + weight rest

theorem weight_mergeFront_le (i : Instruction) (program : List Instruction) :
    weight (mergeFront i program) ≤ i.weight + weight program := by
  rcases i.eq_run_or with ⟨k, d, rfl⟩ | hi
  · rcases run_or_apart k program with ⟨e, rest, rfl⟩ | hapart
    · rw [mergeFront_run]
      have habs : (d + e).natAbs ≤ d.natAbs + e.natAbs := Int.natAbs_add_le d e
      split_ifs with hzero
      · simp only [weight]
        omega
      · simp only [weight, weight_instruction]
        omega
    · rw [mergeFront_apart hapart]
      split_ifs with hzero
      · omega
      · exact le_refl _
  · rw [mergeFront_marker hi]
    exact le_refl _

theorem weight_merge_le (program : List Instruction) : weight (merge program) ≤ weight program := by
  induction program with
  | nil => exact le_refl _
  | cons i rest ih =>
      rw [merge_cons]
      calc weight (mergeFront i (merge rest))
          ≤ i.weight + weight (merge rest) := weight_mergeFront_le i _
        _ ≤ i.weight + weight rest := Nat.add_le_add_left ih _

theorem weight_ofChar? {c : Char} {i : Instruction} (h : Instruction.ofChar? c = some i) :
    i.weight = if c ∈ ['>', '<', '+', '-'] then 1 else 0 := by
  unfold Instruction.ofChar? at h
  split at h <;> cases h <;> rfl

/-- Every character of a run weighs one. -/
theorem weight_readInstructions (text : List Char) :
    weight (readInstructions text) = text.countP (· ∈ ['>', '<', '+', '-']) := by
  induction text with
  | nil => rfl
  | cons c text ih =>
      cases hc : Instruction.ofChar? c with
      | none =>
          have hlight : c ∉ ['>', '<', '+', '-'] := by
            intro hmem
            have hcases : c = '>' ∨ c = '<' ∨ c = '+' ∨ c = '-' := by simpa using hmem
            rcases hcases with rfl | rfl | rfl | rfl <;> cases hc
          rw [readInstructions_cons_none hc, ih,
            List.countP_cons_of_neg (by simpa using hlight)]
      | some i =>
          rw [readInstructions_cons_some hc, weight, ih, weight_ofChar? hc, List.countP_cons,
            Nat.add_comm]
          simp only [decide_eq_true_eq]

theorem weight_readInstructions_le (text : List Char) :
    weight (readInstructions text) ≤ text.length := by
  rw [weight_readInstructions]
  exact List.countP_le_length

theorem weight_le_of_mem {i : Instruction} {program : List Instruction} (h : i ∈ program) :
    i.weight ≤ weight program := by
  induction program with
  | nil => cases h
  | cons j rest ih =>
      rw [weight]
      rcases List.mem_cons.mp h with rfl | hrest
      · omega
      · have hle := ih hrest
        omega

/-- The counts of a condensed text are bounded by its length. -/
theorem weight_le_length {i : Instruction} {text : List Char} (h : i ∈ condense text) :
    i.weight ≤ text.length := by
  rw [condense_eq_merge] at h
  calc i.weight
      ≤ weight (merge (readInstructions text)) := weight_le_of_mem h
    _ ≤ weight (readInstructions text) := weight_merge_le _
    _ ≤ text.length := weight_readInstructions_le text

end TapeMachine
