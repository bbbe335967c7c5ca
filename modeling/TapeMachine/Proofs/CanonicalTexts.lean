import TapeMachine.Content
import TapeMachine.Proofs.NormalForms
import TapeMachine.Proofs.Weights

/-!
# Canonical programs and their texts

Writing a canonical program down and condensing a text without commentary and cancelling
neighbours undo each other. So these programs are what condensing arrives at, and these texts
are the shortest that condense to them.
-/

namespace TapeMachine

variable {program : List Instruction} {text : List Char} {c e : Char} {i : Instruction}

/-! ## From programs to texts and back -/

theorem RunKind.ofChar?_up (k : RunKind) : Instruction.ofChar? k.up = some (k.instruction 1) := by
  cases k <;> rfl

theorem RunKind.ofChar?_down (k : RunKind) :
    Instruction.ofChar? k.down = some (k.instruction (-1)) := by cases k <;> rfl

theorem RunKind.eq_of_mem_sourceText {k : RunKind} {d : Int}
    (h : c ∈ (k.instruction d).sourceText) : c = k.up ∨ c = k.down := by
  rw [k.sourceText_instruction] at h
  rw [List.eq_of_mem_replicate h]
  split
  · exact .inl rfl
  · exact .inr rfl

theorem RunKind.net_sourceText (k : RunKind) (d : Int) :
    Condenser.net (k.instruction d).sourceText k.up k.down = d := by
  have hne : k.up ≠ k.down := by cases k <;> decide
  rw [k.sourceText_instruction, Condenser.net]
  split
  · rw [List.count_replicate_self, List.count_replicate]
    simp only [beq_iff_eq, hne, if_false]
    omega
  · rw [List.count_replicate_self, List.count_replicate]
    simp only [beq_iff_eq, hne.symm, if_false]
    omega

theorem Instruction.sourceText_marker (h : i.run? = none) :
    ∃ c, i.sourceText = [c] ∧ Instruction.ofChar? c = some i := by
  cases i with
  | moveBy d => cases h
  | addBy d => cases h
  | print => exact ⟨'.', rfl, rfl⟩
  | read => exact ⟨',', rfl, rfl⟩
  | loopStart => exact ⟨'[', rfl, rfl⟩
  | loopEnd => exact ⟨']', rfl, rfl⟩

theorem alike_sourceText_instruction (i : Instruction) :
    Alike (readInstructions i.sourceText) [i] := by
  rcases i.eq_run_or with ⟨k, d, rfl⟩ | hi
  · have hnet := Condenser.alike_net k k.up k.down _ k.ofChar?_up k.ofChar?_down
      (by cases k <;> decide) fun c hc => RunKind.eq_of_mem_sourceText (d := d) hc
    rwa [k.net_sourceText] at hnet
  · obtain ⟨c, htext, hread⟩ := Instruction.sourceText_marker hi
    rw [htext, readInstructions_cons_some hread]
    exact .refl _

theorem alike_sourceText (program : List Instruction) :
    Alike (readInstructions (sourceText program)) program := by
  induction program with
  | nil => exact .refl _
  | cons i program ih =>
      rw [sourceText_cons, readInstructions_append]
      exact (alike_sourceText_instruction i).append ih

theorem condense_sourceText (h : IsCanonical program) : condense (sourceText program) = program := by
  rw [condense_eq_merge, (alike_sourceText program).merge_eq, merge_eq_self h]

/-! ## Texts without cancelling neighbours -/

theorem isReduced_iff (text : List Char) :
    IsReduced text ↔ (∀ c ∈ text, (Instruction.ofChar? c).isSome) ∧
      text.IsChain fun c d => cancels c d = false := by
  induction text with
  | nil => simp [IsReduced]
  | cons c text ih =>
      rw [IsReduced, ih, List.isChain_cons]
      simp only [List.mem_cons, forall_eq_or_imp]
      tauto

/-- The characters of an instruction stand for instructions of its kind. -/
theorem ofChar?_of_mem_sourceText (h : c ∈ i.sourceText) :
    ∃ j, Instruction.ofChar? c = some j ∧ j.run?.map Prod.fst = i.run?.map Prod.fst := by
  rcases i.eq_run_or with ⟨k, d, rfl⟩ | hi
  · rcases RunKind.eq_of_mem_sourceText h with rfl | rfl
    · exact ⟨_, k.ofChar?_up, by simp⟩
    · exact ⟨_, k.ofChar?_down, by simp⟩
  · obtain ⟨d, htext, hread⟩ := Instruction.sourceText_marker hi
    rw [htext] at h
    exact ⟨i, List.mem_singleton.mp h ▸ hread, rfl⟩

/-- Characters that cancel come from runs of one kind. -/
theorem merges_of_cancels {j : Instruction} (hc : c ∈ i.sourceText) (he : e ∈ j.sourceText)
    (h : cancels c e = true) : i.merges j = true := by
  obtain ⟨k, d, hcread, heread⟩ := cancels_cases h
  have hrun : ∀ {c n i}, c ∈ Instruction.sourceText i →
      Instruction.ofChar? c = some (k.instruction n) → ∃ d, i = k.instruction d := by
    intro c n i hmem hread
    obtain ⟨j, hj, hkind⟩ := ofChar?_of_mem_sourceText hmem
    obtain rfl := Option.some.inj (hj.symm.trans hread)
    rcases i.eq_run_or with ⟨k', d, rfl⟩ | hi
    · obtain rfl : k = k' := by simpa using hkind
      exact ⟨d, rfl⟩
    · simp [hi] at hkind
  obtain ⟨d, rfl⟩ := hrun hc hcread
  obtain ⟨f, rfl⟩ := hrun he heread
  cases k <;> rfl

theorem isSome_ofChar?_of_mem_sourceText (h : c ∈ i.sourceText) :
    (Instruction.ofChar? c).isSome := by
  obtain ⟨j, hj, -⟩ := ofChar?_of_mem_sourceText h
  simp [hj]

theorem isReduced_sourceText_instruction (i : Instruction) : IsReduced i.sourceText := by
  refine (isReduced_iff _).mpr ⟨fun c => isSome_ofChar?_of_mem_sourceText, ?_⟩
  rcases i.eq_run_or with ⟨k, d, rfl⟩ | hi
  · rw [k.sourceText_instruction]
    refine List.isChain_replicate_of_rel _ ?_
    split <;> cases k <;> rfl
  · obtain ⟨c, htext, -⟩ := Instruction.sourceText_marker hi
    rw [htext]
    exact .singleton c

theorem sourceText_ne_nil (h : i.isIdle = false) : i.sourceText ≠ [] := by
  rcases i.eq_run_or with ⟨k, d, rfl⟩ | hi
  · have hd : d ≠ 0 := by simpa using h
    rw [k.sourceText_instruction]
    simpa using hd
  · obtain ⟨c, htext, -⟩ := Instruction.sourceText_marker hi
    simp [htext]

/-- The text of a program that is not empty begins with a character of its first instruction. -/
theorem mem_of_head?_sourceText (h : IsCanonical program) (hc : c ∈ (sourceText program).head?) :
    ∃ j ∈ program.head?, c ∈ j.sourceText := by
  cases program with
  | nil => cases hc
  | cons j program =>
      rw [sourceText_cons, List.head?_append_of_ne_nil _ (sourceText_ne_nil h.1)] at hc
      exact ⟨j, rfl, List.mem_of_mem_head? hc⟩

theorem isReduced_sourceText (h : IsCanonical program) : IsReduced (sourceText program) := by
  induction program with
  | nil => trivial
  | cons i program ih =>
      obtain ⟨-, hapart, hrest⟩ := h
      obtain ⟨hfirst, hchain⟩ := (isReduced_iff _).mp (isReduced_sourceText_instruction i)
      obtain ⟨hothers, hchain'⟩ := (isReduced_iff _).mp (ih hrest)
      rw [sourceText_cons, isReduced_iff, List.isChain_append]
      refine ⟨?_, hchain, hchain', ?_⟩
      · intro c hc
        rcases List.mem_append.mp hc with hc | hc
        · exact hfirst c hc
        · exact hothers c hc
      · intro c hc e he
        obtain ⟨j, hj, hej⟩ := mem_of_head?_sourceText hrest he
        have hmerges := hapart j hj
        by_contra hcancels
        rw [merges_of_cancels (List.mem_of_mem_getLast? hc) hej (by simpa using hcancels)]
          at hmerges
        cases hmerges

/-! ## Condensing reduced texts -/

/-- A character in front of the text of a canonical program either cancels or stays there. -/
theorem sourceText_mergeFront (hread : Instruction.ofChar? c = some i) (h : IsCanonical program)
    (hapart : ∀ e ∈ (sourceText program).head?, cancels c e = false) :
    sourceText (mergeFront i program) = c :: sourceText program := by
  rcases Instruction.ofChar?_cases hread with ⟨k, rfl, rfl⟩ | ⟨k, rfl, rfl⟩ | ⟨hi, htext⟩
  · rcases h.run_or_apart k with ⟨d, rest, rfl, -⟩ | hbegin
    · rw [sourceText_cons] at hapart ⊢
      rcases Int.lt_or_le d 0 with hd | hd
      · rw [k.sourceText_of_neg hd] at hapart
        exact absurd k.cancels_up_down (by simp [hapart k.down rfl])
      · rw [sourceText_mergeFront_run, k.sourceText_up hd]
        rfl
    · rw [sourceText_mergeFront_apart hbegin, k.sourceText_instruction]
      rfl
  · rcases h.run_or_apart k with ⟨d, rest, rfl, -⟩ | hbegin
    · rw [sourceText_cons] at hapart ⊢
      rcases Int.lt_or_le 0 d with hd | hd
      · rw [k.sourceText_of_pos hd] at hapart
        exact absurd k.cancels_down_up (by simp [hapart k.up rfl])
      · rw [sourceText_mergeFront_run, k.sourceText_down hd]
        rfl
    · rw [sourceText_mergeFront_apart hbegin, k.sourceText_instruction]
      rfl
  · rw [mergeFront_marker hi, sourceText_cons, htext]
    rfl

theorem sourceText_condense (h : IsReduced text) : sourceText (condense text) = text := by
  rw [condense_eq_merge]
  induction text with
  | nil => rfl
  | cons c text ih =>
      obtain ⟨hsome, hapart, hrest⟩ := h
      obtain ⟨i, hread⟩ := Option.isSome_iff_exists.mp hsome
      have hsame := ih hrest
      rw [← hsame] at hapart
      rw [readInstructions_cons_some hread, merge_cons, sourceText_mergeFront hread (isCanonical_merge _) hapart, hsame]

/-- What condensing yields is canonical and no heavier than the text, and its own text yields it
again. Canonical programs and texts without commentary and cancelling neighbours correspond to
each other: writing down and condensing are inverse there. -/
theorem sourceText_inverts_condense :
    (∀ source : Content, IsCanonical (condense source.units) ∧
      weight (condense source.units) ≤ source.units.countP (· ∈ ['>', '<', '+', '-']) ∧
      condense (sourceText (condense source.units)) = condense source.units) ∧
    (∀ program, IsCanonical program →
      condense (sourceText program) = program ∧ IsReduced (sourceText program)) ∧
    (∀ text, IsReduced text → sourceText (condense text) = text) := by
  refine ⟨fun source => ?_, fun program h => ⟨condense_sourceText h, isReduced_sourceText h⟩,
    fun text => sourceText_condense⟩
  have hcanonical := isCanonical_condense source.units
  refine ⟨hcanonical, ?_, condense_sourceText hcanonical⟩
  rw [condense_eq_merge, ← weight_readInstructions]
  exact weight_merge_le _

/-- The moves cancel, and then the additions meet. -/
example : sourceText (condense "+>x<+[-]".toList) = "++[-]".toList := by decide

end TapeMachine
