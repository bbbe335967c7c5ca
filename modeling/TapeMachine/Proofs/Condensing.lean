import Mathlib.Data.List.Chain
import TapeMachine.Proofs.Tokens

/-!
# What condensing computes

The pass over the tokens keeps two invariants: what is finished is canonical and does not end in
a run of the kind that is being counted, and in front of any canonical program it amounts to the
instructions read so far. So it arrives at the canonical program that `merge` builds from the
other end.
-/

namespace TapeMachine

namespace Instruction

/-- An instruction either counts a run or is one of the four that do not. -/
theorem eq_run_or (i : Instruction) : (∃ k d, i = RunKind.instruction k d) ∨ i.run? = none := by
  cases i with
  | moveBy d => exact .inl ⟨.move, d, rfl⟩
  | addBy d => exact .inl ⟨.add, d, rfl⟩
  | print => exact .inr rfl
  | read => exact .inr rfl
  | loopStart => exact .inr rfl
  | loopEnd => exact .inr rfl

theorem merges_comm (i j : Instruction) : i.merges j = j.merges i := by
  cases i <;> cases j <;> rfl

theorem merges_of_run?_eq_none {i : Instruction} (h : i.run? = none) (j : Instruction) :
    i.merges j = false := by
  cases i <;> simp_all [run?, merges]

theorem isIdle_of_run?_eq_none {i : Instruction} (h : i.run? = none) : i.isIdle = false := by
  cases i <;> simp_all [run?, isIdle]

end Instruction

namespace RunKind

@[simp] theorem run?_instruction (k : RunKind) (d : Int) : (k.instruction d).run? = some (k, d) := by
  cases k <;> rfl

@[simp] theorem isIdle_instruction (k : RunKind) (d : Int) :
    (k.instruction d).isIdle = decide (d = 0) := by
  cases k <;> rfl

@[simp] theorem instruction_inj {k l : RunKind} {d e : Int} :
    k.instruction d = l.instruction e ↔ k = l ∧ d = e := by
  cases k <;> cases l <;> simp [instruction]

theorem merges_instruction (k : RunKind) (d : Int) (j : Instruction) :
    (k.instruction d).merges j = false ↔ ∀ e, j ≠ k.instruction e := by
  cases k <;> cases j <;> simp [instruction, Instruction.merges]

end RunKind

/-! ## Canonical programs -/

/-- The program does not begin with a run of the kind. -/
def BeginsApart (k : RunKind) (program : List Instruction) : Prop :=
  ∀ d, program.head? ≠ some (k.instruction d)

theorem isCanonical_cons_run {k : RunKind} {d : Int} {rest : List Instruction} :
    IsCanonical (k.instruction d :: rest) ↔ d ≠ 0 ∧ BeginsApart k rest ∧ IsCanonical rest := by
  simp only [IsCanonical, RunKind.isIdle_instruction, decide_eq_false_iff_not,
    RunKind.merges_instruction, BeginsApart, Option.mem_def]
  cases rest with
  | nil => simp
  | cons j rest => simp

theorem isCanonical_cons_marker {i : Instruction} {rest : List Instruction} (h : i.run? = none) :
    IsCanonical (i :: rest) ↔ IsCanonical rest := by
  simp [IsCanonical, Instruction.isIdle_of_run?_eq_none h, Instruction.merges_of_run?_eq_none h]

theorem run_or_apart (k : RunKind) (program : List Instruction) :
    (∃ d rest, program = k.instruction d :: rest) ∨ BeginsApart k program := by
  by_cases hbegin : BeginsApart k program
  · exact .inr hbegin
  · left
    simp only [BeginsApart, ne_eq, not_forall, not_not] at hbegin
    obtain ⟨d, hd⟩ := hbegin
    obtain ⟨rest, rfl⟩ := List.head?_eq_some_iff.mp hd
    exact ⟨d, rest, rfl⟩

/-- A canonical program begins with a run of the kind, which is not empty, or apart from it. -/
theorem IsCanonical.run_or_apart {program : List Instruction} (h : IsCanonical program)
    (k : RunKind) :
    (∃ d rest, program = k.instruction d :: rest ∧ d ≠ 0 ∧ BeginsApart k rest ∧
      IsCanonical rest) ∨ BeginsApart k program := by
  rcases TapeMachine.run_or_apart k program with ⟨d, rest, rfl⟩ | hapart
  · exact .inl ⟨d, rest, rfl, isCanonical_cons_run.mp h⟩
  · exact .inr hapart

theorem beginsApart_marker {i : Instruction} (h : i.run? = none) (k : RunKind)
    (rest : List Instruction) : BeginsApart k (i :: rest) := by
  intro d hd
  have heq : i = k.instruction d := by simpa using hd
  rw [heq, RunKind.run?_instruction] at h
  cases h

theorem isCanonical_iff (program : List Instruction) :
    IsCanonical program ↔
      (∀ i ∈ program, i.isIdle = false) ∧ program.IsChain fun i j => i.merges j = false := by
  induction program with
  | nil => simp [IsCanonical]
  | cons i rest ih =>
      rw [IsCanonical, ih, List.isChain_cons]
      simp only [List.mem_cons, forall_eq_or_imp]
      tauto

theorem IsCanonical.reverse {program : List Instruction} (h : IsCanonical program) :
    IsCanonical program.reverse := by
  rw [isCanonical_iff] at h ⊢
  refine ⟨fun i hi => h.1 i (List.mem_reverse.mp hi), ?_⟩
  rw [List.isChain_reverse]
  exact h.2.imp fun i j hij => (Instruction.merges_comm j i).trans hij

/-! ## Merging from the front -/

theorem mergeFront_marker {i : Instruction} (h : i.run? = none) (program : List Instruction) :
    mergeFront i program = i :: program := by
  cases i <;> simp_all [Instruction.run?, mergeFront]

theorem mergeFront_run (k : RunKind) (d e : Int) (rest : List Instruction) :
    mergeFront (k.instruction d) (k.instruction e :: rest) =
      if d + e = 0 then rest else k.instruction (d + e) :: rest := by
  cases k <;> rfl

theorem mergeFront_apart {k : RunKind} {program : List Instruction} (h : BeginsApart k program)
    (d : Int) :
    mergeFront (k.instruction d) program =
      if d = 0 then program else k.instruction d :: program := by
  cases program with
  | nil => cases k <;> rfl
  | cons i rest =>
      have hi : ∀ e, i ≠ k.instruction e := by simpa [BeginsApart] using h
      cases k with
      | move => cases i <;> simp_all [mergeFront, RunKind.instruction]
      | add => cases i <;> simp_all [mergeFront, RunKind.instruction]

theorem isCanonical_mergeFront (i : Instruction) {program : List Instruction}
    (h : IsCanonical program) : IsCanonical (mergeFront i program) := by
  rcases i.eq_run_or with ⟨k, d, rfl⟩ | hi
  · rcases h.run_or_apart k with ⟨e, rest, rfl, -, hapart, hrest⟩ | hapart
    · rw [mergeFront_run]
      split_ifs with hzero
      · exact hrest
      · exact isCanonical_cons_run.mpr ⟨hzero, hapart, hrest⟩
    · rw [mergeFront_apart hapart]
      split_ifs with hzero
      · exact h
      · exact isCanonical_cons_run.mpr ⟨hzero, hapart, h⟩
  · rw [mergeFront_marker hi]
    exact (isCanonical_cons_marker hi).mpr h

/-- Counts of one kind add up. -/
theorem mergeFront_mergeFront (k : RunKind) (d e : Int) {program : List Instruction}
    (h : IsCanonical program) :
    mergeFront (k.instruction d) (mergeFront (k.instruction e) program) =
      mergeFront (k.instruction (d + e)) program := by
  rcases h.run_or_apart k with ⟨f, rest, rfl, -, hapart, -⟩ | hapart
  · rw [mergeFront_run, mergeFront_run]
    by_cases hzero : e + f = 0
    · have hsum : d + e + f = d := by omega
      rw [if_pos hzero, mergeFront_apart hapart, hsum]
    · rw [if_neg hzero, mergeFront_run, Int.add_assoc]
  · rw [mergeFront_apart hapart, mergeFront_apart hapart]
    by_cases hzero : e = 0
    · rw [if_pos hzero, mergeFront_apart hapart, hzero, Int.add_zero]
    · rw [if_neg hzero, mergeFront_run]

theorem mergeFront_zero (k : RunKind) {program : List Instruction} (h : IsCanonical program) :
    mergeFront (k.instruction 0) program = program := by
  rcases h.run_or_apart k with ⟨f, rest, rfl, hf, -, -⟩ | hapart
  · rw [mergeFront_run, Int.zero_add, if_neg hf]
  · rw [mergeFront_apart hapart, if_pos rfl]

theorem isCanonical_foldr (l : List Instruction) {program : List Instruction}
    (h : IsCanonical program) : IsCanonical (l.foldr mergeFront program) := by
  induction l with
  | nil => exact h
  | cons i l ih => exact isCanonical_mergeFront i ih

theorem isCanonical_merge (program : List Instruction) : IsCanonical (merge program) :=
  isCanonical_foldr program trivial

theorem merge_cons (i : Instruction) (program : List Instruction) :
    merge (i :: program) = mergeFront i (merge program) := rfl

theorem merge_marker {i : Instruction} (h : i.run? = none) (program : List Instruction) :
    merge (i :: program) = i :: merge program :=
  mergeFront_marker h _

/-- A canonical program is its own normal form. -/
theorem merge_eq_self {program : List Instruction} (h : IsCanonical program) :
    merge program = program := by
  induction program with
  | nil => rfl
  | cons i rest ih =>
      rcases i.eq_run_or with ⟨k, d, rfl⟩ | hi
      · obtain ⟨hd, hapart, hrest⟩ := isCanonical_cons_run.mp h
        rw [merge_cons, ih hrest, mergeFront_apart hapart, if_neg hd]
      · rw [merge_marker hi, ih ((isCanonical_cons_marker hi).mp h)]

/-! ## Stretches that amount to the same -/

/-- In front of any canonical program both stretches amount to the same. -/
def Alike (l m : List Instruction) : Prop :=
  ∀ program, IsCanonical program → l.foldr mergeFront program = m.foldr mergeFront program

namespace Alike

variable {l m p q : List Instruction}

theorem refl (l : List Instruction) : Alike l l := fun _ _ => rfl

theorem trans (h : Alike l m) (h' : Alike m p) : Alike l p :=
  fun program hp => (h program hp).trans (h' program hp)

theorem symm (h : Alike l m) : Alike m l := fun program hp => (h program hp).symm

theorem append (h : Alike l m) (h' : Alike p q) : Alike (l ++ p) (m ++ q) := by
  intro program hp
  rw [List.foldr_append, List.foldr_append, ← h' program hp]
  exact h _ (isCanonical_foldr p hp)

theorem run_zero (k : RunKind) : Alike [k.instruction 0] [] :=
  fun _ hp => mergeFront_zero k hp

theorem run_add (k : RunKind) (d e : Int) :
    Alike [k.instruction d, k.instruction e] [k.instruction (d + e)] :=
  fun _ hp => mergeFront_mergeFront k d e hp

theorem merge_eq (h : Alike l m) : merge l = merge m := h [] trivial

end Alike

/-! ## The pass over the tokens -/

namespace Condenser

/-- All that has been read so far, the pending run included. -/
def written (c : Condenser) : List Instruction :=
  c.finished.reverse ++ (c.pending.map fun run => run.1.instruction run.2).toList

/-- What is finished is canonical, and the pending run could not have gone on from its end. -/
structure IsSound (c : Condenser) : Prop where
  canonical : IsCanonical c.finished
  apart : ∀ run ∈ c.pending, BeginsApart run.1 c.finished

theorem isSound_start : start.IsSound := ⟨trivial, by simp [start]⟩

theorem IsSound.flush {c : Condenser} (h : c.IsSound) : IsCanonical c.flush := by
  obtain ⟨finished, _ | ⟨k, d⟩⟩ := c
  · exact h.canonical
  · simp only [Condenser.flush]
    split_ifs with hzero
    · exact h.canonical
    · exact isCanonical_cons_run.mpr ⟨hzero, h.apart (k, d) rfl, h.canonical⟩

theorem alike_flush (c : Condenser) : Alike c.flush.reverse c.written := by
  obtain ⟨finished, _ | ⟨k, d⟩⟩ := c
  · simpa [Condenser.flush, written] using Alike.refl finished.reverse
  · simp only [Condenser.flush, written, Option.map_some, Option.toList_some]
    split_ifs with hzero
    · subst hzero
      simpa using (Alike.refl finished.reverse).append (Alike.run_zero k).symm
    · simpa using Alike.refl (finished.reverse ++ [k.instruction d])

/-- Resuming takes back a last run of the same kind, or else starts a new one from zero. -/
theorem resume_cases (k : RunKind) {l : List Instruction} (h : IsCanonical l) :
    (∃ d rest, l = k.instruction d :: rest ∧ BeginsApart k rest ∧ IsCanonical rest ∧
      resume k l = ⟨rest, some (k, d)⟩) ∨
    (BeginsApart k l ∧ resume k l = ⟨l, some (k, 0)⟩) := by
  rcases h.run_or_apart k with ⟨d, rest, rfl, -, hapart, hrest⟩ | hapart
  · exact .inl ⟨d, rest, rfl, hapart, hrest, by simp [resume]⟩
  · refine .inr ⟨hapart, ?_⟩
    cases l with
    | nil => rfl
    | cons i rest =>
        rcases i.eq_run_or with ⟨k', d, rfl⟩ | hi
        · have hne : k' ≠ k := by
            rintro rfl
            exact hapart d rfl
          simp [resume, hne]
        · simp [resume, hi]

theorem isSound_resume (k : RunKind) {l : List Instruction} (h : IsCanonical l) :
    (resume k l).IsSound := by
  rcases resume_cases k h with ⟨d, rest, -, hapart, hrest, heq⟩ | ⟨hapart, heq⟩
  · rw [heq]
    exact ⟨hrest, by simpa using hapart⟩
  · rw [heq]
    exact ⟨h, by simpa using hapart⟩

theorem alike_resume (k : RunKind) {l : List Instruction} (h : IsCanonical l) :
    Alike (resume k l).written l.reverse := by
  rcases resume_cases k h with ⟨d, rest, rfl, -, -, heq⟩ | ⟨-, heq⟩
  · rw [heq]
    simpa [written] using Alike.refl (rest.reverse ++ [k.instruction d])
  · rw [heq]
    simpa [written] using (Alike.refl l.reverse).append (Alike.run_zero k)

theorem exists_pending_resume (k : RunKind) (l : List Instruction) :
    ∃ d, (resume k l).pending = some (k, d) := by
  rw [resume.eq_def]
  split
  · exact ⟨0, rfl⟩
  · split
    · split_ifs
      · exact ⟨_, rfl⟩
      · exact ⟨0, rfl⟩
    · exact ⟨0, rfl⟩

/-- Switching either changes nothing, or it resumes from what is finished. -/
theorem switch_cases (c : Condenser) (k : RunKind) :
    (c.switch k = c ∧ ∃ d, c.pending = some (k, d)) ∨ c.switch k = resume k c.flush := by
  obtain ⟨finished, _ | ⟨k', d⟩⟩ := c
  · exact .inr rfl
  · by_cases hk : k' = k
    · subst hk
      exact .inl ⟨by simp [switch], d, rfl⟩
    · exact .inr (by simp [switch, hk])

theorem IsSound.switch {c : Condenser} (h : c.IsSound) (k : RunKind) : (c.switch k).IsSound := by
  rcases c.switch_cases k with ⟨heq, -⟩ | heq
  · rwa [heq]
  · rw [heq]
    exact isSound_resume k h.flush

theorem IsSound.alike_switch {c : Condenser} (h : c.IsSound) (k : RunKind) :
    Alike (c.switch k).written c.written := by
  rcases c.switch_cases k with ⟨heq, -⟩ | heq
  · rw [heq]
    exact .refl _
  · rw [heq]
    exact (alike_resume k h.flush).trans (alike_flush c)

theorem exists_pending_switch (c : Condenser) (k : RunKind) :
    ∃ d, (c.switch k).pending = some (k, d) := by
  rcases c.switch_cases k with ⟨heq, hpending⟩ | heq
  · rwa [heq]
  · rw [heq]
    exact exists_pending_resume k c.flush

theorem IsSound.count {c : Condenser} (h : c.IsSound) (k : RunKind) (n : Int) :
    (c.count k n).IsSound := by
  have hswitch := h.switch k
  refine ⟨hswitch.canonical, ?_⟩
  intro run hrun
  obtain ⟨old, hold, rfl⟩ := Option.map_eq_some_iff.mp hrun
  exact hswitch.apart old hold

theorem IsSound.alike_count {c : Condenser} (h : c.IsSound) (k : RunKind) (n : Int) :
    Alike (c.count k n).written (c.written ++ [k.instruction n]) := by
  obtain ⟨d, hd⟩ := c.exists_pending_switch k
  have hcount : (c.count k n).written = (c.switch k).finished.reverse ++ [k.instruction (d + n)] := by
    simp [Condenser.count, written, hd]
  have hwritten : (c.switch k).written = (c.switch k).finished.reverse ++ [k.instruction d] := by
    simp [written, hd]
  have hadd : Alike (c.count k n).written ((c.switch k).written ++ [k.instruction n]) := by
    rw [hcount, hwritten, List.append_assoc]
    exact (Alike.refl _).append (Alike.run_add k d n).symm
  exact hadd.trans ((h.alike_switch k).append (Alike.refl _))

theorem IsSound.mark {c : Condenser} (h : c.IsSound) {i : Instruction} (hi : i.run? = none) :
    (c.mark i).IsSound :=
  ⟨(isCanonical_cons_marker hi).mpr h.flush, by simp [Condenser.mark]⟩

theorem alike_mark (c : Condenser) (i : Instruction) :
    Alike (c.mark i).written (c.written ++ [i]) := by
  simpa [Condenser.mark, written] using (alike_flush c).append (Alike.refl [i])

/-- A run of characters that count up or down by one amounts to its net count. -/
theorem alike_net (k : RunKind) (up down : Char) (text : List Char)
    (hup : Instruction.ofChar? up = some (k.instruction 1))
    (hdown : Instruction.ofChar? down = some (k.instruction (-1))) (hne : up ≠ down)
    (h : ∀ c ∈ text, c = up ∨ c = down) :
    Alike (readInstructions text) [k.instruction (net text up down)] := by
  induction text with
  | nil => exact (Alike.run_zero k).symm
  | cons c text ih =>
      have htail := ih fun d hd => h d (List.mem_cons_of_mem c hd)
      rcases h c (by simp) with rfl | rfl
      · have hnet : net (c :: text) c down = 1 + net text c down := by
          simp [net, hne]
          omega
        rw [readInstructions_cons_some hup, hnet]
        exact ((Alike.refl [_]).append htail).trans (Alike.run_add k 1 _)
      · have hnet : net (c :: text) up c = -1 + net text up c := by
          simp [net, hne.symm]
          omega
        rw [readInstructions_cons_some hdown, hnet]
        exact ((Alike.refl [_]).append htail).trans (Alike.run_add k (-1) _)

theorem IsSound.take {c : Condenser} (h : c.IsSound) (t : Token) : (c.take t).IsSound := by
  rw [Condenser.take.eq_def]
  split
  · exact h.count .move _
  · exact h.count .add _
  · exact h.mark rfl
  · exact h.mark rfl
  · exact h.mark rfl
  · exact h.mark rfl

theorem IsSound.alike_take {c : Condenser} (h : c.IsSound) {t : Token} (ht : t.IsUniform) :
    Alike (c.take t).written (c.written ++ readInstructions t.text) := by
  obtain ⟨kind, offset, text⟩ := t
  cases kind with
  | move =>
      have hnet := alike_net .move '>' '<' text rfl rfl (by decide)
        fun d hd => Token.eq_of_move (ht.kind_eq d hd)
      exact (h.alike_count .move _).trans ((Alike.refl _).append hnet.symm)
  | delta =>
      have hnet := alike_net .add '+' '-' text rfl rfl (by decide)
        fun d hd => Token.eq_of_delta (ht.kind_eq d hd)
      exact (h.alike_count .add _).trans ((Alike.refl _).append hnet.symm)
  | print => exact ht.readInstructions_marker rfl ▸ alike_mark c .print
  | read => exact ht.readInstructions_marker rfl ▸ alike_mark c .read
  | loopStart => exact ht.readInstructions_marker rfl ▸ alike_mark c .loopStart
  | loopEnd => exact ht.readInstructions_marker rfl ▸ alike_mark c .loopEnd

/-- Both invariants hold after any number of tokens. -/
theorem IsSound.foldl {tokens : List Token} (ht : ∀ t ∈ tokens, t.IsUniform) {c : Condenser}
    (h : c.IsSound) :
    (tokens.foldl Condenser.take c).IsSound ∧
      Alike (tokens.foldl Condenser.take c).written
        (c.written ++ readInstructions (tokens.flatMap Token.text)) := by
  induction tokens generalizing c with
  | nil => exact ⟨h, by simpa [readInstructions] using Alike.refl c.written⟩
  | cons t tokens ih =>
      obtain ⟨hsound, halike⟩ := ih (fun u hu => ht u (List.mem_cons_of_mem t hu)) (h.take t)
      refine ⟨hsound, halike.trans ?_⟩
      rw [List.flatMap_cons, readInstructions_append, ← List.append_assoc]
      exact (h.alike_take (ht t (by simp))).append (Alike.refl _)

end Condenser

theorem isCanonical_condense (text : List Char) : IsCanonical (condense text) :=
  (Condenser.isSound_start.foldl (Token.uniform_scanFrom 0 text)).1.flush.reverse

/-- The pass over the tokens yields the normal form of the instructions one by one. -/
theorem condense_eq_merge (text : List Char) :
    condense text = merge (readInstructions text) := by
  have hfold := (Condenser.isSound_start.foldl (Token.uniform_scanFrom 0 text)).2
  have halike : Alike (condense text) (readInstructions text) := by
    refine (Condenser.alike_flush _).trans (hfold.trans ?_)
    have hscan := readInstructions_scan text
    rw [Token.scan] at hscan
    rw [hscan]
    exact .refl _
  calc
    condense text = merge (condense text) := (merge_eq_self (isCanonical_condense text)).symm
    _ = merge (readInstructions text) := halike.merge_eq

/-! ## What condensing leaves alone -/

theorem filter_mergeFront (i : Instruction) (program : List Instruction) :
    (mergeFront i program).filter (·.run?.isNone) = (i :: program).filter (·.run?.isNone) := by
  rcases i.eq_run_or with ⟨k, d, rfl⟩ | hi
  · rcases run_or_apart k program with ⟨e, rest, rfl⟩ | hapart
    · rw [mergeFront_run]
      split_ifs <;> simp
    · rw [mergeFront_apart hapart]
      split_ifs <;> simp
  · rw [mergeFront_marker hi]

/-- Every instruction without a count is kept, and so is their order. -/
theorem filter_condense (text : List Char) :
    (condense text).filter (·.run?.isNone) =
      (readInstructions text).filter (·.run?.isNone) := by
  rw [condense_eq_merge]
  induction readInstructions text with
  | nil => rfl
  | cons i program ih =>
      rw [merge_cons, filter_mergeFront, List.filter_cons, List.filter_cons, ih]

theorem mem_condense_iff {i : Instruction} (hi : i.run? = none) (text : List Char) :
    i ∈ condense text ↔ i ∈ readInstructions text := by
  have hmarker : ∀ l : List Instruction, i ∈ l ↔ i ∈ l.filter (·.run?.isNone) := by
    intro l
    simp [hi]
  rw [hmarker, filter_condense, ← hmarker]

end TapeMachine
