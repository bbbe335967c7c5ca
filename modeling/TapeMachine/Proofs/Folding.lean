import TapeMachine.Proofs.Brackets
import TapeMachine.Proofs.Condensing
import TapeMachine.Proofs.Faults
import TapeMachine.Proofs.StructuredRuns

/-!
# Condensing keeps the meaning

Condensing a balanced program condenses the blocks between its brackets, one leaf after the other
from the end. A run of moves that never leaves the tape goes where the net move goes, so whatever
the unfolded block comes to, leaving the tape apart, the condensed block comes to as well, in as
many steps or fewer. Conversely the unfolded block comes to the result of the condensed one unless
it leaves the tape before.
-/

namespace TapeMachine

open Structured

namespace RunKind

def action : RunKind → Int → Action
  | .move, d => .move d
  | .add, d => .add d

theorem instruction_action (k : RunKind) (d : Int) : (k.action d).instruction = k.instruction d := by
  cases k <;> rfl

end RunKind

namespace Structured

theorem Action.eq_run_or (a : Action) :
    (∃ k d, a = RunKind.action k d) ∨ a.instruction.run? = none := by
  cases a with
  | move d => exact .inl ⟨.move, d, rfl⟩
  | add d => exact .inl ⟨.add, d, rfl⟩
  | print => exact .inr rfl
  | read => exact .inr rfl

/-! ## Condensing blocks -/

/-- Put an action in front of a block, merging counts of one kind. -/
def mergeLeaf : Action → Block Action → Block Action
  | .move d, .leaf (.move e) rest => if d + e = 0 then rest else .leaf (.move (d + e)) rest
  | .add d, .leaf (.add e) rest => if d + e = 0 then rest else .leaf (.add (d + e)) rest
  | .move d, b => if d = 0 then b else .leaf (.move d) b
  | .add d, b => if d = 0 then b else .leaf (.add d) b
  | a, b => .leaf a b

/-- The block with the net counts between its brackets. -/
def mergeBlock : Block Action → Block Action
  | .done => .done
  | .leaf a rest => mergeLeaf a (mergeBlock rest)
  | .loop body rest => .loop (mergeBlock body) (mergeBlock rest)

theorem mergeLeaf_run (k : RunKind) (d e : Int) (rest : Block Action) :
    mergeLeaf (k.action d) (.leaf (k.action e) rest) =
      if d + e = 0 then rest else .leaf (k.action (d + e)) rest := by
  cases k <;> rfl

theorem mergeLeaf_marker {a : Action} (ha : a.instruction.run? = none) (b : Block Action) :
    mergeLeaf a b = .leaf a b := by
  cases a <;> simp_all [mergeLeaf, Action.instruction, Instruction.run?]

/-- A block begins with a count of the kind, or nothing in it merges with one. -/
theorem mergeLeaf_cases (k : RunKind) (b : Block Action) :
    (∃ e rest, b = .leaf (k.action e) rest) ∨
      (BeginsApart k (program b) ∧
        ∀ d, mergeLeaf (k.action d) b = if d = 0 then b else .leaf (k.action d) b) := by
  cases b with
  | done => exact .inr ⟨by simp [BeginsApart], fun d => by cases k <;> rfl⟩
  | loop body rest =>
      exact .inr ⟨by cases k <;> simp [BeginsApart, RunKind.instruction],
        fun d => by cases k <;> rfl⟩
  | leaf a rest =>
      rcases a.eq_run_or with ⟨l, e, rfl⟩ | ha
      · by_cases hkl : l = k
        · subst hkl
          exact .inl ⟨e, rest, rfl⟩
        · refine .inr ⟨?_, fun d => ?_⟩
          · simp [BeginsApart, RunKind.instruction_action, hkl]
          · cases k <;> cases l <;> simp_all [mergeLeaf, RunKind.action]
      · refine .inr ⟨beginsApart_marker ha k _, fun d => ?_⟩
        cases k <;> cases a <;>
          simp_all [mergeLeaf, RunKind.action, Action.instruction, Instruction.run?]

theorem program_mergeLeaf (a : Action) (b : Block Action) :
    program (mergeLeaf a b) = mergeFront a.instruction (program b) := by
  rcases a.eq_run_or with ⟨k, d, rfl⟩ | ha
  · rw [RunKind.instruction_action]
    rcases mergeLeaf_cases k b with ⟨e, rest, rfl⟩ | ⟨hapart, hmerge⟩
    · rw [mergeLeaf_run, program_leaf, RunKind.instruction_action, mergeFront_run]
      split_ifs with hzero
      · rfl
      · rw [program_leaf, RunKind.instruction_action]
    · rw [hmerge, mergeFront_apart hapart]
      split_ifs with hzero
      · rfl
      · rw [program_leaf, RunKind.instruction_action]
  · rw [mergeLeaf_marker ha, mergeFront_marker ha, program_leaf]

end Structured

theorem mergeFront_append_marker {i : Instruction} (hi : i.run? = none) (j : Instruction)
    (l rest : List Instruction) :
    mergeFront j (l ++ i :: rest) = mergeFront j l ++ i :: rest := by
  rcases j.eq_run_or with ⟨k, d, rfl⟩ | hj
  · rcases run_or_apart k l with ⟨e, l, rfl⟩ | hapart
    · rw [List.cons_append, mergeFront_run, mergeFront_run]
      split_ifs <;> rfl
    · have hlong : BeginsApart k (l ++ i :: rest) := by
        cases l with
        | nil => exact beginsApart_marker hi k rest
        | cons j l => exact hapart
      rw [mergeFront_apart hlong, mergeFront_apart hapart]
      split_ifs <;> rfl
  · rw [mergeFront_marker hj, mergeFront_marker hj]
    rfl

/-- What stands before an instruction without a count is condensed on its own. -/
theorem merge_append_marker {i : Instruction} (hi : i.run? = none) (l rest : List Instruction) :
    merge (l ++ i :: rest) = merge l ++ i :: merge rest := by
  induction l with
  | nil => exact merge_marker hi rest
  | cons j l ih =>
      rw [List.cons_append, merge_cons, ih, mergeFront_append_marker hi]
      rfl

namespace Structured

/-- Condensing a flat program is condensing its block. -/
theorem program_mergeBlock (b : Block Action) : program (mergeBlock b) = merge (program b) := by
  induction b with
  | done => rfl
  | leaf a rest ih => rw [mergeBlock, program_mergeLeaf, ih, program_leaf, merge_cons]
  | loop body rest ihb ihr =>
      rw [mergeBlock, program_loop, program_loop, ihb, ihr, List.cons_append, List.cons_append,
        merge_marker rfl, merge_append_marker rfl]

/-! ## What merged actions do -/

variable {s t : Store}

theorem Store.setCell_setCell (s : Store) (x y : UInt8) :
    (s.setCell x).setCell y = s.setCell y := by
  simp only [Store.setCell, Store.mk.injEq, and_self, and_true]
  funext i
  split_ifs <;> rfl

theorem Store.setCell_cell (s : Store) : s.setCell s.cell = s := by
  have hcells : (fun i => if i = s.pointer then s.cell else s.cells i) = s.cells := by
    funext i
    split_ifs with hi
    · rw [hi]
      rfl
    · rfl
  rw [Store.setCell, hcells]

theorem Store.cell_setCell (s : Store) (x : UInt8) : (s.setCell x).cell = x := by
  simp [Store.cell, Store.setCell]

theorem apply_add (d : Int) (s : Store) :
    (Action.add d).apply s = .ok (s.setCell (s.cell + UInt8.ofInt d)) := by
  rw [Action.apply, Machine.ofNat_add_emod]

/-- A move that succeeds ends on the tape. -/
theorem apply_move_eq_ok {d : Int} (h : (Action.move d).apply s = .ok t) :
    (0 ≤ (s.pointer : Int) + d ∧ (s.pointer : Int) + d < tapeLength) ∧
      t = { s with pointer := ((s.pointer : Int) + d).toNat } := by
  rw [Action.apply] at h
  split_ifs at h with hbounds
  · cases h
    exact ⟨hbounds, rfl⟩

/-- Two actions of a kind, the first of which succeeds, do what one does with the net count. -/
theorem apply_run_add (k : RunKind) {d : Int} (e : Int) (h : (k.action d).apply s = .ok t) :
    (k.action e).apply t = (k.action (d + e)).apply s := by
  cases k with
  | move =>
      obtain ⟨hbounds, rfl⟩ := apply_move_eq_ok h
      have hpointer : ((((s.pointer : Int) + d).toNat : Nat) : Int) + e = s.pointer + (d + e) := by
        omega
      simp only [RunKind.action, Action.apply, hpointer]
  | add =>
      simp only [RunKind.action, apply_add] at h ⊢
      cases h
      rw [Store.cell_setCell, Store.setCell_setCell, UInt8.ofInt_add, UInt8.add_assoc]

/-- An action with an empty count changes nothing, if it succeeds. -/
theorem apply_run_zero (k : RunKind) (s : Store) :
    (k.action 0).apply s = .ok s ∨ (k.action 0).apply s = .error .outOfBounds := by
  cases k with
  | move =>
      simp only [RunKind.action, Action.apply]
      split_ifs
      · exact .inl (by simp)
      · exact .inr rfl
  | add =>
      left
      have hzero : s.cell + UInt8.ofInt 0 = s.cell := UInt8.add_zero s.cell
      simp only [RunKind.action, apply_add, hzero, Store.setCell_cell]

theorem eq_of_apply_run_zero {k : RunKind} (h : (k.action 0).apply s = .ok t) : t = s := by
  rcases apply_run_zero k s with hok | herror
  · rw [hok] at h
    exact (Except.ok.inj h).symm
  · rw [herror] at h
    cases h

theorem apply_run_eq_error {k : RunKind} {d : Int} {fault : Machine.Fault}
    (h : (k.action d).apply s = .error fault) : fault = .outOfBounds := by
  cases k with
  | move =>
      simp only [RunKind.action, Action.apply] at h
      split_ifs at h
      exact (Except.error.inj h).symm
  | add => cases h

/-! ## Condensed blocks come to the same results -/

variable {n : Nat} {r : Except Machine.Fault Store}

/-- An action merged into a block that comes to a result does so itself. -/
theorem yields_mergeLeaf {a : Action} {b : Block Action} (happly : a.apply s = .ok t)
    (h : Yields b t n r) (hr : r ≠ .error .outOfBounds) :
    ∃ n', n' ≤ n + 1 ∧ Yields (mergeLeaf a b) s n' r := by
  rcases a.eq_run_or with ⟨k, d, rfl⟩ | ha
  · rcases mergeLeaf_cases k b with ⟨e, rest, rfl⟩ | ⟨-, hmerge⟩
    · rw [mergeLeaf_run]
      have hnet := apply_run_add k e happly
      -- From where the second count was added, the net count leads to the same store.
      cases h with
      | leaf first next =>
          rw [hnet] at first
          split_ifs with hzero
          · rw [hzero] at first
            rw [eq_of_apply_run_zero first] at next
            exact ⟨_, by omega, next⟩
          · exact ⟨_, by omega, .leaf first next⟩
      | fail first => exact (hr (by rw [apply_run_eq_error first])).elim
    · rw [hmerge]
      split_ifs with hzero
      · rw [hzero] at happly
        rw [eq_of_apply_run_zero happly] at h
        exact ⟨n, by omega, h⟩
      · exact ⟨n + 1, le_refl _, .leaf happly h⟩
  · rw [mergeLeaf_marker ha]
    exact ⟨n + 1, le_refl _, .leaf happly h⟩

/-- An action that fails otherwise than by leaving the tape is not merged. -/
theorem mergeLeaf_of_error {a : Action} {fault : Machine.Fault} (happly : a.apply s = .error fault)
    (hfault : fault ≠ .outOfBounds) (b : Block Action) : mergeLeaf a b = .leaf a b := by
  rcases a.eq_run_or with ⟨k, d, rfl⟩ | ha
  · exact (hfault (apply_run_eq_error happly)).elim
  · exact mergeLeaf_marker ha b

/-- Unless the block leaves the tape, the condensed block comes to the same result, in as many
steps or fewer. -/
theorem yields_mergeBlock {b : Block Action} (h : Yields b s n r)
    (hr : r ≠ .error .outOfBounds) : ∃ n', n' ≤ n ∧ Yields (mergeBlock b) s n' r := by
  induction h with
  | done s => exact ⟨0, le_refl _, .done s⟩
  | leaf first _ ih =>
      obtain ⟨n', hn', hrest⟩ := ih hr
      obtain ⟨n'', hn'', hmerged⟩ := yields_mergeLeaf first hrest hr
      exact ⟨n'', by omega, hmerged⟩
  | fail first =>
      rw [mergeBlock, mergeLeaf_of_error first fun hfault => hr (by rw [hfault])]
      exact ⟨0, le_refl _, .fail first⟩
  | leave closed _ ih =>
      obtain ⟨n', hn', hrest⟩ := ih hr
      exact ⟨n' + 1, by omega, .leave closed hrest⟩
  | enter opened _ _ ihOnce ihAgain =>
      obtain ⟨k', hk', hbody⟩ := ihOnce (by simp)
      obtain ⟨n', hn', hloop⟩ := ihAgain hr
      exact ⟨n' + k' + 1, by omega, .enter opened hbody hloop⟩
  | broken opened _ ih =>
      obtain ⟨k', hk', hbody⟩ := ih hr
      exact ⟨k' + 1, by omega, .broken opened hbody⟩
  | refused failed => cases failed

/-! ## Unfolded blocks come to results too -/

/-- Wherever the second block comes to a result, the first comes to the same or leaves the tape. -/
def Follows (b c : Block Action) : Prop :=
  ∀ {s n r}, Yields c s n r → ∃ n' r', Yields b s n' r' ∧ (r' = r ∨ r' = .error .outOfBounds)

/-- Behind an action that succeeds, the block itself comes to what it comes to when the action is
merged into it, or leaves the tape. -/
theorem yields_of_mergeLeaf {a : Action} {b : Block Action} (happly : a.apply s = .ok t)
    (h : Yields (mergeLeaf a b) s n r) :
    ∃ n' r', Yields b t n' r' ∧ (r' = r ∨ r' = .error .outOfBounds) := by
  have hleaf : ∀ {c : Block Action}, Yields (.leaf a c) s n r → ∃ n', Yields c t n' r := by
    intro c hc
    cases hc with
    | leaf first next =>
        rw [happly] at first
        cases first
        exact ⟨_, next⟩
    | fail first =>
        rw [happly] at first
        cases first
  rcases a.eq_run_or with ⟨k, d, rfl⟩ | ha
  · rcases mergeLeaf_cases k b with ⟨e, rest, rfl⟩ | ⟨-, hmerge⟩
    · rw [mergeLeaf_run] at h
      have hnet := apply_run_add k e happly
      split_ifs at h with hzero
      -- The counts cancel. Only from outside the tape would the empty move that is left fail.
      · rw [hzero] at hnet
        rcases apply_run_zero k s with hok | herror
        · exact ⟨n + 1, r, .leaf (hnet.trans hok) h, .inl rfl⟩
        · exact ⟨0, _, .fail (hnet.trans herror), .inr rfl⟩
      · cases h with
        | leaf first next => exact ⟨_, r, .leaf (hnet.trans first) next, .inl rfl⟩
        | fail first => exact ⟨_, _, .fail (hnet.trans first), .inl rfl⟩
    · rw [hmerge] at h
      split_ifs at h with hzero
      · rw [hzero] at happly
        rw [eq_of_apply_run_zero happly]
        exact ⟨n, r, h, .inl rfl⟩
      · obtain ⟨n', hb⟩ := hleaf h
        exact ⟨n', r, hb, .inl rfl⟩
  · rw [mergeLeaf_marker ha] at h
    obtain ⟨n', hb⟩ := hleaf h
    exact ⟨n', r, hb, .inl rfl⟩

/-- A loop follows another if its body and what stands behind it do. The induction is on the
evaluation of the other loop. -/
theorem Follows.loop {body rest body' rest' : Block Action} (hbody : Follows body body')
    (hrest : Follows rest rest') : Follows (.loop body rest) (.loop body' rest') := by
  intro s n r h
  generalize hc : Block.loop body' rest' = c at h
  induction h with
  | done s => cases hc
  | leaf => cases hc
  | fail => cases hc
  | leave closed next =>
      cases hc
      obtain ⟨n', r', hyields, hr⟩ := hrest next
      exact ⟨n' + 1, r', .leave closed hyields, hr⟩
  | enter opened once _ _ ihAgain =>
      cases hc
      obtain ⟨k', r', honce, rfl | rfl⟩ := hbody once
      · obtain ⟨n', r'', hagain, hr⟩ := ihAgain rfl
        exact ⟨n' + k' + 1, r'', .enter opened honce hagain, hr⟩
      · exact ⟨k' + 1, _, .broken opened honce, .inr rfl⟩
  | broken opened once =>
      cases hc
      obtain ⟨k', r', honce, rfl | rfl⟩ := hbody once
      · exact ⟨k' + 1, _, .broken opened honce, .inl rfl⟩
      · exact ⟨k' + 1, _, .broken opened honce, .inr rfl⟩
  | refused failed => cases failed

/-- A block comes to the result of the condensed block unless it leaves the tape. -/
theorem follows_mergeBlock (b : Block Action) : Follows b (mergeBlock b) := by
  induction b with
  | done => exact fun h => ⟨_, _, h, .inl rfl⟩
  | loop body rest ihb ihr => exact ihb.loop ihr
  | leaf a rest ih =>
      intro s n r h
      cases happly : a.apply s with
      | ok t =>
          obtain ⟨n', r', hmerged, hr'⟩ := yields_of_mergeLeaf happly h
          obtain ⟨n'', r'', hrest, hr''⟩ := ih hmerged
          refine ⟨n'' + 1, r'', .leaf happly hrest, ?_⟩
          rcases hr'' with rfl | rfl
          · exact hr'
          · exact .inr rfl
      | error fault =>
          by_cases hfault : fault = .outOfBounds
          · exact ⟨0, _, .fail happly, .inr (by rw [hfault])⟩
          · rw [mergeBlock, mergeLeaf_of_error happly hfault] at h
            cases h with
            | leaf first next =>
                rw [happly] at first
                cases first
            | fail first => exact ⟨0, _, .fail first, .inl rfl⟩

/-! ## Runs of condensed programs -/

variable {b : Block Action} {input : List UInt8}

theorem runs_mergeBlock_ok (h : Runs b input n (.ok t)) :
    ∃ n', n' ≤ n ∧ Runs (mergeBlock b) input n' (.ok t) := by
  obtain ⟨n', hn', hmerged⟩ := yields_mergeBlock (yields_of_runs h) (by simp [faultOnly])
  obtain ⟨x, hruns, hx⟩ := runs_of_yields hmerged
  exact ⟨n', hn', eq_ok_of_faultOnly hx ▸ hruns⟩

theorem runs_mergeBlock_inputExhausted {i : Nat}
    (h : Runs b input n (.error (i, .inputExhausted))) :
    ∃ n' j, Runs (mergeBlock b) input n' (.error (j, .inputExhausted)) := by
  obtain ⟨n', -, hmerged⟩ := yields_mergeBlock (yields_of_runs h) (by simp [faultOnly])
  obtain ⟨x, hruns, hx⟩ := runs_of_yields hmerged
  obtain ⟨j, rfl⟩ := eq_error_of_faultOnly hx
  exact ⟨n', j, hruns⟩

/-- What the condensed block comes to, the block comes to as well unless it leaves the tape. -/
theorem runs_of_mergeBlock {x : Except Failed Store} (h : Runs (mergeBlock b) input n x) :
    ∃ n' x', Runs b input n' x' ∧
      (faultOnly x' = faultOnly x ∨ ∃ i, x' = .error (i, .outOfBounds)) := by
  obtain ⟨n', y, hunfolded, hy⟩ := follows_mergeBlock b (yields_of_runs h)
  obtain ⟨x', hruns, hx'⟩ := runs_of_yields hunfolded
  refine ⟨n', x', hruns, ?_⟩
  rcases hy with rfl | rfl
  · exact .inl hx'
  · exact .inr (eq_error_of_faultOnly hx')

theorem runs_of_mergeBlock_outOfBounds {i : Nat}
    (h : Runs (mergeBlock b) input n (.error (i, .outOfBounds))) :
    ∃ n' j, Runs b input n' (.error (j, .outOfBounds)) := by
  obtain ⟨n', x', hruns, hx' | ⟨j, rfl⟩⟩ := runs_of_mergeBlock h
  · obtain ⟨j, rfl⟩ := eq_error_of_faultOnly hx'
    exact ⟨n', j, hruns⟩
  · exact ⟨n', j, hruns⟩

end Structured

/-- Condensing a balanced text keeps what its runs come to: a run that returns still does, with the
same output and no more steps, one that uses its input up still does, and one that goes on for ever
still does. Only a run that leaves the tape may come to something else, and no other run leaves the
tape for being condensed. -/
theorem condense_preserves_runs {source : Content} (h : validate source = .ok ())
    (input : List UInt8) :
    (∀ result, EndsWith (readInstructions source.units) input (.returned result) →
      ∃ steps ≤ result.steps,
        EndsWith (condense source.units) input (.returned ⟨result.output, steps⟩)) ∧
    (∀ i, EndsWith (readInstructions source.units) input
        (.failed (Failure.inputExhausted i .interpreter)) →
      ∃ j, EndsWith (condense source.units) input
        (.failed (Failure.inputExhausted j .interpreter))) ∧
    (RunsForever (readInstructions source.units) input →
      RunsForever (condense source.units) input) ∧
    ∀ i, EndsWith (condense source.units) input
        (.failed (Failure.outOfBounds i .interpreter)) →
      ∃ j, EndsWith (readInstructions source.units) input
        (.failed (Failure.outOfBounds j .interpreter)) := by
  obtain ⟨b, hb⟩ := exists_block_of_validate h
  rw [condense_eq_merge, ← hb, ← program_mergeBlock]
  refine ⟨fun result hends => ?_, fun i hends => ?_, fun hforever => ?_, fun i hends => ?_⟩
  · obtain ⟨t, hruns, houtput⟩ := endsWith_returned_iff.mp hends
    obtain ⟨n', hn', hmerged⟩ := runs_mergeBlock_ok hruns
    exact ⟨n', hn', endsWith_returned_iff.mpr ⟨t, hmerged, houtput⟩⟩
  · obtain ⟨n, k, hruns, -⟩ := endsWith_inputExhausted_iff.mp hends
    obtain ⟨n', j, hmerged⟩ := runs_mergeBlock_inputExhausted hruns
    exact ⟨_, endsWith_inputExhausted_iff.mpr ⟨n', j, hmerged, rfl⟩⟩
  · rw [runsForever_program_iff] at hforever ⊢
    intro n x hruns
    obtain ⟨n', x', hunfolded, -⟩ := runs_of_mergeBlock hruns
    exact hforever n' x' hunfolded
  · obtain ⟨n, k, hruns, -⟩ := endsWith_outOfBounds_iff.mp hends
    obtain ⟨n', j, hunfolded⟩ := runs_of_mergeBlock_outOfBounds hruns
    exact ⟨_, endsWith_outOfBounds_iff.mpr ⟨n', j, hunfolded, rfl⟩⟩

/-- An echo behind two additions that cancel. -/
theorem condense_preserves_runs_of_echo :
    validate (.text ['+', '-', ',', '.']) = .ok () ∧
      ∃ steps ≤ 4, EndsWith (condense ['+', '-', ',', '.']) [7] (.returned ⟨[7], steps⟩) := by
  have hvalid : validate (.text ['+', '-', ',', '.']) = .ok () := rfl
  have hblock : readInstructions ['+', '-', ',', '.'] =
      program (.leaf (.add 1) (.leaf (.add (-1)) (.leaf .read (.leaf .print .done)))) := rfl
  have hends : EndsWith (readInstructions ['+', '-', ',', '.']) [7] (.returned ⟨[7], 4⟩) := by
    rw [hblock, endsWith_returned_iff]
    exact ⟨_, .leaf rfl (.leaf rfl (.leaf rfl (.leaf rfl (.done _)))), rfl⟩
  exact ⟨hvalid, (condense_preserves_runs hvalid [7]).1 _ hends⟩

end TapeMachine
