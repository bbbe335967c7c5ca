import TapeMachine.Proofs.Loops

/-!
# Stores and machine states

A machine state matches a store that has the same cells, pointer and output and as much input
left. Matching is kept step by step: an action takes the machine on exactly if it succeeds, and
both brackets of a loop take it into the body or behind the loop by the same test.
-/

namespace TapeMachine

open Structured

namespace Machine

/-- The state shows the store, wherever the counter is. -/
structure Matches (m : Machine) (s : State) (t : Store) : Prop where
  pointer_eq : s.pointer = t.pointer
  pointer_lt : t.pointer < tapeLength
  cell_eq : ∀ i < tapeLength, s.tape[i]? = some (t.cells i)
  unread_eq : t.unread = m.input.toList.drop s.cursor
  output_eq : t.output = s.output.toList

variable {m : Machine} {s : State} {t : Store}

theorem matches_start {input : List UInt8} (h : m.input = input.toArray) :
    m.Matches .start (Store.fresh input) where
  pointer_eq := rfl
  pointer_lt := Nat.zero_lt_succ _
  cell_eq := fun i hi => by simp [State.start, Store.fresh, hi]
  unread_eq := by simp [State.start, Store.fresh, h]
  output_eq := rfl

namespace Matches

theorem current (h : m.Matches s t) : s.tape[s.pointer]? = some t.cell := by
  rw [h.pointer_eq]
  exact h.cell_eq t.pointer h.pointer_lt

theorem advance (h : m.Matches s t) (counter : Nat) : m.Matches (s.advance counter) t :=
  ⟨h.pointer_eq, h.pointer_lt, h.cell_eq, h.unread_eq, h.output_eq⟩

/-- Writing the current cell of both. -/
theorem setCell (h : m.Matches s t) (b : UInt8) :
    m.Matches { s with tape := s.tape.setIfInBounds s.pointer b } (t.setCell b) where
  pointer_eq := h.pointer_eq
  pointer_lt := h.pointer_lt
  unread_eq := h.unread_eq
  output_eq := h.output_eq
  cell_eq := by
    intro i hi
    have hcell := h.cell_eq i hi
    have hsize : i < s.tape.size := (Array.getElem?_eq_some_iff.mp hcell).1
    by_cases hip : i = t.pointer
    · subst hip
      simp [Store.setCell, h.pointer_eq, hsize]
    · simp [Store.setCell, h.pointer_eq, Ne.symm hip, hip, hcell]

theorem step_eq (h : m.Matches s t) {i : Instruction} (hcode : m.code[s.counter]? = some i) :
    m.step s = m.execute s t.cell i := by
  rw [step, hcode, h.current]

end Matches

/-- Adding with a wrap-around is adding modulo 256. -/
theorem ofNat_add_emod (c : UInt8) (d : Int) :
    UInt8.ofNat ((c.toNat + d) % 256).toNat = c + UInt8.ofInt d := by
  apply UInt8.toNat_inj.mp
  simp only [UInt8.ofInt, UInt8.toNat_add, UInt8.toNat_ofNat']
  omega

/-- What the machine does with an action: it goes on to a matching state behind it, or it faults
where it is. -/
theorem step_action (h : m.Matches s t) {a : Action}
    (hcode : m.code[s.counter]? = some a.instruction) :
    (∃ t' s', a.apply t = .ok t' ∧ m.step s = .next s' ∧ m.Matches s' t' ∧
      s'.counter = s.counter + 1) ∨
    (∃ fault, a.apply t = .error fault ∧ m.step s = .faulted fault s) := by
  rw [h.step_eq hcode]
  cases a with
  | move d =>
      simp only [Action.apply, Action.instruction, execute, h.pointer_eq]
      by_cases hbounds : 0 ≤ (t.pointer : Int) + d ∧ (t.pointer : Int) + d < tapeLength
      · rw [if_pos hbounds, if_pos hbounds]
        have hmoved : m.Matches { s with pointer := ((t.pointer : Int) + d).toNat }
            { t with pointer := ((t.pointer : Int) + d).toNat } :=
          ⟨rfl, (Int.toNat_lt hbounds.1).mpr hbounds.2, h.cell_eq, h.unread_eq, h.output_eq⟩
        exact .inl ⟨_, _, rfl, rfl, hmoved.advance s.counter, rfl⟩
      · rw [if_neg hbounds, if_neg hbounds]
        exact .inr ⟨_, rfl, rfl⟩
  | add d =>
      have hset := (h.setCell (t.cell + UInt8.ofInt d)).advance s.counter
      refine .inl ⟨_, _, rfl, rfl, ?_, rfl⟩
      rwa [ofNat_add_emod]
  | print =>
      have hpushed : m.Matches { s with output := s.output.push t.cell }
          { t with output := t.output ++ [t.cell] } :=
        ⟨h.pointer_eq, h.pointer_lt, h.cell_eq, h.unread_eq, by simp [h.output_eq]⟩
      exact .inl ⟨_, _, rfl, rfl, hpushed.advance s.counter, rfl⟩
  | read =>
      simp only [Action.apply, Action.instruction, execute]
      cases hinput : m.input[s.cursor]? with
      | none =>
          have hend : t.unread = [] := by
            rw [h.unread_eq, List.drop_eq_nil_iff, Array.length_toList]
            exact Array.getElem?_eq_none_iff.mp hinput
          rw [hend]
          exact .inr ⟨_, rfl, rfl⟩
      | some b =>
          have hnext : t.unread = b :: m.input.toList.drop (s.cursor + 1) := by
            obtain ⟨hlt, rfl⟩ := Array.getElem?_eq_some_iff.mp hinput
            rw [h.unread_eq, List.drop_eq_getElem_cons hlt, Array.getElem_toList]
          have htaken : m.Matches { s with cursor := s.cursor + 1 }
              { t with unread := m.input.toList.drop (s.cursor + 1) } :=
            ⟨h.pointer_eq, h.pointer_lt, h.cell_eq, rfl, h.output_eq⟩
          rw [hnext]
          exact .inl ⟨_, _, rfl, rfl, (htaken.setCell b).advance s.counter, rfl⟩

/-- Either bracket of a loop leads into the body while the current cell is not zero, and behind
the loop otherwise. -/
theorem step_bracket (h : m.Matches s t) {start stop : Nat}
    (hstart : m.code[start]? = some .loopStart) (hstop : m.code[stop]? = some .loopEnd)
    (hforth : m.jumps.target? start = some stop) (hback : m.jumps.target? stop = some start)
    (hcounter : s.counter = start ∨ s.counter = stop) :
    m.step s = .next (s.advance (if t.cell = 0 then stop else start)) := by
  rcases hcounter with rfl | rfl
  · rw [h.step_eq hstart, execute, jump, hforth]
    split <;> rfl
  · rw [h.step_eq hstop, execute, jump, hback]
    split <;> rfl

end Machine

end TapeMachine
