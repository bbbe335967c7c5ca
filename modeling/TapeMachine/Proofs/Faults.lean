import TapeMachine.Proofs.Blocks
import TapeMachine.Structured

/-!
# Runs without positions

Where a failure arises does not matter to how a block goes on: forgetting the indices of its
actions, a block comes to the same results, with the kind of a failure only.
-/

namespace TapeMachine

namespace Structured

/-- `Yields b s n r` says that the block, run on the store, comes to the result `r` after `n`
steps, wherever a failure arises. -/
abbrev Yields (b : Block Action) (s : Store) (n : Nat) (r : Except Machine.Fault Store) : Prop :=
  b.Eval (fun a s => a.apply s) Store.isOpen s n r

variable {b : Block Action} {s t : Store} {input : List UInt8} {n : Nat}

/-- The result without the index where a failure arose. -/
def faultOnly : Except Failed Store → Except Machine.Fault Store
  | .ok t => .ok t
  | .error e => .error e.2

theorem eq_ok_of_faultOnly {x : Except Failed Store} (h : faultOnly x = .ok t) : x = .ok t := by
  cases x with
  | ok s => exact congrArg _ (Except.ok.inj h)
  | error e => cases h

theorem eq_error_of_faultOnly {x : Except Failed Store} {fault : Machine.Fault}
    (h : faultOnly x = .error fault) : ∃ i, x = .error (i, fault) := by
  cases x with
  | ok s => cases h
  | error e => exact ⟨e.1, congrArg _ (Prod.ext rfl (Except.error.inj h))⟩

theorem agree_faultOnly_iff {x : Except Failed Store} {y : Except Machine.Fault Store} :
    Block.Agree Eq (fun (e : Failed) fault => e.2 = fault) x y ↔ faultOnly x = y := by
  constructor
  · rintro (⟨rfl⟩ | ⟨rfl⟩)
    · rfl
    · rfl
  · rintro rfl
    cases x with
    | ok s => exact .ok rfl
    | error e => exact .error rfl

theorem faultOnly_applyAt (p : Nat × Action) (s : Store) :
    faultOnly (applyAt p s) = p.2.apply s := by
  rw [applyAt]
  cases p.2.apply s <;> rfl

theorem agree_applyAt (p : Nat × Action) (a : Action) (s t : Store) (hpa : p.2 = a) (hst : s = t) :
    Block.Agree Eq (fun (e : Failed) fault => e.2 = fault) (applyAt p s) (a.apply t) := by
  subst hpa hst
  exact agree_faultOnly_iff.mpr (faultOnly_applyAt p s)

theorem agree_isOpen (s t : Store) (hst : s = t) :
    Block.Agree Eq (fun (e : Failed) (fault : Machine.Fault) => e.2 = fault)
      s.isOpen t.isOpen := by
  subst hst
  exact .ok rfl

theorem yields_of_runs {x : Except Failed Store} (h : Runs b input n x) :
    Yields b (Store.fresh input) n (faultOnly x) := by
  obtain ⟨y, hyields, hagree⟩ :=
    (Block.corresponds_indexed 0 b).lockstep rfl h agree_applyAt agree_isOpen
  rwa [agree_faultOnly_iff.mp hagree]

theorem runs_of_yields {y : Except Machine.Fault Store}
    (h : Yields b (Store.fresh input) n y) : ∃ x, Runs b input n x ∧ faultOnly x = y := by
  obtain ⟨x, hruns, hagree⟩ :=
    (Block.corresponds_indexed 0 b).lockstep_of_second rfl h agree_applyAt agree_isOpen
  exact ⟨x, hruns, agree_faultOnly_iff.mp hagree⟩

end Structured

end TapeMachine
