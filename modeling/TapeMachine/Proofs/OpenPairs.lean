import Mathlib.Data.Finset.Card
import TapeMachine.Proofs.Pairing

/-!
# Open pairs

The height of a position is the number of pairs that are open in front of it. A jump table lists
the pairs of its program, so the number of them around an instruction can be told from heights:
behind a loop end, and in front of anything else.
-/

namespace TapeMachine

namespace Balance

variable {α : Type} [DecidableEq α] {start stop : α} {l : List α} {i j k : Nat}

/-- The pairs that are open in front of a position. -/
def openAt (pairs : Finset (Nat × Nat)) (k : Nat) : Finset (Nat × Nat) :=
  {p ∈ pairs | p.1 < k ∧ k ≤ p.2}

section OpenPairs

variable {pairs : Finset (Nat × Nat)}
  (hpairs : ∀ i j, i < j → ((i, j) ∈ pairs ↔ IsPair start stop l i j))

include hpairs

theorem mem_openAt : (i, j) ∈ openAt pairs k ↔ IsPair start stop l i j ∧ i < k ∧ k ≤ j := by
  rw [openAt, Finset.mem_filter]
  constructor
  · rintro ⟨hmem, hik, hkj⟩
    exact ⟨(hpairs i j (Nat.lt_of_lt_of_le hik hkj)).mp hmem, hik, hkj⟩
  · rintro ⟨hpair, hik, hkj⟩
    exact ⟨(hpairs i j hpair.lt).mpr hpair, hik, hkj⟩

theorem openAt_succ_of_start (hne : start ≠ stop) (hpair : IsPair start stop l k j) :
    openAt pairs (k + 1) = insert (k, j) (openAt pairs k) := by
  ext ⟨i', j'⟩
  rw [Finset.mem_insert, mem_openAt hpairs, mem_openAt hpairs, Prod.mk.injEq]
  constructor
  · rintro ⟨hpair', hi, hj⟩
    rcases Nat.lt_or_eq_of_le (Nat.le_of_lt_succ hi) with hlt | rfl
    · exact .inr ⟨hpair', hlt, Nat.le_of_lt hj⟩
    · exact .inl ⟨rfl, hpair'.right_unique hpair hne⟩
  · rintro (⟨rfl, rfl⟩ | ⟨hpair', hi, hj⟩)
    · exact ⟨hpair, Nat.lt_succ_self _, hpair.lt⟩
    · refine ⟨hpair', Nat.lt_succ_of_lt hi, Nat.lt_of_le_of_ne hj ?_⟩
      rintro rfl
      exact hne (Option.some.inj (hpair.opening.symm.trans hpair'.closing))

theorem openAt_of_stop (hne : start ≠ stop) (hpair : IsPair start stop l i k) :
    openAt pairs k = insert (i, k) (openAt pairs (k + 1)) := by
  ext ⟨i', j'⟩
  rw [Finset.mem_insert, mem_openAt hpairs, mem_openAt hpairs, Prod.mk.injEq]
  constructor
  · rintro ⟨hpair', hi, hj⟩
    rcases Nat.lt_or_eq_of_le hj with hlt | rfl
    · exact .inr ⟨hpair', Nat.lt_succ_of_lt hi, hlt⟩
    · exact .inl ⟨hpair'.left_unique hpair hne, rfl⟩
  · rintro (⟨rfl, rfl⟩ | ⟨hpair', hi, hj⟩)
    · exact ⟨hpair, hpair.lt, Nat.le_refl _⟩
    · refine ⟨hpair', Nat.lt_of_le_of_ne (Nat.le_of_lt_succ hi) ?_, Nat.le_of_lt hj⟩
      rintro rfl
      exact hne (Option.some.inj (hpair'.opening.symm.trans hpair.closing))

theorem openAt_succ_of_other (hstart : l[k]? ≠ some start) (hstop : l[k]? ≠ some stop) :
    openAt pairs (k + 1) = openAt pairs k := by
  ext ⟨i, j⟩
  rw [mem_openAt hpairs, mem_openAt hpairs]
  refine and_congr_right fun hpair => ?_
  have hi : i ≠ k := by
    rintro rfl
    exact hstart hpair.opening
  have hj : j ≠ k := by
    rintro rfl
    exact hstop hpair.closing
  omega

/-- The height of a position is the number of pairs that are open in front of it. -/
theorem card_openAt (hne : start ≠ stop) (hbalanced : IsBalanced start stop l) (k : Nat) :
    ((openAt pairs k).card : Int) = height start stop l k := by
  induction k with
  | zero =>
      have hnone : openAt pairs 0 = ∅ := Finset.filter_false_of_mem fun p _ => by simp
      rw [hnone, height_zero]
      rfl
  | succ k ih =>
      rcases height_succ_cases hne l k with ⟨hstart, hup⟩ | ⟨hstop, hdown⟩ | ⟨hstart, hstop, hsame⟩
      · obtain ⟨j, hpair⟩ := hbalanced.exists_isPair_of_start hne hstart
        have hnew : (k, j) ∉ openAt pairs k := by simp [openAt]
        rw [openAt_succ_of_start hpairs hne hpair, Finset.card_insert_of_notMem hnew]
        omega
      · obtain ⟨i, hpair⟩ := hbalanced.exists_isPair_of_stop hne hstop
        have hgone : (i, k) ∉ openAt pairs (k + 1) := by simp [openAt]
        rw [openAt_of_stop hpairs hne hpair, Finset.card_insert_of_notMem hgone] at ih
        omega
      · rw [openAt_succ_of_other hpairs hstart hstop, ih, hsame]

end OpenPairs

end Balance

open Balance

namespace JumpTable

variable {table : JumpTable} {program : List Instruction} {s e k : Nat}

theorem mem_entries : (s, e) ∈ table.entries ↔ table.target? s = some e := by
  simp only [entries, List.mem_filterMap, List.mem_range, Option.map_eq_some_iff, Prod.mk.injEq]
  constructor
  · rintro ⟨i, -, j, htarget, rfl, rfl⟩
    exact htarget
  · intro htarget
    refine ⟨s, ?_, e, htarget, rfl, rfl⟩
    by_contra hbeyond
    simp [target?, Array.getElem?_eq_none (Nat.not_lt.mp hbeyond)] at htarget

theorem nodup_entries (table : JumpTable) : table.entries.Nodup := by
  refine List.Nodup.filterMap ?_ List.nodup_range
  intro i i' p hp hp'
  obtain ⟨j, -, rfl⟩ := Option.map_eq_some_iff.mp hp
  obtain ⟨j', -, heq⟩ := Option.map_eq_some_iff.mp hp'
  exact (Prod.mk.inj heq).1.symm

/-- The number of pairs of a table around an index. -/
def enclosing (table : JumpTable) (k : Nat) : Nat :=
  table.entries.countP fun p => p.1 < k ∧ k < p.2

theorem enclosing_eq_card (table : JumpTable) (k : Nat) :
    table.enclosing k = {p ∈ table.entries.toFinset | p.1 < k ∧ k < p.2}.card := by
  rw [enclosing, List.countP_eq_length_filter,
    ← List.toFinset_card_of_nodup (table.nodup_entries.filter _), List.toFinset_filter]
  simp

section Build

variable (h : build program = .ok table)

include h

theorem mem_toFinset_entries_iff (hlt : s < e) :
    (s, e) ∈ table.entries.toFinset ↔ IsPair .loopStart .loopEnd program s e := by
  rw [List.mem_toFinset, mem_entries, holdsPairs_of_build h]
  exact or_iff_left fun hpair => Nat.lt_asymm hlt hpair.lt

theorem isPair_of_target? (htarget : table.target? s = some e) (hlt : s < e) :
    IsPair .loopStart .loopEnd program s e := by
  rw [← mem_toFinset_entries_iff h hlt, List.mem_toFinset]
  exact mem_entries.mpr htarget

theorem enclosing_eq_height {n : Nat}
    (hn : ∀ i j, IsPair .loopStart .loopEnd program i j → (i < k ∧ k < j ↔ i < n ∧ n ≤ j)) :
    (table.enclosing k : Int) = height .loopStart .loopEnd program n := by
  have hpairs := fun i j (hlt : i < j) => mem_toFinset_entries_iff (s := i) (e := j) h hlt
  rw [← card_openAt hpairs (by decide) (isBalanced_of_build h), enclosing_eq_card]
  congr 2
  ext ⟨i, j⟩
  rw [mem_openAt hpairs, Finset.mem_filter]
  constructor
  · rintro ⟨hmem, haround⟩
    have hpair := (hpairs i j (Nat.lt_trans haround.1 haround.2)).mp hmem
    exact ⟨hpair, (hn i j hpair).mp haround⟩
  · rintro ⟨hpair, hopen⟩
    exact ⟨(hpairs i j hpair.lt).mpr hpair, (hn i j hpair).mpr hopen⟩

/-- The pairs around a loop end are those that are open behind it. -/
theorem enclosing_of_loopEnd (hk : program[k]? = some .loopEnd) :
    (table.enclosing k : Int) = height .loopStart .loopEnd program (k + 1) := by
  refine enclosing_eq_height h fun i j hpair => ?_
  have hi : i ≠ k := by
    rintro rfl
    exact absurd (hpair.opening.symm.trans hk) (by decide)
  omega

theorem enclosing_of_ne_loopEnd (hk : program[k]? ≠ some .loopEnd) :
    (table.enclosing k : Int) = height .loopStart .loopEnd program k := by
  refine enclosing_eq_height h fun i j hpair => ?_
  have hj : j ≠ k := by
    rintro rfl
    exact hk hpair.closing
  omega

/-- As many pairs stand around the start of a loop as around its end, and more around whatever
stands between them. -/
theorem enclosing_of_target? (htarget : table.target? s = some e) (hlt : s < e) :
    table.enclosing s = table.enclosing e ∧
      ∀ k, s < k → k < e → table.enclosing s < table.enclosing k := by
  obtain ⟨-, hstart, hstop, habove, hback⟩ :=
    (isPair_iff_height (by decide)).mp (isPair_of_target? h htarget hlt)
  have hs := enclosing_of_ne_loopEnd (k := s) h (by rw [hstart]; decide)
  have he := enclosing_of_loopEnd h hstop
  refine ⟨by omega, fun k hsk hke => ?_⟩
  have hnow := habove k hsk (Nat.le_of_lt hke)
  have hnext := habove (k + 1) (Nat.lt_succ_of_lt hsk) hke
  by_cases hk : program[k]? = some .loopEnd
  · have hinside := enclosing_of_loopEnd h hk
    omega
  · have hinside := enclosing_of_ne_loopEnd h hk
    omega

end Build

end JumpTable

end TapeMachine
