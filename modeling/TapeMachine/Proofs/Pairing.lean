import Mathlib.Data.Nat.Find
import TapeMachine.Proofs.Matching

/-!
# Paired brackets

The height of a position counts the brackets that are open in front of it. A pair is an opening
bracket with the first later position at which the height has come back to that in front of the
bracket, so no bracket belongs to two pairs and no two pairs cross. A jump table is filled with the
pairs of what has been read so far, and in the end it holds all pairs of the program.
-/

namespace TapeMachine

namespace Balance

variable {α : Type} [DecidableEq α] {start stop : α} {l m : List α} {i j k n : Nat}

/-! ## Heights -/

def height (start stop : α) (l : List α) (n : Nat) : Int := excess start stop (l.take n)

theorem height_zero : height start stop l 0 = 0 := by
  simp [height]

theorem height_add (start stop : α) (l : List α) (n k : Nat) :
    height start stop l (n + k) =
      height start stop l n + excess start stop ((l.drop n).take k) := by
  rw [height, List.take_add, excess_append, height]

theorem height_append (h : n ≤ l.length) :
    height start stop (l ++ m) n = height start stop l n := by
  rw [height, List.take_append_of_le_length h, height]

/-- A position raises the height by one, lowers it by one or keeps it. -/
theorem height_succ_cases (hne : start ≠ stop) (l : List α) (n : Nat) :
    (l[n]? = some start ∧ height start stop l (n + 1) = height start stop l n + 1) ∨
      (l[n]? = some stop ∧ height start stop l (n + 1) = height start stop l n - 1) ∨
      (l[n]? ≠ some start ∧ l[n]? ≠ some stop ∧
        height start stop l (n + 1) = height start stop l n) := by
  have hsucc : height start stop l (n + 1) =
      height start stop l n + excess start stop l[n]?.toList := by
    rw [height, List.take_add_one, excess_append, height]
  rw [hsucc]
  cases hn : l[n]? with
  | none => simp
  | some a =>
      rw [Option.toList_some]
      by_cases hstart : a = start
      · subst hstart
        exact .inl ⟨rfl, by rw [excess_start hne]⟩
      by_cases hstop : a = stop
      · subst hstop
        exact .inr (.inl ⟨rfl, by rw [excess_stop hne]; rfl⟩)
      · refine .inr (.inr ⟨by simpa using hstart, by simpa using hstop, ?_⟩)
        rw [excess_other hstart hstop, Int.add_zero]

theorem height_succ_start (hne : start ≠ stop) (h : l[n]? = some start) :
    height start stop l (n + 1) = height start stop l n + 1 := by
  rcases height_succ_cases hne l n with ⟨-, hup⟩ | ⟨hstop, -⟩ | ⟨hstart, -⟩
  · exact hup
  · exact absurd (Option.some.inj (h.symm.trans hstop)) hne
  · exact absurd h hstart

theorem height_succ_stop (hne : start ≠ stop) (h : l[n]? = some stop) :
    height start stop l (n + 1) = height start stop l n - 1 := by
  rcases height_succ_cases hne l n with ⟨hstart, -⟩ | ⟨-, hdown⟩ | ⟨-, hstop, -⟩
  · exact absurd (Option.some.inj (hstart.symm.trans h)) hne
  · exact hdown
  · exact absurd h hstop

theorem isBalanced_between_iff (hij : i < j) :
    IsBalanced start stop (between l i j) ↔
      (∀ k, i < k → k ≤ j → height start stop l (i + 1) ≤ height start stop l k) ∧
        height start stop l j = height start stop l (i + 1) := by
  have hstretch : ∀ k, i < k → k ≤ j →
      height start stop l k =
        height start stop l (i + 1) + excess start stop ((between l i j).take (k - (i + 1))) := by
    intro k hik hkj
    rw [between, List.take_take, Nat.min_eq_left (by omega), ← height_add,
      Nat.add_sub_cancel' hik]
  have hall : ∀ n, j - (i + 1) ≤ n → (between l i j).take n = between l i j := by
    intro n hn
    rw [between, List.take_take, Nat.min_eq_right hn]
  have hwhole := hstretch j hij (Nat.le_refl j)
  rw [hall _ (Nat.le_refl _)] at hwhole
  constructor
  · rintro ⟨hnever, hzero⟩
    refine ⟨fun k hik hkj => ?_, by omega⟩
    have hk := hnever (k - (i + 1))
    have hheight := hstretch k hik hkj
    omega
  · rintro ⟨habove, hback⟩
    refine ⟨fun n => ?_, by omega⟩
    rcases Nat.le_total n (j - (i + 1)) with hn | hn
    · have hk := habove (i + 1 + n) (by omega) (by omega)
      have hheight := hstretch (i + 1 + n) (by omega) (by omega)
      rw [Nat.add_sub_cancel_left] at hheight
      omega
    · rw [hall n hn]
      omega

/-! ## Pairs -/

/-- Between the brackets of a pair the height stays above that in front of it, to which the closing
bracket returns. -/
theorem isPair_iff_height (hne : start ≠ stop) :
    IsPair start stop l i j ↔ i < j ∧ l[i]? = some start ∧ l[j]? = some stop ∧
      (∀ k, i < k → k ≤ j → height start stop l i < height start stop l k) ∧
        height start stop l (j + 1) = height start stop l i := by
  constructor
  · rintro ⟨hij, hstart, hstop, hinner⟩
    obtain ⟨habove, hback⟩ := (isBalanced_between_iff hij).mp hinner
    have hup := height_succ_start hne hstart
    have hdown := height_succ_stop hne hstop
    refine ⟨hij, hstart, hstop, fun k hik hkj => ?_, by omega⟩
    have hk := habove k hik hkj
    omega
  · rintro ⟨hij, hstart, hstop, habove, hback⟩
    have hup := height_succ_start hne hstart
    have hdown := height_succ_stop hne hstop
    refine ⟨hij, hstart, hstop, (isBalanced_between_iff hij).mpr ⟨fun k hik hkj => ?_, by omega⟩⟩
    have hk := habove k hik hkj
    omega

theorem isPair_append (hm : IsBalanced start stop m) (l r : List α) :
    IsPair start stop (l ++ start :: (m ++ stop :: r)) l.length (l.length + 1 + m.length) := by
  have hbetween : between (l ++ start :: (m ++ stop :: r)) l.length (l.length + 1 + m.length) = m :=
    by rw [between, Nat.add_sub_cancel_left, List.drop_length_add_append, List.drop_succ_cons,
      List.drop_zero, List.take_left]
  have hclosing : l ++ start :: (m ++ stop :: r) = (l ++ start :: m) ++ stop :: r := by simp
  refine ⟨by omega, by simp, ?_, ?_⟩
  · have hlength : (l ++ start :: m).length = l.length + 1 + m.length := by
      rw [List.length_append, List.length_cons]
      omega
    rw [hclosing, ← hlength]
    simp
  · rw [hbetween]
    exact hm

namespace IsPair

variable {i' j' : Nat}

theorem lt_length (h : IsPair start stop l i j) : j < l.length :=
  (List.getElem?_eq_some_iff.mp h.closing).1

/-- Of two pairs the one that begins later ends before the other does, or begins behind its end. -/
theorem nested_or_disjoint (h : IsPair start stop l i j) (h' : IsPair start stop l i' j')
    (hne : start ≠ stop) (hlt : i < i') : j < i' ∨ j' < j := by
  obtain ⟨-, -, -, habove, hback⟩ := (isPair_iff_height hne).mp h
  obtain ⟨-, -, -, habove', hback'⟩ := (isPair_iff_height hne).mp h'
  by_contra hcross
  rw [not_or, Nat.not_lt, Nat.not_lt] at hcross
  obtain ⟨hinside, hbeyond⟩ := hcross
  have hlow := habove i' hlt hinside
  rcases Nat.lt_or_eq_of_le hbeyond with hlonger | rfl
  · have hhigh := habove' (j + 1) (by omega) hlonger
    omega
  · omega

theorem right_unique (h : IsPair start stop l i j) (h' : IsPair start stop l i j')
    (hne : start ≠ stop) : j = j' := by
  wlog hle : j ≤ j' generalizing j j'
  · exact (this h' h (Nat.le_of_not_le hle)).symm
  obtain ⟨hij, -, -, -, hback⟩ := (isPair_iff_height hne).mp h
  obtain ⟨-, -, -, habove, -⟩ := (isPair_iff_height hne).mp h'
  rcases Nat.lt_or_eq_of_le hle with hlt | heq
  · have hhigh := habove (j + 1) (by omega) hlt
    omega
  · exact heq

theorem left_unique (h : IsPair start stop l i j) (h' : IsPair start stop l i' j)
    (hne : start ≠ stop) : i = i' := by
  wlog hle : i ≤ i' generalizing i i'
  · exact (this h' h (Nat.le_of_not_le hle)).symm
  rcases Nat.lt_or_eq_of_le hle with hlt | heq
  · have hlast := h'.lt
    rcases h.nested_or_disjoint h' hne hlt with hbehind | hinside
    · omega
    · omega
  · exact heq

end IsPair

/-- A closing bracket belongs to a pair if the height was lower before. -/
theorem exists_isPair_of_stop (hne : start ≠ stop) (hstop : l[j]? = some stop)
    (hlow : ∃ i < j, height start stop l i < height start stop l j) :
    ∃ i, IsPair start stop l i j := by
  obtain ⟨n, hn, hbelow⟩ := hlow
  -- The partner is the last position in front of which the height was lower.
  let P : Nat → Prop := fun i => height start stop l i < height start stop l j
  obtain ⟨i, hi⟩ : ∃ i, i = Nat.findGreatest P j := ⟨_, rfl⟩
  have hP : P i := hi ▸ Nat.findGreatest_spec (P := P) (Nat.le_of_lt hn) hbelow
  have hle : i ≤ j := hi ▸ Nat.findGreatest_le j
  have hlast : ∀ k, i < k → k ≤ j → height start stop l j ≤ height start stop l k := by
    intro k hik hkj
    exact Int.not_lt.mp (Nat.findGreatest_is_greatest (P := P) (hi ▸ hik) hkj)
  have hlt : i < j := by
    refine Nat.lt_of_le_of_ne hle ?_
    rintro rfl
    exact Int.lt_irrefl _ hP
  have hfirst := hlast (i + 1) (Nat.lt_succ_self i) hlt
  have hbefore : height start stop l i < height start stop l j := hP
  have hdown := height_succ_stop hne hstop
  refine ⟨i, (isPair_iff_height hne).mpr ?_⟩
  rcases height_succ_cases hne l i with ⟨hstart, hup⟩ | ⟨-, hdrop⟩ | ⟨-, -, hsame⟩
  · refine ⟨hlt, hstart, hstop, fun k hik hkj => ?_, by omega⟩
    have hk := hlast k hik hkj
    omega
  · omega
  · omega

/-- An opening bracket belongs to a pair if the height comes back later. -/
theorem exists_isPair_of_start (hne : start ≠ stop) (hstart : l[i]? = some start)
    (hlow : ∃ k, i < k ∧ height start stop l k ≤ height start stop l i) :
    ∃ j, IsPair start stop l i j := by
  -- The partner stands in front of the first position at which it has come back.
  obtain ⟨hik, hback⟩ := Nat.find_spec hlow
  have hmin : ∀ k, i < k → k < Nat.find hlow → height start stop l i < height start stop l k := by
    intro k hk hlt
    by_contra hge
    exact Nat.find_min hlow hlt ⟨hk, Int.not_lt.mp hge⟩
  generalize Nat.find hlow = k at hik hback hmin
  have hup := height_succ_start hne hstart
  obtain ⟨j, rfl⟩ : ∃ j, k = j + 1 := ⟨k - 1, by omega⟩
  have hij : i < j := by
    refine Nat.lt_of_le_of_ne (Nat.le_of_lt_succ hik) ?_
    rintro rfl
    omega
  have hbefore := hmin j hij (Nat.lt_succ_self j)
  refine ⟨j, (isPair_iff_height hne).mpr ?_⟩
  rcases height_succ_cases hne l j with ⟨-, hrise⟩ | ⟨hstop, hdown⟩ | ⟨-, -, hsame⟩
  · omega
  · exact ⟨hij, hstart, hstop, fun k hk hkj => hmin k hk (Nat.lt_succ_of_le hkj), by omega⟩
  · omega

/-- As long as no stretch from the start has too many of them, closing brackets belong to pairs. -/
theorem exists_isPair_of_nonneg (hne : start ≠ stop) (hstop : l[j]? = some stop)
    (hnonneg : 0 ≤ height start stop l (j + 1)) : ∃ i, IsPair start stop l i j := by
  have hdown := height_succ_stop hne hstop
  have hzero : height start stop l 0 = 0 := height_zero
  have hpos : 0 < j := by
    refine Nat.pos_of_ne_zero ?_
    rintro rfl
    omega
  exact exists_isPair_of_stop hne hstop ⟨0, hpos, by omega⟩

theorem not_isPair_of_isFirstStray (hne : start ≠ stop) (h : IsFirstStray start stop l n) (i : Nat) :
    ¬IsPair start stop l i n := by
  intro hpair
  obtain ⟨hin, -, -, -, hback⟩ := (isPair_iff_height hne).mp hpair
  have hnegative : height start stop l (n + 1) < 0 := h.1
  have hnonneg : 0 ≤ height start stop l i := h.2 i (Nat.le_of_lt hin)
  omega

/-- An opening bracket that no stretch closes is one that belongs to no pair. -/
theorem isUnclosed_iff (hne : start ≠ stop) :
    IsUnclosed start stop l i ↔ l[i]? = some start ∧ ∀ j, ¬IsPair start stop l i j := by
  constructor
  · rintro ⟨hstart, hopen⟩
    refine ⟨hstart, fun j hpair => ?_⟩
    obtain ⟨hij, -, -, -, hback⟩ := (isPair_iff_height hne).mp hpair
    have hlength := hpair.lt_length
    have hpositive := hopen (j + 1 - i) (by omega) (by omega)
    have hheight := height_add start stop l i (j + 1 - i)
    rw [Nat.add_sub_cancel' (by omega)] at hheight
    omega
  · rintro ⟨hstart, hnone⟩
    refine ⟨hstart, fun k hk _ => ?_⟩
    by_contra hle
    have hheight := height_add start stop l i k
    obtain ⟨j, hpair⟩ := exists_isPair_of_start hne hstart ⟨i + k, by omega, by omega⟩
    exact hnone j hpair

/-! ## Balanced lists -/

namespace IsBalanced

theorem exists_isPair_of_stop (h : IsBalanced start stop l) (hne : start ≠ stop)
    (hstop : l[j]? = some stop) : ∃ i, IsPair start stop l i j :=
  exists_isPair_of_nonneg hne hstop (h.1 (j + 1))

theorem exists_isPair_of_start (h : IsBalanced start stop l) (hne : start ≠ stop)
    (hstart : l[i]? = some start) : ∃ j, IsPair start stop l i j := by
  have hnonneg : 0 ≤ height start stop l i := h.1 i
  have hzero : height start stop l l.length = 0 := by
    rw [height, List.take_length]
    exact h.2
  have hlt : i < l.length := (List.getElem?_eq_some_iff.mp hstart).1
  exact Balance.exists_isPair_of_start hne hstart ⟨l.length, hlt, by omega⟩

end IsBalanced

namespace IsPairing

variable {partner partner' : Nat → Option Nat}

/-- A pairing of a balanced list leads along the pairs, in both directions. -/
theorem eq_some_iff (h : IsPairing start stop l partner) (hbalanced : IsBalanced start stop l)
    (hne : start ≠ stop) (i j : Nat) :
    partner i = some j ↔ IsPair start stop l i j ∨ IsPair start stop l j i := by
  have hforth : ∀ {i j}, IsPair start stop l i j → partner i = some j := by
    intro i j hpair
    obtain ⟨j', hpartner, hpair'⟩ := h.closes i hpair.opening
    rw [hpartner, hpair'.right_unique hpair hne]
  constructor
  · intro hpartner
    rcases (h.isSome_iff i).mp (by rw [hpartner]; rfl) with hstart | hstop
    · obtain ⟨j', hpair⟩ := hbalanced.exists_isPair_of_start hne hstart
      obtain rfl : j = j' := Option.some.inj (hpartner.symm.trans (hforth hpair))
      exact .inl hpair
    · obtain ⟨i', hpair⟩ := hbalanced.exists_isPair_of_stop hne hstop
      have hback := h.symm i' i (hforth hpair)
      obtain rfl : j = i' := Option.some.inj (hpartner.symm.trans hback)
      exact .inr hpair
  · rintro (hpair | hpair)
    · exact hforth hpair
    · exact h.symm j i (hforth hpair)

theorem unique (h : IsPairing start stop l partner) (h' : IsPairing start stop l partner')
    (hbalanced : IsBalanced start stop l) (hne : start ≠ stop) : partner = partner' := by
  funext i
  apply Option.ext
  intro j
  rw [h.eq_some_iff hbalanced hne, h'.eq_some_iff hbalanced hne]

end IsPairing

/-- Whatever leads along the pairs of a balanced list is a pairing. -/
theorem IsBalanced.isPairing (h : IsBalanced start stop l) (hne : start ≠ stop)
    {partner : Nat → Option Nat}
    (hpartner : ∀ i j, partner i = some j ↔ IsPair start stop l i j ∨ IsPair start stop l j i) :
    IsPairing start stop l partner where
  isSome_iff := by
    intro i
    rw [Option.isSome_iff_exists]
    constructor
    · rintro ⟨j, hj⟩
      rcases (hpartner i j).mp hj with hpair | hpair
      · exact .inl hpair.opening
      · exact .inr hpair.closing
    · rintro (hstart | hstop)
      · obtain ⟨j, hpair⟩ := h.exists_isPair_of_start hne hstart
        exact ⟨j, (hpartner i j).mpr (.inl hpair)⟩
      · obtain ⟨j, hpair⟩ := h.exists_isPair_of_stop hne hstop
        exact ⟨j, (hpartner i j).mpr (.inr hpair)⟩
  symm := by
    intro i j hj
    exact (hpartner j i).mpr ((hpartner i j).mp hj).symm
  closes := by
    intro i hstart
    obtain ⟨j, hpair⟩ := h.exists_isPair_of_start hne hstart
    exact ⟨j, (hpartner i j).mpr (.inl hpair), hpair⟩

theorem IsBalanced.not_blames (h : IsBalanced start stop l) (hne : start ≠ stop) (n : Nat) :
    ¬Blames start stop l (some n) := by
  intro hblames
  cases hblames with
  | stray first bracket =>
      obtain ⟨i, hpair⟩ := h.exists_isPair_of_stop hne bracket
      exact not_isPair_of_isFirstStray hne first i hpair
  | unclosed never more last => exact absurd h.2 (Int.ne_of_gt more)

/-- The bracket to blame is the first closing one that belongs to no pair, or if there is none the
last opening one that belongs to no pair. -/
theorem Blames.unpaired (h : Blames start stop l (some n)) (hne : start ≠ stop) :
    (l[n]? = some stop ∧ (∀ i, ¬IsPair start stop l i n) ∧
      ∀ k < n, l[k]? = some stop → ∃ i, IsPair start stop l i k) ∨
    ((∀ k, l[k]? = some stop → ∃ i, IsPair start stop l i k) ∧
      l[n]? = some start ∧ (∀ j, ¬IsPair start stop l n j) ∧
      ∀ k > n, l[k]? = some start → ∃ j, IsPair start stop l k j) := by
  cases h with
  | stray first bracket =>
      refine .inl ⟨bracket, not_isPair_of_isFirstStray hne first, ?_⟩
      intro k hk hstop
      exact exists_isPair_of_nonneg hne hstop (first.2 (k + 1) hk)
  | unclosed never more last =>
      obtain ⟨hstart, hnone⟩ := (isUnclosed_iff hne).mp last.1
      refine .inr ⟨?_, hstart, hnone, ?_⟩
      · intro k hstop
        exact exists_isPair_of_nonneg hne hstop (never (k + 1))
      · intro k hk hstart'
        by_contra hopen
        have hunclosed := (isUnclosed_iff hne).mpr ⟨hstart', not_exists.mp hopen⟩
        exact absurd (last.2 k hunclosed) (Nat.not_le_of_gt hk)

/-! ## Pairs of a list that grows -/

theorem isPair_append_iff (hne : start ≠ stop) (hj : j < l.length) :
    IsPair start stop (l ++ m) i j ↔ IsPair start stop l i j := by
  have hheight : ∀ k ≤ j + 1, height start stop (l ++ m) k = height start stop l k :=
    fun k hk => height_append (by omega)
  rw [isPair_iff_height hne, isPair_iff_height hne]
  refine and_congr_right fun hij => ?_
  rw [List.getElem?_append_left (by omega), List.getElem?_append_left hj,
    hheight (j + 1) (Nat.le_refl _), hheight i (by omega)]
  refine and_congr_right fun _ => and_congr_right fun _ => and_congr_left fun _ => ?_
  refine forall_congr' fun k => forall_congr' fun _ => forall_congr' fun hkj => ?_
  rw [hheight k (by omega)]

/-- Only a closing bracket completes a pair. -/
theorem isPair_concat_iff (hne : start ≠ stop) {a : α} (ha : a ≠ stop) :
    IsPair start stop (l ++ [a]) i j ↔ IsPair start stop l i j := by
  constructor
  · intro hpair
    have hlength := hpair.lt_length
    rw [List.length_append, List.length_singleton] at hlength
    have hj : j ≠ l.length := by
      rintro rfl
      have hclosing := hpair.closing
      rw [List.getElem?_concat_length] at hclosing
      exact ha (Option.some.inj hclosing)
    exact (isPair_append_iff hne (by omega)).mp hpair
  · intro hpair
    exact (isPair_append_iff hne hpair.lt_length).mpr hpair

namespace Leaves

variable {opened : List Nat} {p : Nat}

theorem isPair (h : Leaves start stop (p :: opened) l) :
    IsPair start stop (l ++ [stop]) p l.length := by
  cases h with
  | @bracket _ l m outer inner =>
      have hlength : (l ++ start :: m).length = l.length + 1 + m.length := by
        rw [List.length_append, List.length_cons]
        omega
      rw [List.append_assoc, List.cons_append, hlength]
      exact isPair_append inner l []

/-- A closing bracket makes one new pair, with the innermost bracket that is open. -/
theorem isPair_concat_iff (h : Leaves start stop (p :: opened) l) (hne : start ≠ stop) :
    IsPair start stop (l ++ [stop]) i j ↔ IsPair start stop l i j ∨ i = p ∧ j = l.length := by
  constructor
  · intro hpair
    have hlength := hpair.lt_length
    rw [List.length_append, List.length_singleton] at hlength
    rcases Nat.lt_or_eq_of_le (Nat.le_of_lt_succ hlength) with hlt | rfl
    · exact .inl ((isPair_append_iff hne hlt).mp hpair)
    · exact .inr ⟨hpair.left_unique h.isPair hne, rfl⟩
  · rintro (hpair | ⟨rfl, rfl⟩)
    · exact (isPair_append_iff hne hpair.lt_length).mpr hpair
    · exact h.isPair

end Leaves

end Balance

open Balance Structured

namespace JumpTable

variable {table result : JumpTable} {opened : List Nat} {l rest : List Instruction} {p : Nat}

/-- The table leads along the pairs of the instructions and nowhere else. -/
def HoldsPairs (table : JumpTable) (l : List Instruction) : Prop :=
  ∀ i j, table.target? i = some j ↔
    IsPair .loopStart .loopEnd l i j ∨ IsPair .loopStart .loopEnd l j i

theorem holdsPairs_concat {i : Instruction} (hi : i ≠ .loopEnd) :
    table.HoldsPairs (l ++ [i]) ↔ table.HoldsPairs l := by
  have hne : Instruction.loopStart ≠ .loopEnd := by decide
  unfold HoldsPairs
  simp only [isPair_concat_iff hne hi]

theorem HoldsPairs.link (h : table.HoldsPairs l)
    (hleaves : Leaves .loopStart .loopEnd (p :: opened) l) (hsize : l.length < table.size) :
    (table.link p l.length).HoldsPairs (l ++ [.loopEnd]) := by
  have hnew := hleaves.isPair
  have hp : p < l.length := hnew.lt
  have hopening : l[p]? = some .loopStart := by
    rw [← List.getElem?_append_left hp]
    exact hnew.opening
  intro i j
  rw [target?_link (by omega) hsize, hleaves.isPair_concat_iff (by decide),
    hleaves.isPair_concat_iff (by decide)]
  by_cases hlast : i = l.length
  · subst hlast
    have hnone : ¬IsPair .loopStart .loopEnd l l.length j := fun hpair =>
      absurd (Nat.lt_trans hpair.lt hpair.lt_length) (Nat.lt_irrefl _)
    have hnone' : ¬IsPair .loopStart .loopEnd l j l.length := fun hpair =>
      absurd hpair.lt_length (Nat.lt_irrefl _)
    simp [hnone, hnone', Nat.ne_of_gt hp, eq_comm]
  by_cases hfirst : i = p
  · subst hfirst
    have hnone : ¬IsPair .loopStart .loopEnd l i j := by
      intro hpair
      have hlength := hpair.lt_length
      have heq := ((hleaves.isPair_concat_iff (by decide)).mpr (.inl hpair)).right_unique hnew
        (by decide)
      omega
    have hnone' : ¬IsPair .loopStart .loopEnd l j i := by
      intro hpair
      exact absurd (hopening.symm.trans hpair.closing) (by simp)
    simp [hlast, hnone, hnone', eq_comm]
  · simp [hlast, hfirst, h i j]

/-- What has been read leaves the brackets `opened` open, and the table holds its pairs. -/
theorem HoldsPairs.linkFrom (h : table.HoldsPairs l)
    (hleaves : Leaves .loopStart .loopEnd opened l) (hsize : l.length + rest.length ≤ table.size)
    (hlink : linkFrom table opened l.length rest = .ok result) :
    result.HoldsPairs (l ++ rest) := by
  induction rest generalizing table opened l with
  | nil =>
      cases opened with
      | nil =>
          cases hlink
          rwa [List.append_nil]
      | cons p opened => cases hlink
  | cons i rest ih =>
      have hlength : (l ++ [i]).length = l.length + 1 := by simp
      rw [List.length_cons] at hsize
      rw [← List.singleton_append, ← List.append_assoc]
      rcases eq_action_or_bracket i with ⟨a, rfl⟩ | rfl | rfl
      · rw [linkFrom_action, ← hlength] at hlink
        have hstart : a.instruction ≠ .loopStart := a.instruction_ne_loopStart
        have hstop : a.instruction ≠ .loopEnd := a.instruction_ne_loopEnd
        exact ih ((holdsPairs_concat hstop).mpr h)
          (hleaves.append (isBalanced_other hstart hstop)) (by omega) hlink
      · rw [linkFrom_loopStart, ← hlength] at hlink
        exact ih ((holdsPairs_concat (by decide)).mpr h) hleaves.push (by omega) hlink
      · cases opened with
        | nil => simp [JumpTable.linkFrom] at hlink
        | cons p opened =>
            rw [linkFrom_loopEnd, ← hlength] at hlink
            refine ih (h.link hleaves (by omega)) (hleaves.pop (by decide)) ?_ hlink
            rw [size_link]
            omega

theorem holdsPairs_of_build {program : List Instruction} (h : build program = .ok table) :
    table.HoldsPairs program := by
  have hempty : HoldsPairs (Array.replicate program.length none) [] := by
    intro i j
    have hnone : ∀ i j, ¬IsPair Instruction.loopStart .loopEnd [] i j := fun i j hpair =>
      absurd hpair.lt_length (Nat.not_lt_zero _)
    have hblank : target? (Array.replicate program.length none) i = none := by
      rw [target?, Array.getElem?_replicate]
      split <;> rfl
    simp [hblank, hnone]
  exact hempty.linkFrom (.nothing isBalanced_nil) (by simp) h

end JumpTable

theorem isReadBy_instruction : IsReadBy Instruction.opens? .loopStart .loopEnd where
  opens_iff i := by cases i <;> simp [Instruction.opens?]
  closes_iff i := by cases i <;> simp [Instruction.opens?]

theorem blames_blameFrom_program (program : List Instruction) :
    Blames .loopStart .loopEnd program
      (blameFrom [] (bracketsFrom Instruction.opens? 0 program)) :=
  blames_blameFrom isReadBy_instruction (.nothing isBalanced_nil) program

theorem isBalanced_of_build {program : List Instruction} {table : JumpTable}
    (h : JumpTable.build program = .ok table) : IsBalanced .loopStart .loopEnd program := by
  have hblames := blames_blameFrom_program program
  cases hblame : blameFrom [] (bracketsFrom Instruction.opens? 0 program) with
  | none =>
      rw [hblame] at hblames
      cases hblames with
      | nothing balanced => exact balanced
  | some n =>
      have herror : JumpTable.build program = .error n :=
        (linkFrom_eq_error_iff _ [] 0 program n).mpr hblame
      rw [h] at herror
      cases herror

theorem blames_of_build {program : List Instruction} {n : Nat}
    (h : JumpTable.build program = .error n) : Blames .loopStart .loopEnd program (some n) := by
  have hblames := blames_blameFrom_program program
  rwa [(linkFrom_eq_error_iff _ [] 0 program n).mp h] at hblames

/-- A program has a jump table exactly if its brackets are balanced. The table is the only pairing
of the brackets, it leads along the pairs, and these are nested or disjoint. For any other program
the index reported is that of the first closing bracket without a partner, or if there is none, of
the last opening bracket without one. -/
theorem build_pairs_brackets (program : List Instruction) :
    ((∃ table, JumpTable.build program = .ok table) ↔
      IsBalanced .loopStart .loopEnd program) ∧
    (∀ table, JumpTable.build program = .ok table →
      IsPairing .loopStart .loopEnd program table.target? ∧
      (∀ partner, IsPairing .loopStart .loopEnd program partner → partner = table.target?) ∧
      (∀ i j, table.target? i = some j → i < j → IsPair .loopStart .loopEnd program i j) ∧
      ∀ i j i' j', table.target? i = some j → table.target? i' = some j' → i < j → i' < j' →
        i < i' → j < i' ∨ j' < j) ∧
    ∀ n, JumpTable.build program = .error n →
      (program[n]? = some .loopEnd ∧ (∀ i, ¬IsPair .loopStart .loopEnd program i n) ∧
        ∀ m < n, program[m]? = some .loopEnd → ∃ i, IsPair .loopStart .loopEnd program i m) ∨
      ((∀ m, program[m]? = some .loopEnd → ∃ i, IsPair .loopStart .loopEnd program i m) ∧
        program[n]? = some .loopStart ∧ (∀ j, ¬IsPair .loopStart .loopEnd program n j) ∧
        ∀ m > n, program[m]? = some .loopStart → ∃ j, IsPair .loopStart .loopEnd program m j) := by
  have hne : Instruction.loopStart ≠ .loopEnd := by decide
  refine ⟨⟨?_, ?_⟩, ?_, ?_⟩
  · rintro ⟨table, htable⟩
    exact isBalanced_of_build htable
  · intro hbalanced
    cases hbuild : JumpTable.build program with
    | ok table => exact ⟨table, rfl⟩
    | error n => exact (hbalanced.not_blames hne n (blames_of_build hbuild)).elim
  · intro table htable
    have hbalanced := isBalanced_of_build htable
    have hholds := JumpTable.holdsPairs_of_build htable
    have hpairing := hbalanced.isPairing hne hholds
    have hpair : ∀ i j, table.target? i = some j → i < j →
        IsPair .loopStart .loopEnd program i j := by
      intro i j htarget hij
      rcases (hholds i j).mp htarget with hpair | hpair
      · exact hpair
      · exact absurd hpair.lt (Nat.not_lt_of_lt hij)
    refine ⟨hpairing, fun partner hpartner => hpartner.unique hpairing hbalanced hne, hpair, ?_⟩
    intro i j i' j' htarget htarget' hij hij' hlt
    exact (hpair i j htarget hij).nested_or_disjoint (hpair i' j' htarget' hij') hne hlt
  · intro n hbuild
    exact (blames_of_build hbuild).unpaired hne

/-- The inner loop is entered into the table before the outer one. -/
example : (JumpTable.build [.loopStart, .loopStart, .print, .loopEnd, .loopEnd]).map
    JumpTable.entries = .ok [(0, 4), (1, 3), (3, 1), (4, 0)] := by decide

end TapeMachine
