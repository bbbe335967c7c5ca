import TapeMachine.Balance
import TapeMachine.Proofs.Blame

/-!
# Blame by counting

A matcher keeps the positions of the brackets that are still open. What it has read is balanced in
front of the first of them, between any two, and behind the last. So the counts of all stretches of
the text tell which bracket it blames.
-/

namespace TapeMachine

namespace Balance

variable {α : Type} [DecidableEq α] {start stop a : α} {l m : List α} {opened : List Nat} {p : Nat}

/-! ## Counting -/

@[simp] theorem excess_nil : excess start stop ([] : List α) = 0 := rfl

@[simp] theorem excess_append (l m : List α) :
    excess start stop (l ++ m) = excess start stop l + excess start stop m := by
  simp only [excess, List.count_append]
  omega

theorem excess_cons (a : α) (l : List α) :
    excess start stop (a :: l) = excess start stop [a] + excess start stop l :=
  excess_append [a] l

theorem excess_start (h : start ≠ stop) : excess start stop [start] = 1 := by
  simp [excess, h]

theorem excess_stop (h : start ≠ stop) : excess start stop [stop] = -1 := by
  simp [excess, h.symm]

theorem excess_other (hstart : a ≠ start) (hstop : a ≠ stop) : excess start stop [a] = 0 := by
  simp [excess, hstart, hstop]

/-- No stretch from the start has more closing brackets than opening ones. -/
def NeverStrays (start stop : α) (l : List α) : Prop := ∀ n, 0 ≤ excess start stop (l.take n)

theorem NeverStrays.excess_nonneg (h : NeverStrays start stop l) : 0 ≤ excess start stop l := by
  simpa using h l.length

/-- What bounds the counts of both parts from below bounds those of the whole. -/
theorem le_excess_take_append {c : Int} (hl : ∀ n, c ≤ excess start stop (l.take n))
    (hm : ∀ n, c ≤ excess start stop l + excess start stop (m.take n)) (n : Nat) :
    c ≤ excess start stop ((l ++ m).take n) := by
  rw [List.take_append]
  rcases Nat.le_total n l.length with hn | hn
  · rw [Nat.sub_eq_zero_of_le hn, List.take_zero, List.append_nil]
    exact hl n
  · rw [List.take_of_length_le hn, excess_append]
    exact hm _

theorem NeverStrays.append (hl : NeverStrays start stop l)
    (hm : ∀ n, 0 ≤ excess start stop l + excess start stop (m.take n)) :
    NeverStrays start stop (l ++ m) :=
  le_excess_take_append hl hm

/-! ## Balanced stretches -/

theorem isBalanced_nil : IsBalanced start stop ([] : List α) := ⟨by simp, rfl⟩

theorem isBalanced_other (hstart : a ≠ start) (hstop : a ≠ stop) : IsBalanced start stop [a] := by
  have hzero := excess_other hstart hstop
  refine ⟨?_, hzero⟩
  rintro (_ | n)
  · simp
  · simp [hzero]

theorem IsBalanced.append (hl : IsBalanced start stop l) (hm : IsBalanced start stop m) :
    IsBalanced start stop (l ++ m) := by
  refine ⟨NeverStrays.append hl.1 fun n => ?_, ?_⟩
  · rw [hl.2, Int.zero_add]
    exact hm.1 n
  · rw [excess_append, hl.2, hm.2, Int.zero_add]

theorem IsBalanced.enclose (h : IsBalanced start stop l) (hne : start ≠ stop) :
    IsBalanced start stop (start :: (l ++ [stop])) := by
  have hone := excess_start hne
  have hbehind : NeverStrays start stop ([start] ++ (l ++ [stop])) := by
    refine NeverStrays.append ?_ fun n => ?_
    · rintro (_ | n)
      · simp
      · simp [hone]
    · rw [hone, List.take_append, excess_append]
      have hinner := h.1 n
      rcases n - l.length with _ | k
      · simp only [List.take_zero, excess_nil]
        omega
      · simp only [List.take_succ_cons, List.take_nil, excess_stop hne]
        omega
  refine ⟨hbehind, ?_⟩
  rw [excess_cons, excess_append, hone, excess_stop hne, h.2]
  rfl

/-! ## What is left open -/

/-- The brackets at the positions `opened`, the innermost first, are those that the list leaves
open. -/
inductive Leaves (start stop : α) : List Nat → List α → Prop where
  | nothing {l : List α} (balanced : IsBalanced start stop l) : Leaves start stop [] l
  | bracket {opened : List Nat} {l m : List α} (outer : Leaves start stop opened l)
      (inner : IsBalanced start stop m) : Leaves start stop (l.length :: opened) (l ++ start :: m)

namespace Leaves

theorem append (h : Leaves start stop opened l) (hm : IsBalanced start stop m) :
    Leaves start stop opened (l ++ m) := by
  cases h with
  | nothing balanced => exact .nothing (balanced.append hm)
  | bracket outer inner =>
      rw [List.append_assoc, List.cons_append]
      exact .bracket outer (inner.append hm)

theorem push (h : Leaves start stop opened l) :
    Leaves start stop (l.length :: opened) (l ++ [start]) :=
  .bracket h isBalanced_nil

theorem pop (h : Leaves start stop (p :: opened) l) (hne : start ≠ stop) :
    Leaves start stop opened (l ++ [stop]) := by
  cases h with
  | bracket outer inner =>
      rw [List.append_assoc, List.cons_append]
      exact outer.append (inner.enclose hne)

theorem excess_eq (h : Leaves start stop opened l) (hne : start ≠ stop) :
    excess start stop l = opened.length := by
  induction h with
  | nothing balanced => exact balanced.2
  | bracket outer inner ih =>
      rw [excess_append, excess_cons, ih, inner.2, excess_start hne, List.length_cons]
      omega

theorem neverStrays (h : Leaves start stop opened l) (hne : start ≠ stop) :
    NeverStrays start stop l := by
  induction h with
  | nothing balanced => exact balanced.1
  | @bracket opened l m outer inner ih =>
      have hlow := ih.excess_nonneg
      apply ih.append
      rintro (_ | n)
      · simpa using hlow
      · have hinner := inner.1 n
        rw [List.take_succ_cons, excess_cons, excess_start hne]
        omega

/-- The innermost of them is the last that is never closed. -/
theorem isLastUnclosed (h : Leaves start stop (p :: opened) l) (hne : start ≠ stop) :
    IsLastUnclosed start stop l p := by
  cases h with
  | @bracket _ l m outer inner =>
      refine ⟨⟨by simp, ?_⟩, ?_⟩
      · rintro (_ | k) hk -
        · cases hk
        · have hinner := inner.1 k
          rw [List.drop_left, List.take_succ_cons, excess_cons, excess_start hne]
          omega
      · rintro n ⟨hstart, hopen⟩
        by_contra hlt
        obtain ⟨d, rfl⟩ : ∃ d, n = l.length + (d + 1) := ⟨n - l.length - 1, by omega⟩
        have hlength := (List.getElem?_eq_some_iff.mp hstart).1
        have hall := hopen _ (Nat.sub_pos_of_lt hlength) (by omega)
        have hdrop : (l ++ start :: m).drop (l.length + (d + 1)) = m.drop d := by
          rw [List.drop_append, List.drop_of_length_le (by omega), Nat.add_sub_cancel_left,
            List.nil_append, List.drop_succ_cons]
        rw [← List.length_drop, List.take_length, hdrop] at hall
        -- Behind position `d` the inner stretch can only close what it has opened before.
        have hsum : excess start stop (m.take d) + excess start stop (m.drop d) = 0 := by
          rw [← excess_append, List.take_append_drop, inner.2]
        have hbefore := inner.1 d
        omega

end Leaves

/-! ## The bracket to blame -/

/-- The position of the bracket that counting blames, none for a balanced list. -/
inductive Blames (start stop : α) (l : List α) : Option Nat → Prop where
  | stray {n : Nat} (first : IsFirstStray start stop l n) (bracket : l[n]? = some stop) :
      Blames start stop l (some n)
  | unclosed {n : Nat} (never : NeverStrays start stop l) (more : 0 < excess start stop l)
      (last : IsLastUnclosed start stop l n) : Blames start stop l (some n)
  | nothing (balanced : IsBalanced start stop l) : Blames start stop l none

/-- Brackets are read by telling `start` and `stop` from everything else. -/
structure IsReadBy (opens? : α → Option Bool) (start stop : α) : Prop where
  opens_iff : ∀ a, opens? a = some true ↔ a = start
  closes_iff : ∀ a, opens? a = some false ↔ a = stop

omit [DecidableEq α] in
theorem IsReadBy.ne {opens? : α → Option Bool} (h : IsReadBy opens? start stop) : start ≠ stop := by
  rintro rfl
  have htrue := (h.opens_iff start).mpr rfl
  rw [(h.closes_iff start).mpr rfl] at htrue
  cases htrue

theorem isFirstStray_append (h : IsBalanced start stop l) (hne : start ≠ stop) (rest : List α) :
    IsFirstStray start stop (l ++ stop :: rest) l.length := by
  have hall : (l ++ stop :: rest).take (l.length + 1) = l ++ [stop] := by
    simp [List.take_append, List.take_of_length_le]
  refine ⟨?_, ?_⟩
  · rw [hall, excess_append, h.2, excess_stop hne]
    decide
  · intro n hn
    rw [List.take_append_of_le_length hn]
    exact h.1 n

theorem blames_of_leaves (h : Leaves start stop opened l) (hne : start ≠ stop) :
    Blames start stop l opened.head? := by
  cases opened with
  | nil =>
      cases h with
      | nothing balanced => exact .nothing balanced
  | cons p opened =>
      have hmore : 0 < excess start stop l := by
        rw [h.excess_eq hne, List.length_cons]
        omega
      exact .unclosed (h.neverStrays hne) hmore (h.isLastUnclosed hne)

/-- The brackets that are open are those that the list has left open so far. -/
theorem blames_blameFrom {opens? : α → Option Bool} (hr : IsReadBy opens? start stop)
    (h : Leaves start stop opened l) (rest : List α) :
    Blames start stop (l ++ rest) (blameFrom opened (bracketsFrom opens? l.length rest)) := by
  induction rest generalizing l opened with
  | nil =>
      rw [List.append_nil]
      exact blames_of_leaves h hr.ne
  | cons a rest ih =>
      have hlength : (l ++ [a]).length = l.length + 1 := by simp
      have hgo : ∀ {opened}, Leaves start stop opened (l ++ [a]) →
          Blames start stop (l ++ a :: rest)
            (blameFrom opened (bracketsFrom opens? (l.length + 1) rest)) := by
        intro opened hleaves
        have hrest := ih hleaves
        rwa [hlength, List.append_assoc, List.singleton_append] at hrest
      rcases hkind : opens? a with _ | _ | _
      · have hstart : a ≠ start := fun heq => by simp [(hr.opens_iff a).mpr heq] at hkind
        have hstop : a ≠ stop := fun heq => by simp [(hr.closes_iff a).mpr heq] at hkind
        rw [bracketsFrom_cons_none hkind]
        exact hgo (h.append (isBalanced_other hstart hstop))
      · obtain rfl := (hr.closes_iff a).mp hkind
        rw [bracketsFrom_cons_some hkind]
        cases opened with
        | nil =>
            cases h with
            | nothing balanced =>
                exact .stray (isFirstStray_append balanced hr.ne rest) (by simp)
        | cons p opened => exact hgo (h.pop hr.ne)
      · obtain rfl := (hr.opens_iff a).mp hkind
        rw [bracketsFrom_cons_some hkind]
        exact hgo h.push

end Balance

open Balance

theorem isReadBy_opens? : IsReadBy opens? '[' ']' where
  opens_iff c := by
    unfold opens?
    split <;> simp_all
  closes_iff c := by
    unfold opens?
    split <;> simp_all

theorem blames_unmatched? (text : List Char) : Blames '[' ']' text (unmatched? text) := by
  rw [unmatched?_eq_blameFrom]
  exact blames_blameFrom isReadBy_opens? (.nothing isBalanced_nil) text

/-- Counting brackets decides what the check of a source says. If some stretch from the start has
more closing brackets than opening ones, the end of the shortest is blamed; or else, if there are
more opening brackets in all, the last of them that no stretch from there closes; or else nothing. -/
theorem validate_blames_by_counts (source : Content) :
    ((∃ m, excess '[' ']' (source.units.take m) < 0) →
      ∃ n, IsFirstStray '[' ']' source.units n ∧ source.units[n]? = some ']' ∧
        validate source = .error (Failure.unmatchedBracket n none)) ∧
    ((∀ m, 0 ≤ excess '[' ']' (source.units.take m)) → 0 < excess '[' ']' source.units →
      ∃ n, IsLastUnclosed '[' ']' source.units n ∧
        validate source = .error (Failure.unmatchedBracket n none)) ∧
    ((∀ m, 0 ≤ excess '[' ']' (source.units.take m)) → excess '[' ']' source.units ≤ 0 →
      validate source = .ok ()) := by
  have hblames := blames_unmatched? source.units
  rw [validate_eq_ok_iff]
  simp only [validate_eq_error_iff]
  generalize unmatched? source.units = position at hblames ⊢
  cases hblames with
  | @stray n first bracket =>
      refine ⟨fun _ => ⟨n, first, bracket, rfl⟩, fun hnever => ?_, fun hnever => ?_⟩
      · exact absurd (hnever (n + 1)) (Int.not_le.mpr first.1)
      · exact absurd (hnever (n + 1)) (Int.not_le.mpr first.1)
  | @unclosed n never more last =>
      refine ⟨?_, fun _ _ => ⟨n, last, rfl⟩, fun _ hless => absurd more (Int.not_lt.mpr hless)⟩
      rintro ⟨m, hm⟩
      exact absurd (never m) (Int.not_le.mpr hm)
  | nothing balanced =>
      refine ⟨?_, fun _ hmore => ?_, fun _ _ => rfl⟩
      · rintro ⟨m, hm⟩
        exact absurd (balanced.1 m) (Int.not_le.mpr hm)
      · exact absurd balanced.2 (Int.ne_of_gt hmore)

/-- The inner loop is closed, so the outer bracket is blamed although it does not come last. -/
example : unmatched? "+[.[-]>".toList = some 1 := by decide

end TapeMachine
