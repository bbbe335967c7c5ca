import Mathlib.Data.List.TakeWhile
import TapeMachine.Text.Display
import TapeMachine.Text.Position

/-!
# Places on the display

Lines are counted by line feeds, but shown between breaks of any kind. So a character is shown on
no earlier line than its position says, and at the position exactly if only line feeds end the
lines in front of it.
-/

namespace TapeMachine

namespace Lines

variable {text cs : List Char} {c : Char} {n i j : Nat} {p : Nat × Nat}

/-! ## Lines and places, one character at a time -/

/-- The character does not begin a line break of two. -/
def IsAlone (c : Char) (cs : List Char) : Prop := ∀ rest, c = '\r' → cs = '\n' :: rest → False

theorem isAlone_of_not_break (hc : ¬isBreak c = true) : IsAlone c cs := by
  rintro rest rfl -
  exact hc (by decide)

theorem split_of_break (halone : IsAlone c cs) (hc : isBreak c = true) :
    split (c :: cs) = [] :: split cs := by
  rw [split, if_pos hc]
  exact halone

theorem split_of_not_break (hc : ¬isBreak c = true) :
    split (c :: cs) = consFirst c (split cs) := by
  rw [split, if_neg hc]
  exact isAlone_of_not_break hc

theorem place?_zero_of_break (halone : IsAlone c cs) (hc : isBreak c = true) :
    place? (c :: cs) 0 = none := by
  rw [place?, if_pos hc]
  exact halone

theorem place?_zero_of_not_break (hc : ¬isBreak c = true) : place? (c :: cs) 0 = some (0, 0) := by
  rw [place?, if_neg hc]
  exact isAlone_of_not_break hc

theorem place?_succ_of_break (halone : IsAlone c cs) (hc : isBreak c = true) :
    place? (c :: cs) (n + 1) = (place? cs n).map fun p => (p.1 + 1, p.2) := by
  rw [place?]
  · simp only [if_pos hc]
  · exact fun rest hr hcs _ => halone rest hr hcs
  · exact fun rest _ hr hcs _ => halone rest hr hcs

theorem place?_succ_of_not_break (hc : ¬isBreak c = true) :
    place? (c :: cs) (n + 1) =
      (place? cs n).map fun p => if p.1 = 0 then (0, p.2 + 1) else p := by
  rw [place?]
  · simp only [if_neg hc]
  · exact fun rest hr hcs _ => isAlone_of_not_break hc rest hr hcs
  · exact fun rest _ hr hcs _ => isAlone_of_not_break hc rest hr hcs

/-! ## What is shown at a place -/

def shown? (lines : List (List Char)) (i j : Nat) : Option Char := lines[i]?.bind (·[j]?)

theorem shown?_nil (lines : List (List Char)) (i j : Nat) :
    shown? ([] :: lines) i j = if i = 0 then none else shown? lines (i - 1) j := by
  cases i <;> rfl

theorem shown?_consFirst (c : Char) (lines : List (List Char)) (i j : Nat) :
    shown? (consFirst c lines) i j =
      if i = 0 then if j = 0 then some c else shown? lines 0 (j - 1) else shown? lines i j := by
  cases lines <;> cases i <;> cases j <;> rfl

theorem exists_shown?_of_place? (h : place? text n = some p) :
    ∃ c, text[n]? = some c ∧ shown? (split text) p.1 p.2 = some c := by
  induction text using split.induct generalizing n p with
  | case1 => cases h
  | case2 cs ih =>
      match n with
      | 0 => cases h
      | 1 => cases h
      | n + 2 =>
          obtain ⟨q, hq, rfl⟩ := Option.map_eq_some_iff.mp h
          rw [split, shown?_nil]
          exact ih hq
  | case3 c cs halone hc ih =>
      cases n with
      | zero =>
          rw [place?_zero_of_break halone hc] at h
          cases h
      | succ n =>
          rw [place?_succ_of_break halone hc] at h
          obtain ⟨q, hq, rfl⟩ := Option.map_eq_some_iff.mp h
          rw [split_of_break halone hc, shown?_nil]
          exact ih hq
  | case4 c cs _ hc ih =>
      rw [split_of_not_break hc, shown?_consFirst]
      cases n with
      | zero =>
          rw [place?_zero_of_not_break hc] at h
          cases h
          exact ⟨c, rfl, rfl⟩
      | succ n =>
          rw [place?_succ_of_not_break hc] at h
          obtain ⟨q, hq, rfl⟩ := Option.map_eq_some_iff.mp h
          obtain ⟨d, hchar, hshown⟩ := ih hq
          refine ⟨d, hchar, ?_⟩
          by_cases hfirst : q.1 = 0
          · rw [hfirst] at hshown
            simpa [hfirst] using hshown
          · simpa [hfirst] using hshown

theorem exists_place?_of_shown? (h : shown? (split text) i j = some c) :
    ∃ n, place? text n = some (i, j) := by
  induction text using split.induct generalizing i j with
  | case1 => cases h
  | case2 cs ih =>
      rw [split, shown?_nil] at h
      split at h
      · cases h
      · obtain ⟨n, hn⟩ := ih h
        refine ⟨n + 2, ?_⟩
        rw [place?, hn, Option.map_some, Nat.sub_add_cancel (by omega)]
  | case3 c cs halone hc ih =>
      rw [split_of_break halone hc, shown?_nil] at h
      split at h
      · cases h
      · obtain ⟨n, hn⟩ := ih h
        refine ⟨n + 1, ?_⟩
        rw [place?_succ_of_break halone hc, hn, Option.map_some, Nat.sub_add_cancel (by omega)]
  | case4 c cs _ hc ih =>
      rw [split_of_not_break hc, shown?_consFirst] at h
      by_cases hi : i = 0
      · subst hi
        by_cases hj : j = 0
        · subst hj
          exact ⟨0, place?_zero_of_not_break hc⟩
        · rw [if_pos rfl, if_neg hj] at h
          obtain ⟨n, hn⟩ := ih h
          refine ⟨n + 1, ?_⟩
          rw [place?_succ_of_not_break hc, hn, Option.map_some, if_pos rfl,
            Nat.sub_add_cancel (by omega)]
      · rw [if_neg hi] at h
        obtain ⟨n, hn⟩ := ih h
        refine ⟨n + 1, ?_⟩
        rw [place?_succ_of_not_break hc, hn, Option.map_some, if_neg hi]

/-- Every character that ends no line is shown somewhere. -/
theorem exists_place? (h : text[n]? = some c) (hc : ¬isBreak c = true) :
    ∃ p, place? text n = some p := by
  induction text using split.induct generalizing n with
  | case1 => cases h
  | case2 cs ih =>
      match n with
      | 0 =>
          cases h
          exact absurd (by decide) hc
      | 1 =>
          cases h
          exact absurd (by decide) hc
      | n + 2 =>
          obtain ⟨p, hp⟩ := ih h
          rw [place?, hp]
          exact ⟨_, rfl⟩
  | case3 d cs halone hd ih =>
      cases n with
      | zero =>
          cases h
          exact absurd hd hc
      | succ n =>
          obtain ⟨p, hp⟩ := ih h
          rw [place?_succ_of_break halone hd, hp]
          exact ⟨_, rfl⟩
  | case4 d cs _ hd ih =>
      cases n with
      | zero => exact ⟨_, place?_zero_of_not_break hd⟩
      | succ n =>
          obtain ⟨p, hp⟩ := ih h
          rw [place?_succ_of_not_break hd, hp]
          exact ⟨_, rfl⟩

/-! ## Places and positions -/

theorem feedsOnly_zero : FeedsOnly text 0 := fun _ hk => absurd hk (Nat.not_lt_zero _)

theorem feedsOnly_cons_iff : FeedsOnly (c :: cs) (n + 1) ↔
    (isBreak c = true → c = '\n' ∨ c = '\r' ∧ cs[0]? = some '\n') ∧ FeedsOnly cs n := by
  constructor
  · intro h
    exact ⟨h 0 (Nat.succ_pos n) c rfl, fun k hk => h (k + 1) (Nat.succ_lt_succ hk)⟩
  · rintro ⟨hfirst, hrest⟩ k hk d hd
    cases k with
    | zero =>
        cases hd
        exact hfirst
    | succ k => exact hrest k (Nat.lt_of_succ_lt_succ hk) d hd

theorem lastLineLength_le_length (cs : List Char) : lastLineLength cs ≤ cs.length :=
  Nat.le_trans (List.takeWhile_sublist _).length_le (Nat.le_of_eq List.length_reverse)

theorem lastLineLength_eq_length_iff (cs : List Char) :
    lastLineLength cs = cs.length ↔ '\n' ∉ cs := by
  have hreverse : cs.reverse.length = cs.length := List.length_reverse
  rw [lastLineLength, ← hreverse]
  constructor
  · intro hlength hmem
    have hself := (List.takeWhile_prefix (· ≠ '\n')).eq_of_length hlength
    rw [← List.mem_reverse, ← hself] at hmem
    simpa using List.mem_takeWhile_imp hmem
  · intro hmem
    rw [List.takeWhile_eq_self_iff.mpr]
    intro d hd
    exact decide_eq_true fun heq => hmem (heq ▸ List.mem_reverse.mp hd)

theorem lastLineLength_cons (c : Char) (cs : List Char) :
    lastLineLength (c :: cs) =
      if c = '\n' ∨ '\n' ∈ cs then lastLineLength cs else lastLineLength cs + 1 := by
  have hall := lastLineLength_eq_length_iff cs
  have hreverse : cs.reverse.length = cs.length := List.length_reverse
  rw [lastLineLength, ← hreverse] at hall
  rw [lastLineLength, List.reverse_cons, List.takeWhile_append]
  by_cases hmem : '\n' ∈ cs
  · rw [if_neg (hall.not.mpr (not_not_intro hmem)), if_pos (.inr hmem), lastLineLength]
  · rw [if_pos (hall.mpr hmem), List.length_append, ← hall.mpr hmem, ← lastLineLength]
    by_cases hc : c = '\n'
    · simp [hc]
    · simp [hc, hmem]

/-- A character is shown on no earlier line than its position says. -/
theorem place?_spec (h : place? text n = some p) :
    (text.take n).count '\n' ≤ p.1 ∧
      ((text.take n).count '\n' = p.1 → lastLineLength (text.take n) = p.2) ∧
      ((text.take n).count '\n' = p.1 ↔ FeedsOnly text n) := by
  induction text using split.induct generalizing n p with
  | case1 => cases h
  | case2 cs ih =>
      match n with
      | 0 => cases h
      | 1 => cases h
      | n + 2 =>
          obtain ⟨q, hq, rfl⟩ := Option.map_eq_some_iff.mp h
          obtain ⟨hle, hlast, hfeeds⟩ := ih hq
          have hcount : (('\r' :: '\n' :: cs).take (n + 2)).count '\n' =
              (cs.take n).count '\n' + 1 := by simp
          have hlength : lastLineLength (('\r' :: '\n' :: cs).take (n + 2)) =
              lastLineLength (cs.take n) := by simp [lastLineLength_cons]
          rw [hcount, hlength, feedsOnly_cons_iff, feedsOnly_cons_iff, ← hfeeds]
          refine ⟨by omega, fun heq => hlast (by omega), ?_⟩
          simp
  | case3 c cs halone hc ih =>
      cases n with
      | zero =>
          rw [place?_zero_of_break halone hc] at h
          cases h
      | succ n =>
          rw [place?_succ_of_break halone hc] at h
          obtain ⟨q, hq, rfl⟩ := Option.map_eq_some_iff.mp h
          obtain ⟨hle, hlast, hfeeds⟩ := ih hq
          rw [List.take_succ_cons, List.count_cons, lastLineLength_cons, feedsOnly_cons_iff, ← hfeeds]
          by_cases hfeed : c = '\n'
          · subst hfeed
            refine ⟨by simpa using hle, ?_, by simp⟩
            intro heq
            rw [if_pos (.inl rfl)]
            exact hlast (by simpa using heq)
          · have halone' : ¬(c = '\r' ∧ cs[0]? = some '\n') := by
              rintro ⟨hr, hn⟩
              obtain ⟨rest, rfl⟩ : ∃ rest, cs = '\n' :: rest := by
                cases cs with
                | nil => cases hn
                | cons d rest => exact ⟨rest, by rw [Option.some.inj hn]⟩
              exact halone rest hr rfl
            -- The line that begins here is shown, but not counted.
            rw [beq_false_of_ne hfeed, if_neg (by decide), Nat.add_zero]
            refine ⟨by omega, fun heq => by omega, iff_of_false (by omega) ?_⟩
            rintro ⟨hfirst, -⟩
            rcases hfirst hc with hfirst | hfirst
            · exact hfeed hfirst
            · exact halone' hfirst
  | case4 c cs _ hc ih =>
      have hfeed : c ≠ '\n' := by
        rintro rfl
        exact hc (by decide)
      cases n with
      | zero =>
          rw [place?_zero_of_not_break hc] at h
          cases h
          exact ⟨Nat.le_refl _, fun _ => rfl, iff_of_true rfl feedsOnly_zero⟩
      | succ n =>
          rw [place?_succ_of_not_break hc] at h
          obtain ⟨q, hq, rfl⟩ := Option.map_eq_some_iff.mp h
          obtain ⟨hle, hlast, hfeeds⟩ := ih hq
          have hline : (if q.1 = 0 then (0, q.2 + 1) else q).1 = q.1 := by
            split
            · exact (by assumption : q.1 = 0).symm
            · rfl
          rw [List.take_succ_cons, List.count_cons, lastLineLength_cons, feedsOnly_cons_iff, ← hfeeds,
            hline, beq_false_of_ne hfeed, if_neg (by decide), Nat.add_zero]
          refine ⟨hle, fun heq => ?_, by simp [hc]⟩
          have hmem : '\n' ∈ cs.take n ↔ q.1 ≠ 0 := by
            rw [← List.count_pos_iff, heq, Nat.pos_iff_ne_zero]
          -- The character makes the first line longer, and no other.
          by_cases hfirst : q.1 = 0
          · rw [if_neg (by simp [hfeed, hmem, hfirst]), if_pos hfirst, hlast heq]
          · rw [if_pos (.inr (hmem.mpr hfirst)), if_neg hfirst, hlast heq]

theorem mem_of_mem_consFirst {d : Char} {line : List Char} {lines : List (List Char)}
    (hline : line ∈ consFirst d lines) (hc : c ∈ line) :
    c = d ∨ ∃ line' ∈ lines, c ∈ line' := by
  cases lines with
  | nil =>
      rw [List.mem_singleton.mp hline, List.mem_singleton] at hc
      exact .inl hc
  | cons first rest =>
      rcases List.mem_cons.mp hline with rfl | hline
      · rcases List.mem_cons.mp hc with rfl | hc
        · exact .inl rfl
        · exact .inr ⟨first, List.mem_cons_self, hc⟩
      · exact .inr ⟨line, List.mem_cons_of_mem _ hline, hc⟩

/-- The characters of a shown line are characters of the text that end no line. -/
theorem mem_of_mem_split {line : List Char} (hline : line ∈ split text) (hc : c ∈ line) :
    c ∈ text ∧ ¬isBreak c = true := by
  induction text using split.induct generalizing line with
  | case1 => cases hline
  | case2 cs ih =>
      rw [split] at hline
      rcases List.mem_cons.mp hline with rfl | hline
      · cases hc
      · obtain ⟨hmem, hbreak⟩ := ih hline hc
        exact ⟨List.mem_cons_of_mem _ (List.mem_cons_of_mem _ hmem), hbreak⟩
  | case3 d cs halone hd ih =>
      rw [split_of_break halone hd] at hline
      rcases List.mem_cons.mp hline with rfl | hline
      · cases hc
      · obtain ⟨hmem, hbreak⟩ := ih hline hc
        exact ⟨List.mem_cons_of_mem _ hmem, hbreak⟩
  | case4 d cs _ hd ih =>
      rw [split_of_not_break hd] at hline
      rcases mem_of_mem_consFirst hline hc with rfl | ⟨line', hline', hc'⟩
      · exact ⟨List.mem_cons_self, hd⟩
      · obtain ⟨hmem, hbreak⟩ := ih hline' hc'
        exact ⟨List.mem_cons_of_mem _ hmem, hbreak⟩

/-! ## Positions -/

theorem ofOffset_eq (hn : n ≤ text.length) : Position.ofOffset text n =
    ⟨(text.take n).count '\n' + 1, lastLineLength (text.take n) + 1⟩ := by
  have hlength : (text.take n).length = n := List.length_take_of_le hn
  have hlast := lastLineLength_le_length (text.take n)
  rw [hlength] at hlast
  rw [Position.ofOffset, hlength, Nat.sub_sub_self hlast]

/-- A character is shown at its position exactly if only line feeds end the lines before it. -/
theorem place?_position_iff (hn : text[n]? = some c) (hc : ¬isBreak c = true) :
    place? text n =
        some ((Position.ofOffset text n).line - 1, (Position.ofOffset text n).column - 1) ↔
      FeedsOnly text n := by
  obtain ⟨p, hp⟩ := exists_place? hn hc
  obtain ⟨-, hlast, hfeeds⟩ := place?_spec hp
  rw [ofOffset_eq (Nat.le_of_lt (List.getElem?_eq_some_iff.mp hn).1), hp, ← hfeeds,
    Option.some.injEq, Nat.add_sub_cancel, Nat.add_sub_cancel]
  constructor
  · rintro rfl
    rfl
  · intro heq
    exact Prod.ext heq.symm (hlast heq).symm

end Lines

end TapeMachine
