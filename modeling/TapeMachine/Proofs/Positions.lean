import TapeMachine.Proofs.Places

/-!
# Positions as coordinates

A line and a column lead back to the offset: in front of it stand the lines before, each with its
line feed, and the columns before. So distinct offsets have distinct positions, in the same order,
behind the end of the text as well.
-/

namespace TapeMachine

/-- The lines of a text without their line feeds. There is one more line than there are feeds. -/
def feedLines (text : List Char) : List (List Char) := text.splitOn '\n'

/-- The number of characters in lines, with a line feed behind each. -/
def extent : List (List Char) → Nat
  | [] => 0
  | line :: lines => line.length + 1 + extent lines

variable {text cs : List Char} {c : Char} {m n : Nat} {p : Position}

theorem feedLines_feed (cs : List Char) : feedLines ('\n' :: cs) = [] :: feedLines cs := by
  rw [feedLines, List.splitOn_cons_eq_if_modifyHead, if_pos (by decide), feedLines]

theorem exists_feedLines_eq_cons (cs : List Char) : ∃ line lines, feedLines cs = line :: lines :=
  List.exists_cons_of_ne_nil (List.splitOn_ne_nil '\n' cs)

theorem feedLines_cons {line : List Char} {lines : List (List Char)} (hc : c ≠ '\n')
    (h : feedLines cs = line :: lines) : feedLines (c :: cs) = (c :: line) :: lines := by
  rw [feedLines] at h ⊢
  rw [List.splitOn_cons_eq_if_modifyHead, if_neg (by simpa using hc), h, List.modifyHead_cons]

namespace Position

/-- The position is that of the offset. -/
structure IsAt (text : List Char) (n : Nat) (p : Position) : Prop where
  line_pos : 1 ≤ p.line
  line_le : p.line ≤ (feedLines text).length
  column_pos : 1 ≤ p.column
  offset_eq : n = extent ((feedLines text).take (p.line - 1)) + p.column - 1
  column_le : n ≤ text.length →
    ∃ line, (feedLines text)[p.line - 1]? = some line ∧ p.column ≤ line.length + 1

def Precedes (p q : Position) : Prop := p.line < q.line ∨ p.line = q.line ∧ p.column < q.column

/-! ## Positions, one character at a time -/

theorem ofOffset_nil (n : Nat) : ofOffset [] n = ⟨1, n + 1⟩ := by
  rw [ofOffset, List.take_nil]
  rfl

theorem ofOffset_feed (cs : List Char) (n : Nat) :
    ofOffset ('\n' :: cs) (n + 1) = ⟨(ofOffset cs n).line + 1, (ofOffset cs n).column⟩ := by
  have hlast := Lines.lastLineLength_le_length (cs.take n)
  rw [ofOffset, List.take_succ_cons, List.count_cons_self, Lines.lastLineLength_cons,
    if_pos (.inl rfl), List.length_cons, ofOffset]
  congr 2
  omega

theorem ofOffset_cons (hc : c ≠ '\n') (cs : List Char) (n : Nat) :
    ofOffset (c :: cs) (n + 1) =
      if (ofOffset cs n).line = 1 then ⟨1, (ofOffset cs n).column + 1⟩ else ofOffset cs n := by
  have hlast := Lines.lastLineLength_le_length (cs.take n)
  rw [ofOffset, List.take_succ_cons, List.count_cons_of_ne hc, Lines.lastLineLength_cons,
    List.length_cons, ofOffset]
  by_cases hmem : '\n' ∈ cs.take n
  · have hline : (cs.take n).count '\n' ≠ 0 := (List.count_pos_iff.mpr hmem).ne'
    rw [if_pos (.inr hmem), if_neg (by simpa using hline)]
    congr 2
    omega
  · have hline : (cs.take n).count '\n' = 0 := List.count_eq_zero.mpr hmem
    have hshort : (cs.take n).length - lastLineLength (cs.take n) = 0 := by
      rw [(Lines.lastLineLength_eq_length_iff _).mpr hmem, Nat.sub_self]
    rw [if_neg (by simp [hc, hmem]), if_pos (by rw [hline]), hline, Nat.add_sub_add_right, hshort]
    rfl

/-! ## Offsets from positions -/

theorem isAt_zero (text : List Char) : IsAt text 0 ⟨1, 1⟩ := by
  obtain ⟨line, lines, hlines⟩ := exists_feedLines_eq_cons text
  refine ⟨Nat.le_refl 1, ?_, Nat.le_refl 1, ?_, fun _ => ⟨line, ?_, Nat.le_add_left 1 _⟩⟩
  · rw [hlines]
    exact Nat.le_add_left 1 _
  · rfl
  · rw [hlines]
    rfl

theorem isAt_nil (n : Nat) : IsAt [] n ⟨1, n + 1⟩ :=
  ⟨Nat.le_refl 1, Nat.le_refl 1, Nat.le_add_left 1 n, by simp [extent],
    fun hn => ⟨[], rfl, by simpa using hn⟩⟩

theorem IsAt.feed (h : IsAt cs n p) : IsAt ('\n' :: cs) (n + 1) ⟨p.line + 1, p.column⟩ := by
  obtain ⟨line_pos, line_le, column_pos, offset_eq, column_le⟩ := h
  obtain ⟨k, hk⟩ : ∃ k, p.line = k + 1 := ⟨p.line - 1, (Nat.sub_add_cancel line_pos).symm⟩
  rw [hk, Nat.add_sub_cancel] at offset_eq column_le
  constructor
  case line_pos => exact Nat.le_add_left 1 _
  case line_le =>
    rw [feedLines_feed, List.length_cons]
    exact Nat.succ_le_succ line_le
  case column_pos => exact column_pos
  case offset_eq =>
    rw [feedLines_feed, Nat.add_sub_cancel, hk, List.take_succ_cons, extent, List.length_nil]
    dsimp only
    omega
  case column_le =>
    rw [feedLines_feed, Nat.add_sub_cancel, hk, List.getElem?_cons_succ]
    exact fun hn => column_le (Nat.le_of_succ_le_succ hn)

theorem IsAt.cons_first (hc : c ≠ '\n') (h : IsAt cs n p) (hp : p.line = 1) :
    IsAt (c :: cs) (n + 1) ⟨1, p.column + 1⟩ := by
  obtain ⟨-, -, column_pos, offset_eq, column_le⟩ := h
  obtain ⟨line, lines, hlines⟩ := exists_feedLines_eq_cons cs
  rw [hp, Nat.sub_self] at offset_eq column_le
  constructor
  case line_pos => exact Nat.le_refl 1
  case line_le =>
    rw [feedLines_cons hc hlines]
    exact Nat.le_add_left 1 _
  case column_pos => exact Nat.le_add_left 1 _
  case offset_eq =>
    clear column_le
    rw [Nat.sub_self]
    rw [List.take_zero, extent] at offset_eq ⊢
    dsimp only
    omega
  case column_le =>
    intro hn
    obtain ⟨_, hline, hcolumn⟩ := column_le (Nat.le_of_succ_le_succ hn)
    rw [hlines] at hline
    obtain rfl := Option.some.inj hline
    exact ⟨c :: line, by rw [feedLines_cons hc hlines]; rfl, Nat.succ_le_succ hcolumn⟩

/-- A character on the first line is in front of all later lines. -/
theorem IsAt.cons_later (hc : c ≠ '\n') (h : IsAt cs n p) (hp : p.line ≠ 1) :
    IsAt (c :: cs) (n + 1) p := by
  obtain ⟨line_pos, line_le, column_pos, offset_eq, column_le⟩ := h
  obtain ⟨line, lines, hlines⟩ := exists_feedLines_eq_cons cs
  obtain ⟨k, hk⟩ : ∃ k, p.line - 1 = k + 1 := ⟨p.line - 2, by omega⟩
  rw [hlines, hk, List.take_succ_cons, extent] at offset_eq
  rw [hlines, hk, List.getElem?_cons_succ] at column_le
  rw [hlines] at line_le
  constructor
  case line_pos => exact line_pos
  case line_le =>
    rw [feedLines_cons hc hlines]
    exact line_le
  case column_pos => exact column_pos
  case offset_eq =>
    rw [feedLines_cons hc hlines, hk, List.take_succ_cons, extent, List.length_cons]
    omega
  case column_le =>
    rw [feedLines_cons hc hlines, hk, List.getElem?_cons_succ]
    exact fun hn => column_le (Nat.le_of_succ_le_succ hn)

/-- Every offset can be computed from its position. -/
theorem isAt_ofOffset (text : List Char) (n : Nat) : IsAt text n (ofOffset text n) := by
  induction text generalizing n with
  | nil =>
      rw [ofOffset_nil]
      exact isAt_nil n
  | cons c cs ih =>
      cases n with
      | zero => exact isAt_zero _
      | succ n =>
          by_cases hc : c = '\n'
          · subst hc
            rw [ofOffset_feed]
            exact (ih n).feed
          · rw [ofOffset_cons hc]
            split
            · exact (ih n).cons_first hc (by assumption)
            · exact (ih n).cons_later hc (by assumption)

/-! ## The order of positions -/

theorem line_le_of_le (text : List Char) (h : m ≤ n) :
    (ofOffset text m).line ≤ (ofOffset text n).line :=
  Nat.succ_le_succ ((List.take_prefix_take_left h).sublist.count_le '\n')

theorem precedes_of_lt (text : List Char) (h : m < n) :
    (ofOffset text m).Precedes (ofOffset text n) := by
  rcases Nat.lt_or_eq_of_le (line_le_of_le text (Nat.le_of_lt h)) with hline | hline
  · exact .inl hline
  · refine .inr ⟨hline, ?_⟩
    have hm := (isAt_ofOffset text m).offset_eq
    have hn := (isAt_ofOffset text n).offset_eq
    have hpos := (isAt_ofOffset text m).column_pos
    rw [hline] at hm
    omega

theorem Precedes.asymm {p q : Position} (h : p.Precedes q) : ¬q.Precedes p := by
  unfold Precedes at h ⊢
  omega

/-- Positions are coordinates: the offset can be computed from them, at most one offset has a
position, and smaller offsets have positions in front. -/
theorem positions_order_offsets (text : List Char) :
    (∀ n, IsAt text n (ofOffset text n)) ∧ Function.Injective (ofOffset text) ∧
      ∀ m n, m < n ↔ (ofOffset text m).Precedes (ofOffset text n) := by
  refine ⟨isAt_ofOffset text, fun m n heq => ?_, fun m n => ⟨precedes_of_lt text, fun h => ?_⟩⟩
  · rw [(isAt_ofOffset text m).offset_eq, heq]
    exact (isAt_ofOffset text n).offset_eq.symm
  · by_contra hle
    rcases Nat.lt_or_eq_of_le (Nat.le_of_not_lt hle) with hlt | rfl
    · exact h.asymm (precedes_of_lt text hlt)
    · exact h.asymm h

end Position

end TapeMachine
