import Mathlib.Data.List.Nodup
import TapeMachine.Proofs.ColourCodes
import TapeMachine.Proofs.Matching
import TapeMachine.Proofs.Numerals
import TapeMachine.Proofs.Places
import TapeMachine.Text.PlainExcerpt

/-!
# Marked brackets

An excerpt shows the plain lines around a position, with at most one marked character: the one that
is shown at the position, if there is one. For the bracket that the check of a source blames, that
is the bracket itself exactly if only line feeds end the lines in front of it.
-/

namespace TapeMachine

/-! ## Colour codes on the display -/

namespace Ansi

variable {c : Char} {l : List Char} {on : Bool}

theorem displayFrom_cons {cs : List Char} (h : afterCode? colours (c :: cs) = none) :
    displayFrom on (c :: cs) = ⟨c, on⟩ :: displayFrom on cs := by
  rw [displayFrom]
  split
  · rename_i hcode
    rw [h] at hcode
    cases hcode
  · rfl

theorem displayFrom_cons_of_ne (h : c ≠ escape) (cs : List Char) :
    displayFrom on (c :: cs) = ⟨c, on⟩ :: displayFrom on cs :=
  displayFrom_cons (afterCode?_of_ne h cs)

theorem displayFrom_append (h : escape ∉ l) (rest : List Char) :
    displayFrom on (l ++ rest) = l.map (⟨·, on⟩) ++ displayFrom on rest := by
  induction l with
  | nil => rfl
  | cons c l ih =>
      rw [List.mem_cons, not_or] at h
      rw [List.cons_append, displayFrom_cons_of_ne (Ne.symm h.1), ih h.2, List.map_cons,
        List.cons_append]

theorem displayFrom_of_afterCode? {cs rest : List Char}
    (h : afterCode? colours (c :: cs) = some rest) :
    displayFrom on (c :: cs) =
      displayFrom (background on (numbersFrom 0 ((cs.drop 1).takeWhile colours.isParameter)))
        rest := by
  rw [displayFrom]
  split
  · rename_i behind hbehind
    obtain rfl : rest = behind := Option.some.inj (h.symm.trans hbehind)
    rfl
  · rename_i hnone
    rw [h] at hnone
    cases hnone

/-- A code is not shown, but what follows it is shown as the code says. -/
theorem displayFrom_code {parameters : String}
    (h : parameters.toList.all colours.isParameter = true) (rest : List Char) :
    displayFrom on ((Style.code parameters).toList ++ rest) =
      displayFrom (background on (numbersFrom 0 parameters.toList)) rest := by
  have htext : (Style.code parameters).toList ++ rest =
      escape :: '[' :: (parameters.toList ++ 'm' :: rest) := by
    simp [Style.code, escape]
  have hall : ∀ c ∈ parameters.toList, colours.isParameter c = true := List.all_eq_true.mp h
  have hfinal : colours.isParameter 'm' = false := by decide
  have hparameters : (parameters.toList ++ 'm' :: rest).takeWhile colours.isParameter =
      parameters.toList := by
    rw [List.takeWhile_append_of_pos hall, List.takeWhile_cons_of_neg (by rw [hfinal]; decide),
      List.append_nil]
  rw [htext, displayFrom_of_afterCode? (afterCode?_of_parameters hall rest), List.drop_one,
    List.tail_cons, hparameters]

/-- A text in a colour is shown as without it. -/
theorem displayFrom_coloured {parameters s : String}
    (h : parameters.toList.all colours.isParameter = true)
    (hback : background false (numbersFrom 0 parameters.toList) = false) (hs : escape ∉ s.toList)
    (rest : List Char) :
    displayFrom false ((Style.code parameters ++ s ++ Style.reset).toList ++ rest) =
      Glyph.plain s.toList ++ displayFrom false rest := by
  unfold Style.reset
  rw [String.toList_append, String.toList_append, List.append_assoc, List.append_assoc,
    displayFrom_code h, hback, displayFrom_append hs, displayFrom_code (by decide)]
  rfl

theorem displayFrom_highlight (hc : c ≠ escape) (rest : List Char) :
    displayFrom false ((Excerpt.highlight c).toList ++ rest) =
      ⟨c, true⟩ :: displayFrom false rest := by
  unfold Excerpt.highlight Style.reset
  rw [String.toList_append, String.toList_append, String.toList_append, String.toList_singleton,
    List.append_assoc, List.append_assoc, List.append_assoc, displayFrom_code (by decide),
    displayFrom_code (by decide), List.singleton_append, displayFrom_cons_of_ne hc,
    displayFrom_code (by decide)]
  rfl

end Ansi

/-! ## Rows on the display -/

namespace Excerpt

open Ansi

variable {filename : String} {text chars : List Char} {offset i j k : Nat} {p : Position} {c : Char}

/-- What stands in front of a line in its row. -/
def margin (i : Nat) : String := Style.padLeft 5 (toString (i + 1)) ++ " | "

/-- A line whose character in one column is marked, if there is one. -/
def markAt (j : Nat) (chars : List Char) : List Glyph :=
  Glyph.plain (chars.take j) ++ chars[j]?.toList.map (⟨·, true⟩) ++ Glyph.plain (chars.drop (j + 1))

def shownRow (p : Position) (i : Nat) (chars : List Char) : List Glyph :=
  Glyph.plain (margin i).toList ++
    if i + 1 = p.line then markAt (p.column - 1) chars else Glyph.plain chars

theorem escape_notMem_number (i : Nat) :
    escape ∉ (Style.padLeft 5 (toString (i + 1)) ++ " |").toList := by
  rw [String.toList_append, List.mem_append, not_or]
  exact ⟨Style.notMem_padLeft (by decide) (notMem_repr (by decide) _), by decide⟩

theorem toList_margin (i : Nat) : (margin i).toList =
    (Style.padLeft 5 (toString (i + 1)) ++ " |").toList ++ [' '] := by
  have hblank : " | ".toList = " |".toList ++ [' '] := by decide
  rw [margin, String.toList_append, String.toList_append, hblank, List.append_assoc]

theorem markAt_of_none (h : chars[j]? = none) : markAt j chars = Glyph.plain chars := by
  have hlength : chars.length ≤ j := List.getElem?_eq_none_iff.mp h
  rw [markAt, h, List.take_of_length_le hlength, List.drop_of_length_le (Nat.le_succ_of_le hlength)]
  simp [Glyph.plain]

theorem displayFrom_highlightAt (hchars : escape ∉ chars) (hk : 0 < k) (rest : List Char) :
    displayFrom false ((highlightAt k chars).toList ++ rest) =
      markAt (k - 1) chars ++ displayFrom false rest := by
  obtain ⟨j, rfl⟩ : ∃ j, k = j + 1 := ⟨k - 1, by omega⟩
  unfold highlightAt
  rw [Nat.add_sub_cancel]
  cases hchar : chars[j]? with
  | none =>
      simp only [hchar]
      rw [String.toList_ofList, displayFrom_append hchars, markAt_of_none hchar]
      rfl
  | some c =>
      have hc : c ≠ escape := by
        rintro rfl
        exact hchars (List.mem_of_getElem? hchar)
      simp only [hchar]
      rw [String.toList_append, String.toList_append, String.toList_ofList, String.toList_ofList,
        List.append_assoc, List.append_assoc,
        displayFrom_append fun h => hchars (List.mem_of_mem_take h), displayFrom_highlight hc,
        displayFrom_append fun h => hchars (List.mem_of_mem_drop h), markAt, hchar]
      simp [Glyph.plain]

theorem displayFrom_row (hchars : escape ∉ chars) (hp : 0 < p.column) (rest : List Char) :
    displayFrom false ((row p i chars).toList ++ rest) =
      shownRow p i chars ++ displayFrom false rest := by
  have hblank : escape ∉ " ".toList := by decide
  have hplain : escape ∉ (String.ofList chars).toList := by rwa [String.toList_ofList]
  unfold row shownRow Style.bright Style.dim
  by_cases hi : i + 1 = p.line
  · rw [if_pos hi, if_pos hi, String.toList_append, String.toList_append, List.append_assoc,
      List.append_assoc, displayFrom_coloured (by decide) (by decide) (escape_notMem_number i),
      displayFrom_append hblank, displayFrom_highlightAt hchars hp, toList_margin]
    simp [Glyph.plain]
  · rw [if_neg hi, if_neg hi, String.toList_append, String.toList_append, List.append_assoc,
      List.append_assoc, displayFrom_coloured (by decide) (by decide) (escape_notMem_number i),
      displayFrom_append hblank, displayFrom_append hplain, String.toList_ofList, toList_margin]
    simp [Glyph.plain]

/-! ## Excerpts on the display -/

/-- The text of a row behind a line break. -/
def rowText (lines : List (List Char)) (i : Nat) : List Char :=
  (lines[i]?.map fun chars => '\n' :: ((margin i).toList ++ chars)).getD []

def shownRows (p : Position) (lines : List (List Char)) (indices : List Nat) : List Glyph :=
  indices.flatMap fun i =>
    (lines[i]?.map fun chars => Glyph.plain ['\n'] ++ shownRow p i chars).getD []

theorem toList_intercalate_newline (s : String) (l : List String) :
    (String.intercalate "\n" (s :: l)).toList = s.toList ++ l.flatMap fun t => '\n' :: t.toList := by
  induction l generalizing s with
  | nil => simp
  | cons t l ih =>
      rw [String.intercalate_cons_cons, String.toList_append, String.toList_append, ih,
        List.flatMap_cons, List.append_assoc]
      rfl

theorem displayFrom_rows {lines : List (List Char)} (hlines : ∀ chars ∈ lines, escape ∉ chars)
    (hp : 0 < p.column) (indices : List Nat) (rest : List Char) :
    displayFrom false (((indices.filterMap fun i => lines[i]?.map (row p i)).flatMap
        fun s => '\n' :: s.toList) ++ rest) =
      shownRows p lines indices ++ displayFrom false rest := by
  induction indices with
  | nil => rfl
  | cons i indices ih =>
      unfold shownRows
      rw [List.filterMap_cons, List.flatMap_cons]
      cases hchars : lines[i]? with
      | none =>
          simp only [Option.map_none, Option.getD_none, List.nil_append]
          exact ih
      | some chars =>
          have hescape : escape ∉ chars := hlines chars (List.mem_of_getElem? hchars)
          simp only [Option.map_some, Option.getD_some, List.flatMap_cons, List.cons_append]
          rw [displayFrom_cons_of_ne (by decide), List.append_assoc, displayFrom_row hescape hp, ih]
          simp [Glyph.plain, shownRows]

theorem escape_notMem_plainHeader (hname : escape ∉ filename.toList) (p : Position) :
    escape ∉ (plainHeader filename p).toList := by
  have hheader : plainHeader filename p = "  File \"" ++ filename ++ "\", line " ++ p.line.repr ++
      ", column " ++ p.column.repr := rfl
  rw [hheader]
  simp only [String.toList_append, List.mem_append, not_or]
  exact ⟨⟨⟨⟨⟨by decide, hname⟩, by decide⟩, notMem_repr (by decide) _⟩, by decide⟩,
    notMem_repr (by decide) _⟩

theorem display_excerpt (hname : escape ∉ filename.toList) (htext : escape ∉ text) :
    display (excerpt filename text offset) =
      Glyph.plain ('\n' :: (plainHeader filename (Position.ofOffset text offset)).toList) ++
        (shownRows (Position.ofOffset text offset) (Lines.split text)
          (window (Position.ofOffset text offset).line (Lines.split text).length) ++
        Glyph.plain ['\n']) := by
  have hlines : ∀ chars ∈ Lines.split text, escape ∉ chars := fun chars hchars hc =>
    htext (Lines.mem_of_mem_split hchars hc).1
  have hcolumn : 0 < (Position.ofOffset text offset).column := Nat.succ_pos _
  have hnewline : "\n".toList = ['\n'] := by decide
  have hheader : header filename (Position.ofOffset text offset) =
      Style.code "97" ++ plainHeader filename (Position.ofOffset text offset) ++ Style.reset := rfl
  rw [display, excerpt, String.toList_append, String.toList_append, hnewline,
    toList_intercalate_newline, List.singleton_append, List.cons_append,
    displayFrom_cons_of_ne (by decide), List.append_assoc, hheader,
    displayFrom_coloured (by decide) (by decide) (escape_notMem_plainHeader hname _), rows,
    displayFrom_rows hlines hcolumn, displayFrom_cons_of_ne (by decide)]
  simp [Glyph.plain, displayFrom]

/-! ## The marked character -/

/-- Rows are shown without marks if nothing is shown at the position in any of them. -/
theorem shownRows_eq_plain {lines : List (List Char)} {indices : List Nat}
    (h : ∀ i ∈ indices, i + 1 = p.line → Lines.shown? lines i (p.column - 1) = none) :
    shownRows p lines indices = Glyph.plain (indices.flatMap (rowText lines)) := by
  induction indices with
  | nil => rfl
  | cons i indices ih =>
      have hrest := ih fun k hk => h k (List.mem_cons_of_mem _ hk)
      have hfirst := h i List.mem_cons_self
      unfold shownRows at hrest ⊢
      rw [List.flatMap_cons, hrest, List.flatMap_cons, rowText]
      rw [Lines.shown?] at hfirst
      cases hchars : lines[i]? with
      | none => rfl
      | some chars =>
          rw [hchars, Option.bind_some] at hfirst
          have hrow : shownRow p i chars = Glyph.plain ((margin i).toList ++ chars) := by
            unfold shownRow
            split
            · rename_i hnumber
              rw [markAt_of_none (hfirst hnumber)]
              simp [Glyph.plain]
            · simp [Glyph.plain]
          simp [hrow, Glyph.plain]

theorem nodup_window (number count : Nat) : (window number count).Nodup :=
  List.nodup_range.sublist (List.drop_sublist _ _)

theorem mem_window (h : i < k) : i ∈ window (i + 1) k := by
  rw [window, List.mem_drop_iff_getElem]
  refine ⟨i - (i + 1 - 3), ?_, ?_⟩
  · rw [List.length_range]
    omega
  · rw [List.getElem_range]
    omega

/-- The marked character is the one that is shown at the position. -/
theorem display_eq_of_shown? (hname : escape ∉ filename.toList) (htext : escape ∉ text)
    (hrow : (Lines.split text)[i]? = some chars) (hchar : chars[j]? = some c)
    (hposition : Position.ofOffset text offset = ⟨i + 1, j + 1⟩) :
    ∃ before after, display (excerpt filename text offset) =
      Glyph.plain ('\n' :: (plainHeader filename ⟨i + 1, j + 1⟩).toList ++ before ++
        '\n' :: ((margin i).toList ++ chars.take j)) ++
      ⟨c, true⟩ :: Glyph.plain (chars.drop (j + 1) ++ after) := by
  have hlength : i < (Lines.split text).length := (List.getElem?_eq_some_iff.mp hrow).1
  obtain ⟨front, rear, hwindow⟩ := List.append_of_mem (mem_window hlength)
  have hnodup := nodup_window (i + 1) (Lines.split text).length
  rw [hwindow, List.nodup_middle, List.nodup_cons, List.mem_append, not_or] at hnodup
  have hplain : ∀ indices : List Nat, i ∉ indices →
      shownRows ⟨i + 1, j + 1⟩ (Lines.split text) indices =
        Glyph.plain (indices.flatMap (rowText (Lines.split text))) := fun indices hi =>
    shownRows_eq_plain fun k hk heq => absurd (Nat.succ.inj heq ▸ hk) hi
  refine ⟨front.flatMap (rowText (Lines.split text)),
    rear.flatMap (rowText (Lines.split text)) ++ ['\n'], ?_⟩
  have hrows : shownRows ⟨i + 1, j + 1⟩ (Lines.split text) (front ++ i :: rear) =
      shownRows ⟨i + 1, j + 1⟩ (Lines.split text) front ++
        (Glyph.plain ['\n'] ++ shownRow ⟨i + 1, j + 1⟩ i chars ++
          shownRows ⟨i + 1, j + 1⟩ (Lines.split text) rear) := by
    simp [shownRows, hrow]
  rw [display_excerpt hname htext, hposition, hwindow, hrows, hplain front hnodup.1.1,
    hplain rear hnodup.1.2]
  simp [shownRow, markAt, hchar, Glyph.plain]

/-- If nothing is shown at the position, nothing is marked. -/
theorem marked_eq_false_of_not_shown? (hname : escape ∉ filename.toList) (htext : escape ∉ text)
    (hnone : Lines.shown? (Lines.split text) ((Position.ofOffset text offset).line - 1)
      ((Position.ofOffset text offset).column - 1) = none) :
    ∀ g ∈ display (excerpt filename text offset), g.marked = false := by
  have hrows : ∀ i ∈ window (Position.ofOffset text offset).line (Lines.split text).length,
      i + 1 = (Position.ofOffset text offset).line →
        Lines.shown? (Lines.split text) i ((Position.ofOffset text offset).column - 1) = none := by
    intro i _ hi
    rwa [← hi, Nat.add_sub_cancel] at hnone
  have hplain : ∀ chars, ∀ g ∈ Glyph.plain chars, g.marked = false := by simp [Glyph.plain]
  intro g hg
  rw [display_excerpt hname htext, shownRows_eq_plain hrows, List.mem_append, List.mem_append] at hg
  rcases hg with hg | hg | hg
  all_goals exact hplain _ g hg

/-- An excerpt marks one character, and it is the one at an offset `q` of the text: it is shown as
the character of the text at that offset is, in the row whose number stands in the header. -/
inductive Marks (filename : String) (text : List Char) (offset q : Nat) : Prop where
  | glyph {i j : Nat} {chars before after : List Char} {c : Char}
      (place : Lines.place? text q = some (i, j)) (char : text[q]? = some c)
      (row : (Lines.split text)[i]? = some chars) (column : chars[j]? = some c)
      (number : i + 1 = (Position.ofOffset text offset).line)
      (shown : display (excerpt filename text offset) =
        Glyph.plain ('\n' :: (plainHeader filename (Position.ofOffset text offset)).toList ++
          before ++ '\n' :: ((margin i).toList ++ chars.take j)) ++
        ⟨c, true⟩ :: Glyph.plain (chars.drop (j + 1) ++ after)) :
      Marks filename text offset q

theorem plain_append_marked_inj {l l' rest rest' : List Char} {c c' : Char}
    (h : Glyph.plain l ++ ⟨c, true⟩ :: Glyph.plain rest =
      Glyph.plain l' ++ ⟨c', true⟩ :: Glyph.plain rest') : l = l' := by
  have htake : ∀ (l : List Char) (c : Char) (rest : List Glyph),
      (Glyph.plain l ++ ⟨c, true⟩ :: rest).takeWhile (fun g => !g.marked) = Glyph.plain l := by
    intro l c rest
    rw [List.takeWhile_append_of_pos (by simp [Glyph.plain])]
    simp
  have hplain : Glyph.plain l = Glyph.plain l' := by rw [← htake l c _, h, htake l' c' _]
  exact List.map_injective_iff.mpr (fun c d hcd => (Glyph.mk.inj hcd).1) hplain

theorem newline_notMem_margin (i : Nat) : '\n' ∉ (margin i).toList := by
  rw [margin, String.toList_append, List.mem_append, not_or]
  exact ⟨Style.notMem_padLeft (by decide) (notMem_repr (by decide) _), by decide⟩

theorem Marks.place?_eq (h : Marks filename text offset k) (hname : escape ∉ filename.toList)
    (htext : escape ∉ text) :
    Lines.place? text k = some ((Position.ofOffset text offset).line - 1,
      (Position.ofOffset text offset).column - 1) := by
  obtain @⟨i, j, chars, before, after, c, place, char, row, column, number, shown⟩ := h
  obtain ⟨j', hcolumn⟩ : ∃ j', (Position.ofOffset text offset).column = j' + 1 := ⟨_, rfl⟩
  have hposition : Position.ofOffset text offset = ⟨i + 1, j' + 1⟩ := by rw [number, ← hcolumn]
  rw [hposition] at shown ⊢
  rw [place, Nat.add_sub_cancel, Nat.add_sub_cancel]
  cases hchar : chars[j']? with
  | none =>
      have hnone : Lines.shown? (Lines.split text) ((Position.ofOffset text offset).line - 1)
          ((Position.ofOffset text offset).column - 1) = none := by
        rw [hposition, Nat.add_sub_cancel, Nat.add_sub_cancel, Lines.shown?, row, Option.bind_some,
          hchar]
      have hmarked : (⟨c, true⟩ : Glyph) ∈ display (excerpt filename text offset) := by
        rw [shown]
        simp
      exact absurd (marked_eq_false_of_not_shown? hname htext hnone _ hmarked) (by simp)
  | some c' =>
      obtain ⟨before', after', hshown⟩ := display_eq_of_shown? hname htext row hchar hposition
      have hnewline : ∀ n, '\n' ∉ (margin i).toList ++ chars.take n := by
        intro n hmem
        rcases List.mem_append.mp hmem with hmem | hmem
        · exact newline_notMem_margin i hmem
        · exact (Lines.mem_of_mem_split (List.mem_of_getElem? row) (List.mem_of_mem_take hmem)).2
            (by decide)
      -- Behind the last line break the mark has only its margin and its line before it.
      have hsame := append_cons_inj_right (hnewline _) (hnewline _)
        (plain_append_marked_inj (shown.symm.trans hshown))
      have hlengths := congrArg List.length (List.append_cancel_left hsame)
      have hj : j < chars.length := (List.getElem?_eq_some_iff.mp column).1
      have hj' : j' < chars.length := (List.getElem?_eq_some_iff.mp hchar).1
      rw [List.length_take_of_le (Nat.le_of_lt hj), List.length_take_of_le (Nat.le_of_lt hj')]
        at hlengths
      rw [hlengths]

/-- An excerpt marks what is shown at the position of its offset, and nothing else. -/
theorem marks_iff (hname : escape ∉ filename.toList) (htext : escape ∉ text) :
    Marks filename text offset k ↔
      Lines.place? text k = some ((Position.ofOffset text offset).line - 1,
        (Position.ofOffset text offset).column - 1) := by
  refine ⟨fun h => h.place?_eq hname htext, fun hplace => ?_⟩
  obtain ⟨i, j, hposition⟩ : ∃ i j, Position.ofOffset text offset = ⟨i + 1, j + 1⟩ := ⟨_, _, rfl⟩
  rw [hposition, Nat.add_sub_cancel, Nat.add_sub_cancel] at hplace
  obtain ⟨c, hchar, hshown⟩ := Lines.exists_shown?_of_place? hplace
  obtain ⟨chars, hrow, hcolumn⟩ := Option.bind_eq_some_iff.mp hshown
  obtain ⟨before, after, hdisplay⟩ := display_eq_of_shown? hname htext hrow hcolumn hposition
  rw [← hposition] at hdisplay
  exact .glyph hplace hchar hrow hcolumn (by rw [hposition]) hdisplay

end Excerpt

open Ansi Excerpt

/-- The check of a source blames a character that ends no line. -/
theorem exists_bracket_of_validate {text : List Char} {p : Nat}
    (h : validate (.text text) = .error (Failure.unmatchedBracket p none)) :
    ∃ c, text[p]? = some c ∧ ¬Lines.isBreak c = true := by
  have hunmatched : unmatched? text = some p := (validate_eq_error_iff (.text text) p).mp h
  have hblames := blames_unmatched? text
  rw [hunmatched] at hblames
  cases hblames with
  | stray first bracket => exact ⟨']', bracket, by decide⟩
  | unclosed never more last => exact ⟨'[', last.1.1, by decide⟩

/-- The excerpt for a bracket that the check of a source blames marks that bracket exactly if only
line feeds end the lines in front of it. Otherwise it marks nothing, or another character. -/
theorem excerpt_marks_bracket_iff {filename : String} {text : List Char} {p : Nat}
    (hname : escape ∉ filename.toList) (htext : escape ∉ text)
    (h : validate (.text text) = .error (Failure.unmatchedBracket p none)) :
    (Marks filename text p p ↔ Lines.FeedsOnly text p) ∧
    (¬Lines.FeedsOnly text p →
      (∀ g ∈ display (excerpt filename text p), g.marked = false) ∨
      ∃ q, q ≠ p ∧ Marks filename text p q) := by
  obtain ⟨c, hchar, hbreak⟩ := exists_bracket_of_validate h
  have hfeeds : Marks filename text p p ↔ Lines.FeedsOnly text p :=
    (marks_iff hname htext).trans (Lines.place?_position_iff hchar hbreak)
  refine ⟨hfeeds, fun hother => ?_⟩
  cases hshown : Lines.shown? (Lines.split text) ((Position.ofOffset text p).line - 1)
      ((Position.ofOffset text p).column - 1) with
  | none => exact .inl (marked_eq_false_of_not_shown? hname htext hshown)
  | some d =>
      obtain ⟨q, hq⟩ := Lines.exists_place?_of_shown? hshown
      have hmarks : Marks filename text p q := (marks_iff hname htext).mpr hq
      refine .inr ⟨q, ?_, hmarks⟩
      rintro rfl
      exact hother (hfeeds.mp hmarks)

theorem excerpt_marks_bracket_iff_of_return_and_feed :
    escape ∉ "f.bf".toList ∧ escape ∉ ['[', ']', '\r', '\n', ']'] ∧
    validate (.text ['[', ']', '\r', '\n', ']']) = .error (Failure.unmatchedBracket 4 none) ∧
    Marks "f.bf" ['[', ']', '\r', '\n', ']'] 4 4 := by
  have hname : escape ∉ "f.bf".toList := by decide
  have htext : escape ∉ ['[', ']', '\r', '\n', ']'] := by decide
  have hvalidate : validate (.text ['[', ']', '\r', '\n', ']']) =
      .error (Failure.unmatchedBracket 4 none) := by decide
  have hfeeds : Lines.FeedsOnly ['[', ']', '\r', '\n', ']'] 4 := by
    simp [Lines.feedsOnly_cons_iff, Lines.feedsOnly_zero, Lines.isBreak]
  exact ⟨hname, htext, hvalidate,
    (excerpt_marks_bracket_iff hname htext hvalidate).1.mpr hfeeds⟩

/-- A form feed begins a new line on the display, but the position does not count it: the first line
shown is too short for the column, and no character of the excerpt is marked. -/
theorem excerpt_unmarked_of_form_feed :
    escape ∉ "f.bf".toList ∧ escape ∉ ['+', '\x0c', ']'] ∧
    validate (.text ['+', '\x0c', ']']) = .error (Failure.unmatchedBracket 2 none) ∧
    ∀ g ∈ display (excerpt "f.bf" ['+', '\x0c', ']'] 2), g.marked = false := by
  have hname : escape ∉ "f.bf".toList := by decide
  have htext : escape ∉ ['+', '\x0c', ']'] := by decide
  exact ⟨hname, htext, by decide, marked_eq_false_of_not_shown? hname htext (by decide)⟩

/-- Behind a form feed a bracket that is matched may be marked instead. -/
example : Marks "f.bf" ['+', '\x0c', '[', ']', '\n', ']'] 5 2 :=
  (marks_iff (by decide) (by decide)).mpr (by decide)

end TapeMachine
