import Mathlib.Data.List.Sort
import TapeMachine.Proofs.Excerpts
import TapeMachine.Text.ExcerptLookups

/-!
# Excerpts and their plain text

The display shows the characters that are left without colour codes. So an excerpt without its codes
is the plain excerpt, and marking a character changes only its colour. All look-ups of an excerpt
are in range, whatever the position.
-/

namespace TapeMachine

namespace Ansi

/-- The glyphs of a display are the characters that belong to no code. -/
theorem map_char_displayFrom (on : Bool) (s : List Char) :
    (displayFrom on s).map Glyph.char = strip colours s := by
  induction s using code_induction generalizing on with
  | nil => rw [displayFrom, strip_nil, List.map_nil]
  | code w rest hw ih =>
      have hafter : afterCode? colours (w ++ rest) = some rest :=
        afterCode?_eq_some_iff.mpr ⟨w, hw, rfl⟩
      rw [strip_of_code hw]
      obtain ⟨x, rfl, -⟩ := hw.exists_eq_cons
      rw [List.cons_append] at hafter ⊢
      rw [displayFrom_of_afterCode? hafter, ih]
  | char c cs hnone ih => rw [strip_cons hnone, displayFrom_cons hnone, List.map_cons, ih]

end Ansi

namespace Excerpt

open Ansi

variable {filename : String} {text chars : List Char} {offset i : Nat} {p : Position}
  {lines : List (List Char)}

/-! ## Rows without their marks -/

theorem map_char_plain (chars : List Char) : (Glyph.plain chars).map Glyph.char = chars := by
  rw [Glyph.plain, List.map_map]
  exact List.map_id chars

theorem map_char_markAt (j : Nat) (chars : List Char) :
    (markAt j chars).map Glyph.char = chars := by
  have hchar : (chars[j]?.toList.map (⟨·, true⟩ : Char → Glyph)).map Glyph.char =
      chars[j]?.toList := by
    rw [List.map_map]
    exact List.map_id _
  rw [markAt, List.map_append, List.map_append, map_char_plain, map_char_plain, hchar,
    ← List.take_add_one, List.take_append_drop]

theorem map_char_shownRow (p : Position) (i : Nat) (chars : List Char) :
    (shownRow p i chars).map Glyph.char = (margin i).toList ++ chars := by
  rw [shownRow, List.map_append, map_char_plain]
  split
  · rw [map_char_markAt]
  · rw [map_char_plain]

theorem map_char_shownRows (p : Position) (lines : List (List Char)) (indices : List Nat) :
    (shownRows p lines indices).map Glyph.char = indices.flatMap (rowText lines) := by
  rw [shownRows, List.map_flatMap]
  refine List.flatMap_congr fun i _ => ?_
  rw [rowText]
  cases lines[i]? with
  | none => rfl
  | some chars => simp [map_char_shownRow, Glyph.plain]

/-! ## The lines in the window -/

theorem window_eq_range' (number count : Nat) :
    window number count =
      List.range' (number - 3) (min count (number + 2) - (number - 3)) := by
  rw [window, List.range_eq_range', List.drop_range', Nat.zero_add, Nat.mul_one]

theorem window_eq_filter (number count : Nat) :
    window number count =
      (List.range count).filter fun i => number - 3 ≤ i ∧ i < number + 2 := by
  rw [window_eq_range']
  apply List.Pairwise.eq_of_mem_iff (r := (· < ·)) List.pairwise_lt_range'
    (List.pairwise_lt_range.filter _)
  intro i
  simp only [List.mem_range'_1, List.mem_filter, List.mem_range, decide_eq_true_eq]
  omega

theorem lt_of_mem_window {number count : Nat} (h : i ∈ window number count) : i < count := by
  rw [window_eq_filter, List.mem_filter, List.mem_range] at h
  exact h.1

theorem filterMap_range_getElem? {α : Type} (l : List α) :
    (List.range l.length).filterMap (fun i => l[i]?.map (·, i)) = l.zipIdx := by
  induction l with
  | nil => rfl
  | cons a l ih =>
      rw [List.length_cons, List.range_succ_eq_map, List.filterMap_cons, List.filterMap_map,
        List.zipIdx_cons', ← ih, List.map_filterMap]
      simp only [List.getElem?_cons_zero, Option.map_some, Function.comp_def, Nat.succ_eq_add_one,
        List.getElem?_cons_succ, Option.map_map]
      rfl

theorem plainRows_eq (p : Position) (lines : List (List Char)) :
    plainRows p lines =
      (window p.line lines.length).filterMap fun i => lines[i]?.map (plainRow i) := by
  rw [plainRows, window_eq_filter, ← filterMap_range_getElem?, List.filter_filterMap,
    List.map_filterMap, List.filterMap_filter]
  refine List.filterMap_congr fun i _ => ?_
  cases lines[i]? with
  | none => simp
  | some chars =>
      rw [Option.map_some, Option.filter_some]
      split <;> rfl

/-! ## The plain excerpt -/

theorem toList_plainRow (i : Nat) (chars : List Char) :
    (plainRow i chars).toList = (margin i).toList ++ chars := by
  rw [plainRow, String.toList_append, String.toList_ofList, margin]

theorem flatMap_plainRow (lines : List (List Char)) (indices : List Nat) :
    ((indices.filterMap fun i => lines[i]?.map (plainRow i)).flatMap fun s => '\n' :: s.toList) =
      indices.flatMap (rowText lines) := by
  induction indices with
  | nil => rfl
  | cons i indices ih =>
      rw [List.filterMap_cons, List.flatMap_cons, rowText]
      cases lines[i]? with
      | none => exact ih
      | some chars =>
          rw [Option.map_some, Option.map_some, Option.getD_some, List.flatMap_cons, ih,
            toList_plainRow]

/-- Line feeds behind the lines instead of in front of them. -/
theorem flatMap_feeds (l : List String) :
    (l.flatMap fun s => '\n' :: s.toList) ++ ['\n'] =
      '\n' :: (l.map (· ++ "\n")).flatMap String.toList := by
  have hfeed : "\n".toList = ['\n'] := by decide
  induction l with
  | nil => rfl
  | cons s l ih =>
      rw [List.flatMap_cons, List.append_assoc, ih, List.map_cons, List.flatMap_cons,
        String.toList_append, hfeed]
      simp

theorem toList_plainExcerpt (filename : String) (text : List Char) (offset : Nat) :
    (plainExcerpt filename text offset).toList =
      '\n' :: (plainHeader filename (Position.ofOffset text offset)).toList ++
        (window (Position.ofOffset text offset).line (Lines.split text).length).flatMap
          (rowText (Lines.split text)) ++ ['\n'] := by
  have hfeed : "\n".toList = ['\n'] := by decide
  have hempty : ("" ++ "\n").toList = ['\n'] := by decide
  rw [← flatMap_plainRow, ← plainRows_eq, List.append_assoc, flatMap_feeds, plainExcerpt,
    String.toList_join, List.map_cons, List.map_cons, List.flatMap_cons, List.flatMap_cons,
    hempty, String.toList_append, hfeed]
  simp

/-! ## Look-ups -/

theorem highlightAt?_eq (column : Nat) (chars : List Char) :
    highlightAt? column chars = some (highlightAt column chars) := by
  rw [highlightAt?]
  cases column with
  | zero => rw [if_neg (by simp), highlightAt]
  | succ k =>
      by_cases hk : k < chars.length
      · rw [if_pos ⟨Nat.succ_pos k, hk⟩, Nat.add_sub_cancel]
        simp only [highlightAt, List.getElem?_eq_getElem hk, Option.map_some]
      · rw [if_neg (by omega)]
        simp only [highlightAt, List.getElem?_eq_none (Nat.le_of_not_lt hk)]

theorem row?_eq (p : Position) {lines : List (List Char)} (h : lines[i]? = some chars) :
    row? p lines i = some (row p i chars) := by
  rw [row?, h, Option.bind_some, row]
  split
  · rw [highlightAt?_eq, Option.map_some]
  · rfl

/-- Rows are made for the lines of the text only. -/
theorem rows?_eq (p : Position) (lines : List (List Char)) :
    rows? p lines = some (rows p lines) := by
  have hindices : ∀ indices : List Nat, (∀ i ∈ indices, i < lines.length) →
      indices.mapM (row? p lines) = some (indices.filterMap fun i => lines[i]?.map (row p i)) := by
    intro indices h
    induction indices with
    | nil => rfl
    | cons i indices ih =>
        rw [List.forall_mem_cons] at h
        have hline := List.getElem?_eq_getElem h.1
        rw [List.mapM_cons, row?_eq p hline, ih h.2, List.filterMap_cons, hline]
        rfl
  rw [rows?, ← window_eq_range', hindices _ fun i hi => lt_of_mem_window hi, rows]

end Excerpt

open Ansi Excerpt

/-- Without its colour codes an excerpt is the plain excerpt: the marked character stays where it
is in its line. And no look-up of an excerpt fails. -/
theorem strip_excerpt {filename : String} {text : List Char} (hname : escape ∉ filename.toList)
    (htext : escape ∉ text) (offset : Nat) :
    stripString colours (excerpt filename text offset) = plainExcerpt filename text offset ∧
    excerpt? filename text offset = some (excerpt filename text offset) := by
  constructor
  · apply String.toList_injective
    rw [stripString, String.toList_ofList, ← map_char_displayFrom false]
    have hdisplay : display (excerpt filename text offset) = _ := display_excerpt hname htext
    rw [display] at hdisplay
    rw [hdisplay, List.map_append, List.map_append, map_char_plain, map_char_plain,
      map_char_shownRows, toList_plainExcerpt, List.append_assoc]
  · rw [excerpt?, rows?_eq]
    rfl

/-- The marked character is a digit in front of an `m`, behind codes that end in one. -/
theorem strip_excerpt_of_digit :
    escape ∉ "f.bf".toList ∧ escape ∉ ['[', '\n', '1', 'm'] ∧
    stripString colours (excerpt "f.bf" ['[', '\n', '1', 'm'] 2) =
      "\n  File \"f.bf\", line 2, column 1\n    1 | [\n    2 | 1m\n" ∧
    excerpt? "f.bf" ['[', '\n', '1', 'm'] 2 = some (excerpt "f.bf" ['[', '\n', '1', 'm'] 2) := by
  have hname : escape ∉ "f.bf".toList := by decide
  have htext : escape ∉ ['[', '\n', '1', 'm'] := by decide
  have hplain : plainExcerpt "f.bf" ['[', '\n', '1', 'm'] 2 =
      "\n  File \"f.bf\", line 2, column 1\n    1 | [\n    2 | 1m\n" := by decide
  obtain ⟨hstrip, hlookups⟩ := strip_excerpt hname htext 2
  exact ⟨hname, htext, hstrip.trans hplain, hlookups⟩

end TapeMachine
