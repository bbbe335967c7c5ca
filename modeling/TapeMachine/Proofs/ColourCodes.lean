import Mathlib.Data.List.TakeWhile
import TapeMachine.Text.Ansi

/-!
# What is left without colour codes

A colour code holds one escape character, in front, so that codes in a text never overlap, and one
pass removes them all. What they stood between comes together. So a code is left exactly where the
text has one into which other codes have been put.
-/

namespace TapeMachine

namespace Ansi

variable {f : Family} {c : Char} {s t u v w x rest parameters : List Char}

/-- An escape character, a bracket, any number of digits and semicolons, and `m`. -/
def IsColourCode (w : List Char) : Prop :=
  ∃ parameters, (∀ c ∈ parameters, colours.isParameter c = true) ∧
    w = escape :: '[' :: (parameters ++ ['m'])

def HasColourCode (s : List Char) : Prop := ∃ w, IsColourCode w ∧ w <:+: s

/-- The second text is the first with colour codes put in anywhere. -/
inductive Laced : List Char → List Char → Prop where
  | nil : Laced [] []
  | char {s t : List Char} (c : Char) (h : Laced s t) : Laced (c :: s) (c :: t)
  | code {s t w : List Char} (hw : IsColourCode w) (h : Laced s t) : Laced s (w ++ t)

/-- The text holds a colour code into which other colour codes have been put. -/
def HasInterruptedCode (s : List Char) : Prop :=
  ∃ parameters inner, (∀ c ∈ parameters, colours.isParameter c = true) ∧
    Laced ('[' :: parameters) inner ∧ inner ≠ '[' :: parameters ∧
      escape :: (inner ++ ['m']) <:+: s

/-! ## Codes in front of a text -/

theorem afterCode?_of_ne (h : c ≠ escape) (cs : List Char) : afterCode? f (c :: cs) = none := by
  unfold afterCode?
  split
  · rename_i heq
    rw [if_neg (by rintro rfl; exact h (List.cons.inj heq).1)]
  · rfl

theorem escape_notMem_parameters (h : ∀ c ∈ parameters, colours.isParameter c = true) :
    escape ∉ parameters := fun hmem => absurd (h escape hmem) (by decide)

theorem afterCode?_of_parameters (h : ∀ c ∈ parameters, colours.isParameter c = true)
    (rest : List Char) :
    afterCode? colours (escape :: '[' :: (parameters ++ 'm' :: rest)) = some rest := by
  rw [afterCode?, if_pos rfl, List.dropWhile_append_of_pos h,
    List.dropWhile_cons_of_neg (by decide)]
  rfl

theorem dropWhile_intermediate (l : List Char) : l.dropWhile colours.isIntermediate = l := by
  cases l <;> rfl

theorem exists_parameters_of_afterCode? (h : afterCode? colours s = some rest) :
    ∃ parameters, (∀ c ∈ parameters, colours.isParameter c = true) ∧
      s = escape :: '[' :: (parameters ++ 'm' :: rest) := by
  unfold afterCode? at h
  split at h
  case h_1 e tail =>
    split at h
    case isTrue he =>
      rw [dropWhile_intermediate] at h
      split at h
      case h_1 m behind hbehind =>
        split at h
        case isTrue hfinal =>
          obtain rfl : behind = rest := Option.some.inj h
          obtain rfl : m = 'm' := of_decide_eq_true hfinal
          refine ⟨tail.takeWhile colours.isParameter, fun c hc => List.mem_takeWhile_imp hc, ?_⟩
          rw [← hbehind, List.takeWhile_append_dropWhile, he]
        case isFalse => cases h
      case h_2 => cases h
    case isFalse => cases h
  case h_2 => cases h

theorem afterCode?_eq_some_iff :
    afterCode? colours s = some rest ↔ ∃ w, IsColourCode w ∧ s = w ++ rest := by
  constructor
  · intro h
    obtain ⟨parameters, hparameters, rfl⟩ := exists_parameters_of_afterCode? h
    exact ⟨_, ⟨parameters, hparameters, rfl⟩, by simp⟩
  · rintro ⟨_, ⟨parameters, hparameters, rfl⟩, rfl⟩
    rw [List.cons_append, List.cons_append, List.append_assoc]
    exact afterCode?_of_parameters hparameters rest

theorem IsColourCode.exists_eq_cons (h : IsColourCode w) : ∃ x, w = escape :: x ∧ escape ∉ x := by
  obtain ⟨parameters, hparameters, rfl⟩ := h
  refine ⟨_, rfl, ?_⟩
  rw [List.mem_cons, List.mem_append, not_or, not_or]
  exact ⟨by decide, escape_notMem_parameters hparameters, by decide⟩

/-- A code in front of a text ends in front of the next escape character. -/
theorem afterCode?_append_escape (hs : s ≠ []) (t : List Char) :
    afterCode? colours (s ++ escape :: t) =
      (afterCode? colours s).map (· ++ escape :: t) := by
  ext rest
  rw [afterCode?_eq_some_iff, Option.map_eq_some_iff]
  constructor
  · rintro ⟨w, hw, heq⟩
    rcases List.append_eq_append_iff.mp heq with ⟨inner, hlong, hrest⟩ | ⟨behind, hshort, hrest⟩
    · cases inner with
      | nil =>
          rw [List.append_nil] at hlong
          exact ⟨[], afterCode?_eq_some_iff.mpr ⟨w, hw, by rw [hlong, List.append_nil]⟩, hrest⟩
      | cons e inner =>
          obtain ⟨x, rfl, hx⟩ := hw.exists_eq_cons
          obtain ⟨d, ds, rfl⟩ := List.exists_cons_of_ne_nil hs
          obtain rfl : e = escape := (List.cons.inj hrest).1.symm
          obtain rfl : x = ds ++ escape :: inner := (List.cons.inj hlong).2
          simp at hx
    · exact ⟨behind, afterCode?_eq_some_iff.mpr ⟨w, hw, hshort⟩, hrest.symm⟩
  · rintro ⟨behind, hbehind, rfl⟩
    obtain ⟨w, hw, rfl⟩ := afterCode?_eq_some_iff.mp hbehind
    exact ⟨w, hw, List.append_assoc w behind _⟩

/-- A text begins with a code or with a character that begins none. -/
theorem code_induction {motive : List Char → Prop} (nil : motive [])
    (code : ∀ w rest, IsColourCode w → motive rest → motive (w ++ rest))
    (char : ∀ c cs, afterCode? colours (c :: cs) = none → motive cs → motive (c :: cs))
    (s : List Char) : motive s := by
  induction hlength : s.length using Nat.strong_induction_on generalizing s with
  | _ n ih =>
      cases s with
      | nil => exact nil
      | cons c cs =>
          cases hafter : afterCode? colours (c :: cs) with
          | none => exact char c cs hafter (ih _ (by simp [← hlength]) cs rfl)
          | some rest =>
              have hshorter := length_of_afterCode? hafter
              obtain ⟨w, hw, hs⟩ := afterCode?_eq_some_iff.mp hafter
              rw [hs]
              exact code w rest hw (ih _ (hlength ▸ hshorter) rest rfl)

/-! ## One pass -/

theorem strip_of_code (h : IsColourCode w) (rest : List Char) :
    strip colours (w ++ rest) = strip colours rest := by
  have hafter : afterCode? colours (w ++ rest) = some rest :=
    afterCode?_eq_some_iff.mpr ⟨w, h, rfl⟩
  obtain ⟨x, rfl, -⟩ := h.exists_eq_cons
  rw [List.cons_append] at hafter ⊢
  rw [strip]
  split
  · rename_i behind hbehind
    rw [hafter] at hbehind
    cases hbehind
    rfl
  · rename_i hnone
    rw [hafter] at hnone
    cases hnone

theorem strip_cons (h : afterCode? f (c :: s) = none) : strip f (c :: s) = c :: strip f s := by
  rw [strip]
  split
  · rename_i hsome
    rw [h] at hsome
    cases hsome
  · rfl

theorem strip_nil (f : Family) : strip f [] = [] := by rw [strip]

theorem strip_append_escape (s t : List Char) :
    strip colours (s ++ escape :: t) = strip colours s ++ strip colours (escape :: t) := by
  induction s using code_induction with
  | nil => rw [strip_nil, List.nil_append, List.nil_append]
  | code w rest hw ih => rw [List.append_assoc, strip_of_code hw, strip_of_code hw, ih]
  | char c cs hnone ih =>
      have hnone' : afterCode? colours (c :: (cs ++ escape :: t)) = none := by
        rw [← List.cons_append, afterCode?_append_escape (List.cons_ne_nil c cs), hnone]
        rfl
      rw [List.cons_append, strip_cons hnone, strip_cons hnone', ih, List.cons_append]

/-! ## Texts with codes put in -/

/-- Codes are removed, and nothing else is. -/
theorem laced_strip (s : List Char) : Laced (strip colours s) s := by
  induction s using code_induction with
  | nil =>
      rw [strip_nil]
      exact .nil
  | code w rest hw ih =>
      rw [strip_of_code hw]
      exact .code hw ih
  | char c cs hnone ih =>
      rw [strip_cons hnone]
      exact .char c ih

theorem Laced.length_le (h : Laced s t) : s.length ≤ t.length := by
  induction h with
  | nil => exact Nat.le_refl 0
  | char c _ ih => exact Nat.succ_le_succ ih
  | @code s t w _ _ ih =>
      rw [List.length_append]
      exact Nat.le_trans ih (Nat.le_add_left _ _)

theorem Laced.exists_of_append_cons (h : Laced (u ++ c :: v) t) :
    ∃ x y, t = x ++ c :: y ∧ Laced u x := by
  generalize hs : u ++ c :: v = s at h
  induction h generalizing u with
  | nil => simp at hs
  | @char s t d h ih =>
      cases u with
      | nil =>
          cases hs
          exact ⟨[], t, rfl, .nil⟩
      | cons e u =>
          rw [List.cons_append] at hs
          obtain ⟨rfl, htail⟩ := List.cons.inj hs
          obtain ⟨x, y, rfl, hx⟩ := ih htail
          exact ⟨e :: x, y, rfl, .char e hx⟩
  | @code s t w hw _ ih =>
      obtain ⟨x, y, rfl, hx⟩ := ih hs
      exact ⟨w ++ x, y, (List.append_assoc w x _).symm, .code hw hx⟩

/-- Up to the first code nothing has been put in. -/
theorem Laced.front (h : Laced u (x ++ t)) (hx : escape ∉ x) : x <+: u := by
  generalize hs : x ++ t = s at h
  induction h generalizing x with
  | nil => simp_all
  | @char s t d h ih =>
      cases x with
      | nil => exact List.nil_prefix
      | cons e x =>
          rw [List.cons_append] at hs
          obtain ⟨rfl, htail⟩ := List.cons.inj hs
          rw [List.mem_cons, not_or] at hx
          exact List.cons_prefix_cons.mpr ⟨rfl, ih hx.2 htail⟩
  | @code s t w hw _ ih =>
      cases x with
      | nil => exact List.nil_prefix
      | cons e x =>
          obtain ⟨y, rfl, -⟩ := hw.exists_eq_cons
          obtain ⟨rfl, -⟩ := List.cons.inj hs
          exact absurd List.mem_cons_self hx

theorem Laced.eq_of_escape_notMem (h : Laced u x) (hx : escape ∉ x) : u = x := by
  have hfront : x <+: u := Laced.front (t := []) (by rwa [List.append_nil]) hx
  exact (hfront.eq_of_length_le h.length_le).symm

theorem strip_laced (h : Laced u v) (hu : escape ∉ u) (t : List Char) :
    strip colours (v ++ t) = u ++ strip colours t := by
  induction h with
  | nil => rfl
  | char c _ ih =>
      rw [List.mem_cons, not_or] at hu
      rw [List.cons_append, strip_cons (afterCode?_of_ne (Ne.symm hu.1) _), ih hu.2,
        List.cons_append]
  | code hw _ ih => rw [List.append_assoc, strip_of_code hw, ih hu]

/-! ## What is left -/

theorem hasInterruptedCode_of_suffix (hsuffix : t <:+ s) (h : HasInterruptedCode t) :
    HasInterruptedCode s := by
  obtain ⟨parameters, inner, hparameters, hlaced, hne, hinfix⟩ := h
  exact ⟨parameters, inner, hparameters, hlaced, hne, hinfix.trans hsuffix.isInfix⟩

/-- A code that begins with a character in front of a stripped text was interrupted. -/
theorem hasInterruptedCode_of_prefix (hnone : afterCode? colours (c :: s) = none)
    (hw : IsColourCode w) (h : w <+: c :: strip colours s) : HasInterruptedCode (c :: s) := by
  obtain ⟨parameters, hparameters, rfl⟩ := hw
  obtain ⟨rfl, v, hv⟩ := List.cons_prefix_cons.mp h
  have hlaced : Laced ('[' :: parameters ++ 'm' :: v) s := by
    have hstrip := laced_strip s
    rw [← hv] at hstrip
    simpa using hstrip
  obtain ⟨inner, y, rfl, hinner⟩ := hlaced.exists_of_append_cons
  refine ⟨parameters, inner, hparameters, hinner, ?_, ⟨[], y, by simp⟩⟩
  rintro rfl
  rw [List.cons_append, afterCode?_of_parameters hparameters] at hnone
  cases hnone

theorem hasInterruptedCode_of_strip (h : HasColourCode (strip colours s)) :
    HasInterruptedCode s := by
  induction s using code_induction with
  | nil =>
      obtain ⟨w, ⟨parameters, -, rfl⟩, hinfix⟩ := h
      rw [strip_nil] at hinfix
      cases List.eq_nil_of_infix_nil hinfix
  | code w rest hw ih =>
      rw [strip_of_code hw] at h
      exact hasInterruptedCode_of_suffix (List.suffix_append w rest) (ih h)
  | char c cs hnone ih =>
      obtain ⟨w, hw, hinfix⟩ := h
      rw [strip_cons hnone, List.infix_cons_iff] at hinfix
      rcases hinfix with hfront | hinfix
      · exact hasInterruptedCode_of_prefix hnone hw hfront
      · exact hasInterruptedCode_of_suffix (List.suffix_cons c cs) (ih ⟨w, hw, hinfix⟩)

/-- Where codes stand between the characters of a code, its escape character begins none. -/
theorem afterCode?_of_interrupted (hparameters : ∀ c ∈ parameters, colours.isParameter c = true)
    (hlaced : Laced ('[' :: parameters) u) (hne : u ≠ '[' :: parameters) (t : List Char) :
    afterCode? colours (escape :: (u ++ 'm' :: t)) = none := by
  rw [Option.eq_none_iff_forall_ne_some]
  intro rest hrest
  obtain ⟨within, hwithin, heq⟩ := exists_parameters_of_afterCode? hrest
  have hm : 'm' ∉ '[' :: parameters := by
    rw [List.mem_cons, not_or]
    exact ⟨by decide, fun hmem => absurd (hparameters _ hmem) (by decide)⟩
  have hcode : escape ∉ '[' :: (within ++ ['m']) := by
    simp only [List.mem_cons, List.mem_append, not_or]
    exact ⟨by decide, escape_notMem_parameters hwithin, by decide⟩
  have htexts : u ++ 'm' :: t = '[' :: (within ++ ['m']) ++ rest := by
    simpa using (List.cons.inj heq).2
  rcases List.append_eq_append_iff.mp htexts with ⟨x, hshort, -⟩ | ⟨x, hlong, -⟩
  · apply hne
    refine (hlaced.eq_of_escape_notMem fun hmem => hcode ?_).symm
    rw [hshort]
    exact List.mem_append_left x hmem
  · rw [hlong] at hlaced
    exact hm ((hlaced.front hcode).subset (by simp))

theorem hasColourCode_strip (h : HasInterruptedCode s) : HasColourCode (strip colours s) := by
  obtain ⟨parameters, inner, hparameters, hlaced, hne, before, after, rfl⟩ := h
  have hescape : escape ∉ '[' :: parameters := by
    rw [List.mem_cons, not_or]
    exact ⟨by decide, escape_notMem_parameters hparameters⟩
  have htext : before ++ escape :: (inner ++ ['m']) ++ after =
      before ++ escape :: (inner ++ 'm' :: after) := by simp
  have hnone := afterCode?_of_interrupted hparameters hlaced hne after
  refine ⟨_, ⟨parameters, hparameters, rfl⟩, strip colours before, strip colours after, ?_⟩
  rw [htext, strip_append_escape, strip_cons hnone, strip_laced hlaced hescape,
    strip_cons (afterCode?_of_ne (by decide) after)]
  simp

theorem hasColourCode_strip_iff :
    HasColourCode (strip colours s) ↔ HasInterruptedCode s :=
  ⟨hasInterruptedCode_of_strip, hasColourCode_strip⟩

/-- A text is passed on as it is if it has no code. -/
theorem strip_eq_self_iff : strip colours s = s ↔ ¬HasColourCode s := by
  constructor
  · rintro hself ⟨w, hw, before, after, rfl⟩
    obtain ⟨x, rfl, -⟩ := hw.exists_eq_cons
    have hlength := congrArg List.length hself
    have hbefore := (laced_strip before).length_le
    have hafter := (laced_strip after).length_le
    rw [List.append_assoc, List.cons_append, strip_append_escape, ← List.cons_append,
      strip_of_code hw] at hlength
    simp only [List.length_append, List.length_cons] at hlength
    omega
  · intro hnone
    induction s using code_induction with
    | nil => exact strip_nil colours
    | code w rest hw _ => exact absurd ⟨w, hw, (List.prefix_append w rest).isInfix⟩ hnone
    | char c cs hafter ih =>
        rw [strip_cons hafter, ih]
        rintro ⟨w, hw, hinfix⟩
        exact hnone ⟨w, hw, hinfix.trans (List.suffix_cons c cs).isInfix⟩

/-- The text that is passed on is the given one without codes, and has a code itself exactly if the
given text has one that is interrupted by others. Only then a second pass changes anything. -/
theorem strip_leaves_interrupted_codes (s : String) :
    Laced (stripString colours s).toList s.toList ∧
    (HasColourCode (stripString colours s).toList ↔ HasInterruptedCode s.toList) ∧
    (stripString colours (stripString colours s) = stripString colours s ↔
      ¬HasInterruptedCode s.toList) := by
  have htext : (stripString colours s).toList = strip colours s.toList := by
    rw [stripString, String.toList_ofList]
  refine ⟨?_, ?_, ?_⟩
  · rw [htext]
    exact laced_strip s.toList
  · rw [htext]
    exact hasColourCode_strip_iff
  · rw [← hasColourCode_strip_iff, ← strip_eq_self_iff, ← String.toList_inj, stripString,
      String.toList_ofList, htext]

/-- Between the escape character and the bracket of a code another one is removed, and the two come
together. What is passed on has a code, and a second pass removes it. -/
theorem code_left_of_interrupted_code :
    stripString colours "\x1b\x1b[m[m" = "\x1b[m" ∧
    HasColourCode (stripString colours "\x1b\x1b[m[m").toList ∧
    stripString colours (stripString colours "\x1b\x1b[m[m") = "" := by
  have hcode : IsColourCode [escape, '[', 'm'] := ⟨[], by simp, rfl⟩
  have hfirst : stripString colours "\x1b\x1b[m[m" = "\x1b[m" := by
    have hstrip : strip colours (escape :: ([escape, '[', 'm'] ++ ['[', 'm'])) =
        [escape, '[', 'm'] := by
      rw [strip_cons (by decide), strip_of_code hcode, strip_cons (by decide),
        strip_cons (by decide), strip_nil]
    exact congrArg String.ofList hstrip
  have hsecond : stripString colours "\x1b[m" = "" :=
    congrArg String.ofList ((strip_of_code hcode []).trans (strip_nil colours))
  refine ⟨hfirst, ?_, ?_⟩
  · rw [hfirst]
    exact ⟨_, hcode, List.infix_refl _⟩
  · rw [hfirst, hsecond]

end Ansi

end TapeMachine
