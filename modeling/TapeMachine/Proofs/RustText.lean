import TapeMachine.Proofs.Literals
import TapeMachine.Proofs.Numerals
import TapeMachine.Rust.Source

/-!
# Generated text determines the program

The text is read back line by line: blanks at the beginning of a line say nothing, no line holds a
line break, and the first character behind the blanks tells a statement from what closes the
program. The input stands on one of these lines, in a literal that it cannot end.
-/

namespace TapeMachine

namespace Rust

/-! ## Lines -/

theorem replicate_blank_inj {k k' : Nat} {c c' : Char} {l l' : List Char} (hc : c ≠ ' ')
    (hc' : c' ≠ ' ')
    (h : List.replicate k ' ' ++ c :: l = List.replicate k' ' ' ++ c' :: l') :
    c :: l = c' :: l' := by
  have hdrop : ∀ {k : Nat} {c : Char} {l : List Char}, c ≠ ' ' →
      (List.replicate k ' ' ++ c :: l).dropWhile (· = ' ') = c :: l := by
    intro k c l hc
    have hpos : ∀ d ∈ List.replicate k ' ', decide (d = ' ') = true := fun d hd =>
      decide_eq_true (List.eq_of_mem_replicate hd)
    rw [List.dropWhile_append_of_pos hpos]
    simp [hc]
  rw [← hdrop (k := k) hc, h, hdrop hc']

/-! ## Statements -/

namespace Effect

theorem text_forward (n : Nat) : (forward n).text =
    "_p = _p.wrapping_add(" ++ n.repr ++ "); let _ = &_m[_p];" := rfl

theorem text_backward (n : Nat) : (backward n).text =
    "_p = _p.wrapping_sub(" ++ n.repr ++ "); let _ = &_m[_p];" := rfl

theorem text_increase (b : UInt8) : (increase b).text =
    "_m[_p] += Wrapping(" ++ b.toNat.repr ++ "u8);" := rfl

theorem text_emit : emit.text = "_o.push(_m[_p].0);" := rfl

theorem text_take : take.text =
    "_m[_p] = Wrapping(match _i.get(_b) \x7b Some(c) => \x7b _b += 1; *c \x7d " ++
      "None => std::process::exit(" ++ "10" ++ ") \x7d);" := rfl

theorem newline_notMem_text (e : Effect) : '\n' ∉ e.text.toList := by
  cases e with
  | forward n =>
      rw [text_forward]
      exact notMem_append_repr_append (by decide) (by simp) n (by simp)
  | backward n =>
      rw [text_backward]
      exact notMem_append_repr_append (by decide) (by simp) n (by simp)
  | increase b =>
      rw [text_increase]
      exact notMem_append_repr_append (by decide) (by simp) b.toNat (by simp)
  | emit => simp [text_emit]
  | take => simp [text_take]

theorem head?_text (e : Effect) : e.text.toList.head? = some '_' := by
  cases e with
  | forward n => simp [text_forward]
  | backward n => simp [text_backward]
  | increase b => simp [text_increase]
  | emit => simp [text_emit]
  | take => simp [text_take]

theorem text_injective : Function.Injective text := by
  intro e e' h
  have hlist := congrArg String.toList h
  cases e with
  | forward n =>
      cases e' with
      | forward m =>
          rw [text_forward, text_forward, String.append_left_inj, String.append_right_inj] at h
          rw [eq_of_repr_eq h]
      | backward m => simp [text_forward, text_backward] at hlist
      | increase b => simp [text_forward, text_increase] at hlist
      | emit => simp [text_forward, text_emit] at hlist
      | take => simp [text_forward, text_take] at hlist
  | backward n =>
      cases e' with
      | forward m => simp [text_forward, text_backward] at hlist
      | backward m =>
          rw [text_backward, text_backward, String.append_left_inj, String.append_right_inj] at h
          rw [eq_of_repr_eq h]
      | increase b => simp [text_backward, text_increase] at hlist
      | emit => simp [text_backward, text_emit] at hlist
      | take => simp [text_backward, text_take] at hlist
  | increase b =>
      cases e' with
      | forward m => simp [text_forward, text_increase] at hlist
      | backward m => simp [text_backward, text_increase] at hlist
      | increase c =>
          rw [text_increase, text_increase, String.append_left_inj, String.append_right_inj] at h
          rw [UInt8.toNat_inj.mp (eq_of_repr_eq h)]
      | emit => simp [text_increase, text_emit] at hlist
      | take => simp [text_increase, text_take] at hlist
  | emit =>
      cases e' with
      | forward m => simp [text_forward, text_emit] at hlist
      | backward m => simp [text_backward, text_emit] at hlist
      | increase c => simp [text_increase, text_emit] at hlist
      | emit => rfl
      | take => simp [text_emit, text_take] at hlist
  | take =>
      cases e' with
      | forward m => simp [text_forward, text_take] at hlist
      | backward m => simp [text_backward, text_take] at hlist
      | increase c => simp [text_increase, text_take] at hlist
      | emit => simp [text_emit, text_take] at hlist
      | take => rfl

end Effect

namespace Statement

theorem newline_notMem_text (s : Statement) : '\n' ∉ s.text.toList := by
  cases s with
  | effect e => exact e.newline_notMem_text
  | openLoop => simp [text]
  | closeLoop => simp [text]

/-- No statement begins with a blank, or like the lines behind the last one. -/
theorem exists_text_eq_cons (s : Statement) :
    ∃ c l, s.text.toList = c :: l ∧ c ≠ ' ' ∧ c ≠ 'l' := by
  cases s with
  | effect e =>
      obtain ⟨l, hl⟩ := List.head?_eq_some_iff.mp e.head?_text
      exact ⟨'_', l, hl, by decide, by decide⟩
  | openLoop => exact ⟨'w', "hile _m[_p].0 != 0 \x7b".toList, by simp [text]⟩
  | closeLoop => exact ⟨'\x7d', [], by simp [text]⟩

theorem text_injective : Function.Injective text := by
  have heffect : ∀ e : Effect, text (.effect e) = e.text := fun _ => rfl
  have hopen : text openLoop = "while _m[_p].0 != 0 \x7b" := rfl
  have hclose : text closeLoop = "\x7d" := rfl
  intro s s' h
  have hhead := congrArg (fun s => s.toList.head?) h
  cases s with
  | effect e =>
      cases s' with
      | effect e' => rw [Effect.text_injective h]
      | openLoop => simp [heffect, hopen, e.head?_text] at hhead
      | closeLoop => simp [heffect, hclose, e.head?_text] at hhead
  | openLoop =>
      cases s' with
      | effect e' => simp [heffect, hopen, e'.head?_text] at hhead
      | openLoop => rfl
      | closeLoop => simp [hopen, hclose] at hhead
  | closeLoop =>
      cases s' with
      | effect e' => simp [heffect, hclose, e'.head?_text] at hhead
      | openLoop => simp [hopen, hclose] at hhead
      | closeLoop => rfl

end Statement

namespace Source

/-! ## Programs -/

/-- The characters of the lines of a body and of what closes the program behind them. -/
def bodyText (depth : Int) (body : List Statement) : List Char :=
  (bodyLines depth body).flatMap String.toList ++ closing.toList

/-- The depth at which a statement stands, given the depth before it. -/
def depthAt (depth : Int) (s : Statement) : Int := if s = .closeLoop then depth - 1 else depth

/-- The depth behind a statement. -/
def depthAfter (depth : Int) (s : Statement) : Int :=
  if s = .openLoop then depthAt depth s + 1 else depthAt depth s

theorem bodyText_cons (depth : Int) (s : Statement) (body : List Statement) :
    bodyText depth (s :: body) =
      List.replicate (4 * (depthAt depth s).toNat) ' ' ++
        (s.text.toList ++ '\n' :: bodyText (depthAfter depth s) body) := by
  simp [bodyText, bodyLines, indentation, depthAt, depthAfter]

theorem exists_bodyText_nil (depth : Int) :
    ∃ l, bodyText depth [] = List.replicate 4 ' ' ++ 'l' :: l := by
  have hfirst : "    let mut _out = std::io::stdout();\n".toList =
      List.replicate 4 ' ' ++ 'l' :: "et mut _out = std::io::stdout();\n".toList := by decide
  unfold bodyText closing bodyLines
  rw [List.flatMap_nil, List.nil_append, String.toList_append, String.toList_append,
    String.toList_append, hfirst, List.append_assoc, List.append_assoc, List.append_assoc,
    List.cons_append]
  exact ⟨_, rfl⟩

theorem bodyText_injective (depth : Int) : Function.Injective (bodyText depth) := by
  have hne : ∀ (depth : Int) (s : Statement) (body : List Statement),
      bodyText depth (s :: body) ≠ bodyText depth [] := by
    intro depth s body h
    obtain ⟨c, l, hs, hblank, hl⟩ := s.exists_text_eq_cons
    obtain ⟨l', hnil⟩ := exists_bodyText_nil depth
    rw [bodyText_cons, hs, hnil, List.cons_append] at h
    exact hl (List.cons.inj (replicate_blank_inj hblank (by decide) h)).1
  intro body
  induction body generalizing depth with
  | nil =>
      intro body' h
      cases body' with
      | nil => rfl
      | cons s' body' => exact (hne depth s' body' h.symm).elim
  | cons s body ih =>
      intro body' h
      cases body' with
      | nil => exact (hne depth s body h).elim
      | cons s' body' =>
          obtain ⟨c, l, hs, hblank, -⟩ := s.exists_text_eq_cons
          obtain ⟨c', l', hs', hblank', -⟩ := s'.exists_text_eq_cons
          have hlines : s.text.toList ++ '\n' :: bodyText (depthAfter depth s) body =
              s'.text.toList ++ '\n' :: bodyText (depthAfter depth s') body' := by
            rw [bodyText_cons, bodyText_cons, hs, hs'] at h
            rw [hs, hs']
            exact replicate_blank_inj hblank hblank' h
          obtain ⟨hline, hrest⟩ :=
            append_cons_inj s.newline_notMem_text s'.newline_notMem_text hlines
          obtain rfl : s = s' := Statement.text_injective (String.toList_injective hline)
          rw [ih (depthAfter depth s) hrest]

/-- The line that binds the input, without its line break. -/
def inputBinding (input : List UInt8) : List Char :=
  "    let _i: &[u8] = b\"".toList ++ (literalBody input ++ ['"', ';'])

theorem printable_of_mem_inputBinding {input : List UInt8} {c : Char} (h : c ∈ inputBinding input) :
    0x20 ≤ c.toNat ∧ c.toNat ≤ 0x7e := by
  have hbefore : ∀ c ∈ "    let _i: &[u8] = b\"".toList, 0x20 ≤ c.toNat ∧ c.toNat ≤ 0x7e := by
    simp
  have hafter : ∀ c ∈ ['"', ';'], 0x20 ≤ c.toNat ∧ c.toNat ≤ 0x7e := by simp
  unfold inputBinding at h
  rcases List.mem_append.mp h with hc | hc
  · exact hbefore c hc
  · rcases List.mem_append.mp hc with hc | hc
    · exact printable_of_mem_literalBody hc
    · exact hafter c hc

theorem newline_notMem_inputBinding (input : List UInt8) : '\n' ∉ inputBinding input := by
  intro h
  exact absurd (printable_of_mem_inputBinding h).1 (by decide)

theorem inputBinding_injective : Function.Injective inputBinding := by
  intro input input' h
  exact literalBody_injective (List.append_cancel_right (List.append_cancel_left h))

theorem toList_inputLine (input : List UInt8) :
    (inputLine input).toList = inputBinding input ++ ['\n'] := by
  have hlast : "\";\n".toList = ['"', ';'] ++ ['\n'] := by decide
  have hbody : (String.ofList (literalBody input)).toList = literalBody input :=
    String.toList_ofList
  unfold inputLine inputBinding
  rw [String.toList_append, String.toList_append, hlast, hbody, List.append_assoc,
    List.append_assoc, List.append_assoc]

theorem toList_text (s : Source) :
    s.text.toList = opening.toList ++ (inputBinding s.input ++ '\n' :: bodyText 1 s.body) := by
  unfold text bodyText
  rw [String.toList_join, List.cons_append, List.cons_append, List.flatMap_cons, List.flatMap_cons,
    List.flatMap_append, List.flatMap_singleton, toList_inputLine, List.append_assoc,
    List.singleton_append]

/-- The text of a generated program determines its input and its statements. -/
theorem text_injective : Function.Injective text := by
  intro s s' h
  have hlist : s.text.toList = s'.text.toList := by rw [h]
  rw [toList_text, toList_text] at hlist
  obtain ⟨hbinding, hbody⟩ := append_cons_inj (newline_notMem_inputBinding s.input)
    (newline_notMem_inputBinding s'.input) (List.append_cancel_left hlist)
  cases s
  cases s'
  exact congr (congrArg Source.mk (inputBinding_injective hbinding)) (bodyText_injective 1 hbody)

theorem exists_opening_eq : ∃ l, opening.toList = l ++ ['\n'] := by
  have hlast : "    let mut _o: Vec<u8> = Vec::new();\n".toList =
      "    let mut _o: Vec<u8> = Vec::new();".toList ++ ['\n'] := by decide
  unfold opening
  rw [String.toList_append, hlast, ← List.append_assoc]
  exact ⟨_, rfl⟩

end Source

/-- A literal is read back as its bytes, and reading stops behind them whatever follows. It is made
of printable characters only, so in the text of a program it stays on the line that binds the input,
and the lines before and behind are the same for every input that can be encoded. -/
theorem literal_keeps_input :
    (∀ (data : List UInt8) (rest : List Char),
      readLiteral? (literalBody data ++ '"' :: rest) = some (data, rest)) ∧
    (∀ data : List UInt8, ∀ c ∈ literalBody data, 0x20 ≤ c.toNat ∧ c.toNat ≤ 0x7e) ∧
    (∀ data : List UInt8, ∀ c ∈ Source.inputBinding data, 0x20 ≤ c.toNat ∧ c.toNat ≤ 0x7e) ∧
    ∀ program : List Instruction, ∃ before after : List Char, ∀ input : Option Input,
      (translate program input).map String.toList = (inputBytes input).map fun data =>
        before ++ '\n' :: (Source.inputBinding data ++ '\n' :: after) := by
  refine ⟨readLiteral?_literalBody, ?_, ?_, ?_⟩
  · intro data c hc
    exact printable_of_mem_literalBody hc
  · intro data c hc
    exact Source.printable_of_mem_inputBinding hc
  · intro program
    obtain ⟨before, hbefore⟩ := Source.exists_opening_eq
    refine ⟨before, Source.bodyText 1 (program.map Statement.ofInstruction), ?_⟩
    intro input
    rw [translate]
    cases inputBytes input with
    | error failure => rfl
    | ok data =>
        simp only [Except.map]
        rw [code, Source.toList_text, hbefore, List.append_assoc, List.singleton_append]
        rfl

/-- The digit behind an escape is not taken for a part of it, and an escaped quote ends nothing. -/
example : readLiteral? "\\x01f\\x22\"; x\"".toList = some ([1, 102, 34], "; x\"".toList) := by decide

end Rust

end TapeMachine
