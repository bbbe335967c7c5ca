import Mathlib.Data.List.Forall2
import TapeMachine.Proofs.OpenPairs
import TapeMachine.Proofs.RustText

/-!
# Nesting of generated blocks

The generator of texts keeps a depth only, and the machine a table of pairs. The depth is one more
than the number of pairs that are open, so a line is indented by the pairs around its statement.
Braces that a statement has of its own are balanced within its line. So the braces of a text are
matched as the brackets of the program are.
-/

namespace TapeMachine

namespace Balance

variable {α β : Type} [DecidableEq α] [DecidableEq β] {start stop : α} {start' stop' : β}
  {l : List α} {i j k : Nat}

/-! ## Stretches that stand for brackets -/

theorem isBalanced_of_notMem (hstart : start ∉ l) (hstop : stop ∉ l) : IsBalanced start stop l := by
  have hzero : ∀ m : List α, m ⊆ l → excess start stop m = 0 := by
    intro m hm
    rw [excess, List.count_eq_zero_of_not_mem fun h => hstart (hm h),
      List.count_eq_zero_of_not_mem fun h => hstop (hm h)]
    rfl
  exact ⟨fun n => Int.le_of_eq (hzero _ (List.take_subset n l)).symm,
    hzero l (List.Subset.refl l)⟩

/-- A stretch changes the height by `d`, and between its ends it goes no lower than at both. -/
structure Shifts (start stop : α) (d : Int) (l : List α) : Prop where
  excess_eq : excess start stop l = d
  low : ∀ n, min 0 d ≤ excess start stop (l.take n)

theorem shifts_zero_iff : Shifts start stop 0 l ↔ IsBalanced start stop l := by
  constructor
  · rintro ⟨hzero, hlow⟩
    exact ⟨fun n => by simpa using hlow n, hzero⟩
  · rintro ⟨hnever, hzero⟩
    exact ⟨hzero, fun n => by simpa using hnever n⟩

theorem shifts_singleton (a : α) : Shifts start stop (excess start stop [a]) [a] := by
  refine ⟨rfl, ?_⟩
  rintro (_ | n)
  · simp
  · simp

namespace Shifts

variable {d : Int} {m : List α}

theorem append_balanced (h : Shifts start stop d l) (hm : IsBalanced start stop m) :
    Shifts start stop d (l ++ m) where
  excess_eq := by rw [excess_append, h.excess_eq, hm.2, Int.add_zero]
  low := by
    apply le_excess_take_append h.low
    intro n
    have hbehind := hm.1 n
    rw [h.excess_eq]
    omega

theorem balanced_append (h : Shifts start stop d l) (hm : IsBalanced start stop m) :
    Shifts start stop d (m ++ l) where
  excess_eq := by rw [excess_append, h.excess_eq, hm.2, Int.zero_add]
  low := by
    apply le_excess_take_append
    · intro n
      have hfront := hm.1 n
      omega
    · intro n
      rw [hm.2, Int.zero_add]
      exact h.low n

end Shifts

omit [DecidableEq α] in
theorem take_eq_append_between {a : α} (hi : l[i]? = some a) (hij : i < j) :
    l.take j = l.take i ++ a :: between l i j := by
  have hj : j = i + 1 + (j - (i + 1)) := by omega
  rw [hj, List.take_add, List.take_add_one, hi, ← hj, between]
  simp

/-- Every entry of a list is spelled by a stretch that opens and closes as much as it does. -/
def Spells (start stop : α) (start' stop' : β) (l : List α) (blocks : List (List β)) : Prop :=
  List.Forall₂ (fun a block => Shifts start' stop' (excess start stop [a]) block) l blocks

namespace Spells

variable {blocks : List (List β)}

theorem between (h : Spells start stop start' stop' l blocks) (i j : Nat) :
    Spells start stop start' stop' (between l i j) (between blocks i j) :=
  List.forall₂_take _ (List.forall₂_drop _ h)

theorem excess_flatten (h : Spells start stop start' stop' l blocks) :
    excess start' stop' blocks.flatten = excess start stop l := by
  induction h with
  | nil => rfl
  | @cons a block l blocks hblock _ ih =>
      rw [List.flatten_cons, excess_append, hblock.excess_eq, ih, ← excess_cons]

/-- What bounds the counts of a list from below bounds those of its spelling. -/
theorem le_excess_take_flatten (h : Spells start stop start' stop' l blocks) {c : Int}
    (hc : ∀ n, c ≤ excess start stop (l.take n)) (n : Nat) :
    c ≤ excess start' stop' (blocks.flatten.take n) := by
  induction h generalizing c n with
  | nil => simpa using hc 0
  | @cons a block l blocks hblock _ ih =>
      -- The bound for the rest is the one that is left when the first entry has been read.
      have hrest : ∀ n, c - excess start stop [a] ≤ excess start stop (l.take n) := by
        intro n
        have hn := hc (n + 1)
        rw [List.take_succ_cons, excess_cons] at hn
        omega
      rw [List.flatten_cons]
      apply le_excess_take_append
      · intro n
        have hnow : c ≤ 0 := by simpa using hc 0
        have hnext : c ≤ excess start stop [a] := by simpa using hc 1
        have hlow := hblock.low n
        omega
      · intro n
        have hbehind := ih hrest n
        rw [hblock.excess_eq]
        omega

theorem isBalanced (h : Spells start stop start' stop' l blocks) (hl : IsBalanced start stop l) :
    IsBalanced start' stop' blocks.flatten :=
  ⟨h.le_excess_take_flatten hl.1, h.excess_flatten.trans hl.2⟩

/-- Brackets that are spelled make a pair where the brackets do that spell them. -/
theorem isPair (h : Spells start stop start' stop' l blocks) (hpair : IsPair start stop l i j)
    {u v x y : List β} (hi : blocks[i]? = some (u ++ start' :: x))
    (hj : blocks[j]? = some (v ++ stop' :: y)) (hx : IsBalanced start' stop' x)
    (hv : IsBalanced start' stop' v) (front back : List β) :
    IsPair start' stop' (front ++ (blocks.flatten ++ back))
      (front.length + (blocks.take i).flatten.length + u.length)
      (front.length + (blocks.take j).flatten.length + v.length) := by
  have hinner : IsBalanced start' stop' (x ++ (Balance.between blocks i j).flatten ++ v) :=
    (hx.append ((h.between i j).isBalanced hpair.inner)).append hv
  have htake : (blocks.take j).flatten =
      (blocks.take i).flatten ++ (u ++ start' :: (x ++ (Balance.between blocks i j).flatten)) := by
    rw [take_eq_append_between hi hpair.lt]
    simp
  have hall : blocks.flatten =
      (blocks.take j).flatten ++ (v ++ stop' :: (y ++ (blocks.drop (j + 1)).flatten)) := by
    conv_lhs => rw [← List.take_append_drop j blocks, List.drop_eq_getElem?_toList_append, hj]
    simp
  have hbraces := isPair_append hinner (front ++ (blocks.take i).flatten ++ u)
    (y ++ (blocks.drop (j + 1)).flatten ++ back)
  have htext : front ++ (blocks.flatten ++ back) =
      front ++ (blocks.take i).flatten ++ u ++
        start' :: (x ++ (Balance.between blocks i j).flatten ++ v ++
          stop' :: (y ++ (blocks.drop (j + 1)).flatten ++ back)) := by
    rw [hall, htake]
    simp
  have hend : front.length + (blocks.take j).flatten.length + v.length =
      (front ++ (blocks.take i).flatten ++ u).length + 1 +
        (x ++ (Balance.between blocks i j).flatten ++ v).length := by
    rw [htake]
    simp only [List.length_append, List.length_cons]
    omega
  rw [htext, hend, ← List.length_append, ← List.length_append]
  exact hbraces

end Spells

end Balance

open Balance

namespace Rust

/-! ## Braces of statements -/

theorem isBalanced_braceless (s : String) (hopen : '\x7b' ∉ s.toList) (hclose : '\x7d' ∉ s.toList) :
    IsBalanced '\x7b' '\x7d' s.toList :=
  isBalanced_of_notMem hopen hclose

theorem Effect.isBalanced_text (e : Effect) : IsBalanced '\x7b' '\x7d' e.text.toList := by
  have hnumber : ∀ {before after : String} (n : Nat),
      '\x7b' ∉ before.toList ∧ '\x7d' ∉ before.toList →
      '\x7b' ∉ after.toList ∧ '\x7d' ∉ after.toList →
      IsBalanced '\x7b' '\x7d' (before ++ n.repr ++ after).toList := by
    intro before after n hbefore hafter
    exact isBalanced_braceless _ (notMem_append_repr_append (by decide) hbefore.1 n hafter.1)
      (notMem_append_repr_append (by decide) hbefore.2 n hafter.2)
  cases e with
  | forward n =>
      rw [text_forward]
      exact hnumber n (by simp) (by simp)
  | backward n =>
      rw [text_backward]
      exact hnumber n (by simp) (by simp)
  | increase b =>
      rw [text_increase]
      exact hnumber b.toNat (by simp) (by simp)
  | emit => exact isBalanced_braceless _ (by simp [text_emit]) (by simp [text_emit])
  | take =>
      -- Two pairs of braces, one in the other, with no brace around them.
      have htext : take.text.toList = "_m[_p] = Wrapping(match _i.get(_b) ".toList ++
          ('\x7b' :: (" Some(c) => ".toList ++ ('\x7b' :: (" _b += 1; *c ".toList ++ ['\x7d']) ++
            " None => std::process::exit(10) ".toList) ++ ['\x7d']) ++ ");".toList) := by decide
      have hsome := (isBalanced_braceless " _b += 1; *c " (by simp) (by simp)).enclose (by decide)
      have hmatch := (((isBalanced_braceless " Some(c) => " (by simp) (by simp)).append hsome).append
        (isBalanced_braceless " None => std::process::exit(10) " (by simp) (by simp))).enclose
          (by decide)
      rw [htext]
      exact (isBalanced_braceless _ (by simp) (by simp)).append
        (hmatch.append (isBalanced_braceless _ (by simp) (by simp)))

namespace Statement

variable {i : Instruction}

theorem ofInstruction_eq_closeLoop_iff : ofInstruction i = .closeLoop ↔ i = .loopEnd := by
  cases i <;> simp [ofInstruction]

theorem text_openLoop : openLoop.text.toList = "while _m[_p].0 != 0 ".toList ++ ['\x7b'] := by decide

theorem text_closeLoop : closeLoop.text.toList = ['\x7d'] := by decide

/-- A statement opens and closes as many braces as its instruction does brackets. -/
theorem shifts_text (i : Instruction) : Shifts '\x7b' '\x7d'
    (excess .loopStart .loopEnd [i]) (ofInstruction i).text.toList := by
  have heffect : ∀ e : Effect, excess .loopStart .loopEnd [i] = 0 →
      Shifts '\x7b' '\x7d' (excess .loopStart .loopEnd [i]) (effect e).text.toList := by
    intro e hzero
    rw [hzero, shifts_zero_iff]
    exact e.isBalanced_text
  cases i with
  | moveBy d => exact heffect _ rfl
  | addBy d => exact heffect _ rfl
  | print => exact heffect _ rfl
  | read => exact heffect _ rfl
  | loopStart =>
      rw [ofInstruction, text_openLoop]
      exact (shifts_singleton '\x7b').balanced_append (isBalanced_of_notMem (by simp) (by simp))
  | loopEnd =>
      rw [ofInstruction, text_closeLoop]
      exact shifts_singleton '\x7d'

end Statement

namespace Source

/-! ## Lines of programs -/

def lines (program : List Instruction) : List String :=
  bodyLines 1 (program.map Statement.ofInstruction)

def beforeLiteral : List Char := opening.toList ++ "    let _i: &[u8] = b\"".toList

def behindLiteral (program : List Instruction) : List Char :=
  "\";\n".toList ++ ((lines program).flatMap String.toList ++ closing.toList)

/-- The text of a program without the characters that stand for its input. -/
def outside (program : List Instruction) : List Char := beforeLiteral ++ behindLiteral program

/-- Where the last character of a statement's line, in front of the line break, stands outside the
literal. -/
def lastPosition (program : List Instruction) (k : Nat) : Nat :=
  (beforeLiteral ++ "\";\n".toList ++
    ((lines program).take (k + 1)).flatMap String.toList).length - 2

theorem toList_code (program : List Instruction) (input : List UInt8) :
    (code program input).toList = beforeLiteral ++ (literalBody input ++ behindLiteral program) := by
  have hquote : "\";\n".toList = ['"', ';'] ++ ['\n'] := by decide
  have hbody : bodyText 1 (ofProgram program input).body =
      (lines program).flatMap String.toList ++ closing.toList := rfl
  have hinput : (ofProgram program input).input = input := rfl
  rw [code, toList_text, hbody, hinput]
  unfold beforeLiteral behindLiteral inputBinding
  rw [hquote, List.append_assoc, List.append_assoc, List.append_assoc, List.append_assoc,
    List.singleton_append]

theorem depthAfter_ofInstruction (depth : Int) (i : Instruction) :
    depthAfter depth (.ofInstruction i) = depth + excess .loopStart .loopEnd [i] := by
  cases i with
  | loopStart => rfl
  | loopEnd => rfl
  | _ => exact (Int.add_zero depth).symm

/-- Behind a program the depth has changed by the number of loops left open. -/
theorem foldl_depthAfter (depth : Int) (program : List Instruction) :
    (program.map Statement.ofInstruction).foldl depthAfter depth =
      depth + excess .loopStart .loopEnd program := by
  induction program generalizing depth with
  | nil => simp
  | cons i program ih =>
      rw [List.map_cons, List.foldl_cons, ih, depthAfter_ofInstruction, excess_cons i program,
        Int.add_assoc]

def line (depth : Int) (s : Statement) : String := indentation (depthAt depth s) ++ s.text ++ "\n"

theorem bodyLines_cons (depth : Int) (s : Statement) (body : List Statement) :
    bodyLines depth (s :: body) = line depth s :: bodyLines (depthAfter depth s) body := rfl

/-- The line of a statement has the depth at which the loops in front of it leave the program. -/
theorem getElem?_bodyLines (depth : Int) (program : List Instruction) (k : Nat) :
    (bodyLines depth (program.map Statement.ofInstruction))[k]? =
      program[k]?.map fun i =>
        line (depth + height .loopStart .loopEnd program k) (.ofInstruction i) := by
  induction program generalizing depth k with
  | nil => rfl
  | cons i program ih =>
      rw [List.map_cons, bodyLines_cons]
      cases k with
      | zero => simp [height_zero]
      | succ k =>
          have hheight : height .loopStart .loopEnd (i :: program) (k + 1) =
              excess .loopStart .loopEnd [i] + height .loopStart .loopEnd program k := by
            rw [height, List.take_succ_cons, excess_cons, height]
          rw [List.getElem?_cons_succ, List.getElem?_cons_succ, ih, depthAfter_ofInstruction,
            hheight, Int.add_assoc]

theorem toList_line (depth : Int) (s : Statement) :
    (line depth s).toList =
      List.replicate (4 * (depthAt depth s).toNat) ' ' ++ (s.text.toList ++ ['\n']) := by
  simp [line, indentation]

theorem isBalanced_blanks (n : Nat) : IsBalanced '\x7b' '\x7d' (List.replicate n ' ') :=
  isBalanced_of_notMem (by simp) (by simp)

theorem isBalanced_newline : IsBalanced '\x7b' '\x7d' ['\n'] :=
  isBalanced_other (by decide) (by decide)

/-- The lines of a program spell its brackets with braces. -/
theorem spells_bodyLines (depth : Int) (program : List Instruction) :
    Spells .loopStart .loopEnd '\x7b' '\x7d' program
      ((bodyLines depth (program.map Statement.ofInstruction)).map String.toList) := by
  induction program generalizing depth with
  | nil => exact .nil
  | cons i program ih =>
      rw [List.map_cons, bodyLines_cons, List.map_cons, toList_line]
      exact .cons (((Statement.shifts_text i).append_balanced isBalanced_newline).balanced_append
        (isBalanced_blanks _)) (ih _)

/-! ## The braces of a text -/

theorem shifts_opening : Shifts '\x7b' '\x7d' 1 opening.toList := by
  have hmain : Shifts '\x7b' '\x7d' 1 "fn main() \x7b\n".toList := by
    have hline : "fn main() \x7b\n".toList = "fn main() ".toList ++ (['\x7b'] ++ ['\n']) := by decide
    rw [hline]
    exact ((shifts_singleton '\x7b').append_balanced isBalanced_newline).balanced_append
      (isBalanced_braceless _ (by simp) (by simp))
  have hlength : IsBalanced '\x7b' '\x7d' (toString tapeLength).toList :=
    isBalanced_braceless _ (notMem_repr (by decide) _) (notMem_repr (by decide) _)
  unfold opening
  simp only [String.toList_append]
  -- No line but that of the main function holds a brace.
  refine ((((hmain.balanced_append ?_).append_balanced ?_).append_balanced hlength).append_balanced
    ?_).append_balanced ?_ |>.append_balanced ?_
  · exact (((isBalanced_braceless _ (by simp) (by simp)).append
      (isBalanced_braceless _ (by simp) (by simp))).append
        (isBalanced_braceless _ (by simp) (by simp))).append
          (isBalanced_braceless _ (by simp) (by simp))
  all_goals exact isBalanced_braceless _ (by simp) (by simp)

theorem shifts_closing : Shifts '\x7b' '\x7d' (-1) closing.toList := by
  have hlast : "\x7d\n".toList = ['\x7d'] ++ ['\n'] := by decide
  unfold closing
  simp only [String.toList_append, hlast]
  refine ((shifts_singleton '\x7d').append_balanced isBalanced_newline).balanced_append ?_
  exact ((isBalanced_braceless _ (by simp) (by simp)).append
    (isBalanced_braceless _ (by simp) (by simp))).append (isBalanced_braceless _ (by simp) (by simp))

/-- The main function is one more pair, with the lines of the program between its braces. -/
theorem isBalanced_outside {program : List Instruction}
    (h : IsBalanced .loopStart .loopEnd program) : IsBalanced '\x7b' '\x7d' (outside program) := by
  have hfront : Shifts '\x7b' '\x7d' 1 (beforeLiteral ++ "\";\n".toList) :=
    (shifts_opening.append_balanced (isBalanced_braceless _ (by simp) (by simp))).append_balanced
      (isBalanced_braceless _ (by simp) (by simp))
  have hspells : Spells .loopStart .loopEnd '\x7b' '\x7d' (.loopStart :: (program ++ [.loopEnd]))
      ((beforeLiteral ++ "\";\n".toList) ::
        ((lines program).map String.toList ++ [closing.toList])) :=
    .cons hfront (List.rel_append (spells_bodyLines 1 program) (.cons shifts_closing .nil))
  have hbalanced := hspells.isBalanced (h.enclose (by decide))
  rw [List.flatten_cons, List.flatten_append, ← List.flatMap_def, List.flatten_singleton,
    List.append_assoc] at hbalanced
  exact hbalanced

/-- Where the lines of a pair of brackets end, a pair of braces stands. -/
theorem isPair_outside {program : List Instruction} {s e : Nat}
    (hpair : IsPair .loopStart .loopEnd program s e) :
    IsPair '\x7b' '\x7d' (outside program) (lastPosition program s) (lastPosition program e) := by
  have hline : ∀ k i, program[k]? = some i → ((lines program).map String.toList)[k]? =
      some (line (1 + height .loopStart .loopEnd program k) (.ofInstruction i)).toList := by
    intro k i hk
    rw [List.getElem?_map, lines, getElem?_bodyLines, hk]
    rfl
  have hposition : ∀ k (u : List Char) c, ((lines program).map String.toList)[k]? =
      some (u ++ [c, '\n']) → lastPosition program k = (beforeLiteral ++ "\";\n".toList).length +
        (((lines program).map String.toList).take k).flatten.length + u.length := by
    intro k u c hk
    rw [lastPosition, List.flatMap_def, List.map_take, List.take_add_one, hk, Option.toList_some,
      List.flatten_append, List.flatten_singleton]
    simp only [List.length_append, List.length_cons, List.length_nil]
    omega
  -- Behind both braces there is nothing but the line break, in front of the second only blanks.
  have hs := hline s _ hpair.opening
  have he := hline e _ hpair.closing
  rw [toList_line, Statement.ofInstruction, Statement.text_openLoop, List.append_assoc,
    ← List.append_assoc, List.cons_append, List.nil_append] at hs
  rw [toList_line, Statement.ofInstruction, Statement.text_closeLoop, List.cons_append,
    List.nil_append] at he
  have hbraces := (spells_bodyLines 1 program).isPair hpair hs he isBalanced_newline
    (isBalanced_blanks _) (beforeLiteral ++ "\";\n".toList) closing.toList
  rw [hposition s _ _ hs, hposition e _ _ he, outside, behindLiteral, ← List.append_assoc,
    List.flatMap_def]
  exact hbraces

theorem length_bodyLines (depth : Int) (body : List Statement) :
    (bodyLines depth body).length = body.length := by
  induction body generalizing depth with
  | nil => rfl
  | cons s body ih => rw [bodyLines_cons, List.length_cons, ih, List.length_cons]

/-- A line is indented by one level for the main function and one for each pair around it. -/
theorem getElem?_lines {program : List Instruction} {table : JumpTable}
    (h : JumpTable.build program = .ok table) {k : Nat} {i : Instruction}
    (hk : program[k]? = some i) :
    (lines program)[k]? = some (indentation (1 + table.enclosing k) ++
      (Statement.ofInstruction i).text ++ "\n") := by
  have hdepth : depthAt (1 + height .loopStart .loopEnd program k) (.ofInstruction i) =
      1 + table.enclosing k := by
    unfold depthAt
    by_cases hi : i = .loopEnd
    · subst hi
      have hdown : height .loopStart .loopEnd program (k + 1) =
          height .loopStart .loopEnd program k - 1 := height_succ_stop (by decide) hk
      rw [if_pos (Statement.ofInstruction_eq_closeLoop_iff.mpr rfl),
        JumpTable.enclosing_of_loopEnd h hk]
      omega
    · rw [if_neg (Statement.ofInstruction_eq_closeLoop_iff.not.mpr hi),
        JumpTable.enclosing_of_ne_loopEnd h (by rwa [hk, Ne, Option.some.injEq])]
  rw [lines, getElem?_bodyLines, hk, Option.map_some, line, hdepth]

def closingStatements : List String :=
  ["let mut _out = std::io::stdout();", "_out.write_all(&_o).unwrap();",
    "_out.write_all(b\"\\n\").unwrap();"]

/-- A text shows the pairs of a table as blocks, by its indentation and by its braces. -/
structure NestsAs (program : List Instruction) (input : List UInt8) (table : JumpTable) :
    Prop where
  text : (code program input).toList = beforeLiteral ++ (literalBody input ++ behindLiteral program)
  literal : readLiteral? (literalBody input ++ behindLiteral program) =
    some (input, (behindLiteral program).tail)
  length_lines : (lines program).length = program.length
  line : ∀ k i, program[k]? = some i →
    (lines program)[k]? = some (String.ofList (List.replicate (4 * (1 + table.enclosing k)) ' ') ++
      (Statement.ofInstruction i).text ++ "\n") ∧
    (Statement.ofInstruction i).text.toList.head? ≠ some ' ' ∧
    '\n' ∉ (Statement.ofInstruction i).text.toList
  block : ∀ s e, table.target? s = some e → s < e →
    program[s]? = some .loopStart ∧ program[e]? = some .loopEnd ∧
    table.enclosing s = table.enclosing e ∧
    ∀ k, s < k → k < e → table.enclosing s < table.enclosing k
  closed : (program.map Statement.ofInstruction).foldl depthAfter 1 = 1
  closing_eq : closing =
    String.join (closingStatements.map fun s => indentation 1 ++ s ++ "\n") ++ "\x7d\n"
  balanced : IsBalanced '\x7b' '\x7d' (outside program)
  braces : ∀ s e, table.target? s = some e → s < e →
    IsPair '\x7b' '\x7d' (outside program) (lastPosition program s) (lastPosition program e)

/-- The text of a program that has a jump table nests its lines as the table pairs its brackets,
whatever the input is. -/
theorem code_nests_as_pairs {program : List Instruction} {table : JumpTable}
    (h : JumpTable.build program = .ok table) (input : List UInt8) :
    NestsAs program input table where
  text := toList_code program input
  literal := by
    have hquote : "\";\n".toList = '"' :: [';', '\n'] := by decide
    rw [behindLiteral, hquote, List.cons_append, readLiteral?_literalBody, List.tail_cons]
  length_lines := by rw [lines, length_bodyLines, List.length_map]
  line := by
    intro k i hk
    obtain ⟨c, l, htext, hblank, -⟩ := (Statement.ofInstruction i).exists_text_eq_cons
    refine ⟨getElem?_lines h hk, ?_, Statement.newline_notMem_text _⟩
    rw [htext, List.head?_cons, Ne, Option.some.injEq]
    exact hblank
  block := by
    intro s e htarget hlt
    have hpair := JumpTable.isPair_of_target? h htarget hlt
    exact ⟨hpair.opening, hpair.closing, JumpTable.enclosing_of_target? h htarget hlt⟩
  closed := by rw [foldl_depthAfter, (isBalanced_of_build h).2, Int.add_zero]
  closing_eq := by decide
  balanced := isBalanced_outside (isBalanced_of_build h)
  braces := fun _ _ htarget hlt => isPair_outside (JumpTable.isPair_of_target? h htarget hlt)

/-- The input and the statement that reads it hold braces of their own. -/
theorem code_nests_as_pairs_of_read_in_loop :
    ∃ table : JumpTable, table = #[some 5, none, some 4, none, some 2, some 0] ∧
      JumpTable.build [.loopStart, .read, .loopStart, .print, .loopEnd, .loopEnd] = .ok table ∧
      table.enclosing 3 = 2 ∧
      NestsAs [.loopStart, .read, .loopStart, .print, .loopEnd, .loopEnd] [0x7d, 0x22] table := by
  have h : JumpTable.build [.loopStart, .read, .loopStart, .print, .loopEnd, .loopEnd] =
      .ok #[some 5, none, some 4, none, some 2, some 0] := by decide
  exact ⟨_, rfl, h, by decide, code_nests_as_pairs h _⟩

end Source

end Rust

end TapeMachine
