import TapeMachine.Proofs.Blocks
import TapeMachine.Structured

/-!
# Jump tables of blocks

The programs that have a jump table are the flat programs of blocks, each of one block only. The
table links the two brackets of every loop of that block and nothing else, so a loaded program is
laid out in the machine as its block prescribes.
-/

namespace TapeMachine

open Structured

namespace Structured

theorem Action.instruction_injective : Function.Injective Action.instruction := by
  intro a b h
  cases a <;> cases b <;> simp_all [Action.instruction]

theorem Action.instruction_ne_loopStart (a : Action) : a.instruction ≠ .loopStart := by
  cases a <;> simp [Action.instruction]

theorem Action.instruction_ne_loopEnd (a : Action) : a.instruction ≠ .loopEnd := by
  cases a <;> simp [Action.instruction]

/-- A program is the flat program of one block at most. -/
theorem program_injective : Function.Injective program := fun _ _ h =>
  Block.flatten_inj Action.instruction_injective Action.instruction_ne_loopStart
    Action.instruction_ne_loopEnd (by decide) h

theorem length_program (b : Block Action) : (program b).length = b.length :=
  Block.length_flatten _ _ _ b

@[simp] theorem program_done : program .done = [] := rfl

@[simp] theorem program_leaf (a : Action) (rest : Block Action) :
    program (.leaf a rest) = a.instruction :: program rest := rfl

@[simp] theorem program_loop (body rest : Block Action) :
    program (.loop body rest) = .loopStart :: program body ++ .loopEnd :: program rest := rfl

/-- Every instruction is a bracket or an action. -/
theorem eq_action_or_bracket (i : Instruction) :
    (∃ a : Action, i = a.instruction) ∨ i = .loopStart ∨ i = .loopEnd := by
  cases i with
  | moveBy d => exact .inl ⟨.move d, rfl⟩
  | addBy d => exact .inl ⟨.add d, rfl⟩
  | print => exact .inl ⟨.print, rfl⟩
  | read => exact .inl ⟨.read, rfl⟩
  | loopStart => exact .inr (.inl rfl)
  | loopEnd => exact .inr (.inr rfl)

end Structured

namespace JumpTable

/-! ## Linking the loops of a block -/

/-- The table after all loops of a block that stands at index `n` have been entered. -/
def linkBlock (table : JumpTable) : Nat → Block Action → JumpTable
  | _, .done => table
  | n, .leaf _ rest => linkBlock table (n + 1) rest
  | n, .loop body rest =>
    linkBlock ((linkBlock table (n + 1) body).link n (n + body.length + 1))
      (n + body.length + 2) rest

@[simp] theorem size_linkBlock (table : JumpTable) (n : Nat) (b : Block Action) :
    (table.linkBlock n b).size = table.size := by
  induction b generalizing table n with
  | done => rfl
  | leaf a rest ih => simp [linkBlock, ih]
  | loop body rest ihb ihr => simp [linkBlock, ihb, ihr]

theorem linkFrom_action (table : JumpTable) (opened : List Nat) (n : Nat) (a : Action)
    (rest : List Instruction) :
    linkFrom table opened n (a.instruction :: rest) = linkFrom table opened (n + 1) rest := by
  cases a <;> simp [linkFrom, Action.instruction]

theorem linkFrom_loopStart (table : JumpTable) (opened : List Nat) (n : Nat)
    (rest : List Instruction) :
    linkFrom table opened n (.loopStart :: rest) = linkFrom table (n :: opened) (n + 1) rest := by
  simp [linkFrom]

theorem linkFrom_loopEnd (table : JumpTable) (start : Nat) (opened : List Nat) (n : Nat)
    (rest : List Instruction) :
    linkFrom table (start :: opened) n (.loopEnd :: rest) =
      linkFrom (table.link start n) opened (n + 1) rest := by
  simp [linkFrom]

/-- Behind a block its loops are linked and the brackets open before it are still open. -/
theorem linkFrom_program (table : JumpTable) (opened : List Nat) (n : Nat) (b : Block Action)
    (tail : List Instruction) :
    linkFrom table opened n (program b ++ tail) =
      linkFrom (table.linkBlock n b) opened (n + b.length) tail := by
  induction b generalizing table opened n tail with
  | done => rfl
  | leaf a rest ih =>
      have hlength : n + (Block.leaf a rest).length = n + 1 + rest.length := by
        simp only [Block.length]
        omega
      rw [program_leaf, List.cons_append, linkFrom_action, ih, hlength, linkBlock]
  | loop body rest ihb ihr =>
      have hlength : n + (Block.loop body rest).length = n + 1 + body.length + 1 + rest.length := by
        simp only [Block.length]
        omega
      have hstop : n + 1 + body.length = n + body.length + 1 := by omega
      rw [program_loop, List.append_assoc, List.cons_append, linkFrom_loopStart, ihb,
        List.cons_append, linkFrom_loopEnd, ihr, hlength, linkBlock, hstop]

theorem build_program (b : Block Action) :
    build (program b) = .ok (linkBlock (Array.replicate b.length none) 0 b) := by
  have hlink := linkFrom_program (Array.replicate b.length none) [] 0 b []
  rw [List.append_nil] at hlink
  rw [build, length_program, hlink]
  rfl

/-! ## Programs that have a table -/

/-- If all brackets close, the program is a block followed by one closing bracket and one block
for every bracket that was open before it. -/
theorem exists_blocks_of_linkFrom {table result : JumpTable} {opened : List Nat} {n : Nat}
    {l : List Instruction} (h : linkFrom table opened n l = .ok result) :
    ∃ (b : Block Action) (bs : List (Block Action)), bs.length = opened.length ∧
      l = program b ++ bs.flatMap fun c => .loopEnd :: program c := by
  induction l generalizing table opened n with
  | nil =>
      cases opened with
      | nil => exact ⟨.done, [], rfl, rfl⟩
      | cons start opened => simp [linkFrom] at h
  | cons i l ih =>
      rcases eq_action_or_bracket i with ⟨a, rfl⟩ | rfl | rfl
      · rw [linkFrom_action] at h
        obtain ⟨b, bs, hlength, rfl⟩ := ih h
        exact ⟨.leaf a b, bs, hlength, rfl⟩
      · rw [linkFrom_loopStart] at h
        obtain ⟨b, bs, hlength, rfl⟩ := ih h
        cases bs with
        | nil => simp at hlength
        | cons c bs =>
            refine ⟨.loop b c, bs, by simpa using hlength, ?_⟩
            simp
      · cases opened with
        | nil => simp [linkFrom] at h
        | cons start opened =>
            rw [linkFrom_loopEnd] at h
            obtain ⟨b, bs, hlength, rfl⟩ := ih h
            exact ⟨.done, b :: bs, by simp [hlength], rfl⟩

theorem exists_block_of_build {program : List Instruction} {table : JumpTable}
    (h : build program = .ok table) : ∃ b, Structured.program b = program := by
  obtain ⟨b, bs, hlength, rfl⟩ := exists_blocks_of_linkFrom h
  cases bs with
  | nil => exact ⟨b, by simp⟩
  | cons c bs => simp at hlength

/-! ## Looking up targets -/

theorem target?_setIfInBounds {table : JumpTable} {j : Nat} (hj : j < table.size) (x i : Nat) :
    target? (table.setIfInBounds j (some x)) i = if i = j then some x else table.target? i := by
  by_cases hi : i = j
  · subst hi
    simp [target?, hj]
  · simp [target?, hi, Ne.symm hi]

theorem target?_link {table : JumpTable} {start stop : Nat} (hstart : start < table.size)
    (hstop : stop < table.size) (i : Nat) :
    (table.link start stop).target? i =
      if i = stop then some start else if i = start then some stop else table.target? i := by
  have hstop' : stop < Array.size (table.setIfInBounds start (some stop)) := by simpa using hstop
  rw [link, target?_setIfInBounds hstop', target?_setIfInBounds hstart]

/-- Entering the loops of a block changes nothing outside it. -/
theorem target?_linkBlock_of_outside {table : JumpTable} {n i : Nat} {b : Block Action}
    (hsize : n + b.length ≤ table.size) (hi : i < n ∨ n + b.length ≤ i) :
    (table.linkBlock n b).target? i = table.target? i := by
  induction b generalizing table n with
  | done => rfl
  | leaf a rest ih =>
      simp only [Block.length] at hsize hi
      rw [linkBlock, ih (by omega) (by omega)]
  | loop body rest ihb ihr =>
      simp only [Block.length] at hsize hi
      have hrest : n + body.length + 2 + rest.length ≤
          ((table.linkBlock (n + 1) body).link n (n + body.length + 1)).size := by
        rw [size_link, size_linkBlock]
        omega
      have hinner : (table.linkBlock (n + 1) body).size = table.size := size_linkBlock _ _ _
      rw [linkBlock, ihr hrest (by omega), target?_link (by omega) (by omega), if_neg (by omega),
        if_neg (by omega), ihb (by omega) (by omega)]

/-- Both brackets of a loop are linked, whatever its body. -/
theorem target?_linkBlock_loop {table : JumpTable} {n : Nat} {body rest : Block Action}
    (hsize : n + (Block.loop body rest).length ≤ table.size) :
    (table.linkBlock n (.loop body rest)).target? n = some (n + body.length + 1) ∧
      (table.linkBlock n (.loop body rest)).target? (n + body.length + 1) = some n := by
  simp only [Block.length] at hsize
  have hinner : (table.linkBlock (n + 1) body).size = table.size := size_linkBlock _ _ _
  have hrest : n + body.length + 2 + rest.length ≤
      ((table.linkBlock (n + 1) body).link n (n + body.length + 1)).size := by
    rw [size_link, hinner]
    omega
  rw [linkBlock, target?_linkBlock_of_outside hrest (by omega),
    target?_linkBlock_of_outside hrest (by omega), target?_link (by omega) (by omega),
    target?_link (by omega) (by omega)]
  refine ⟨?_, ?_⟩
  · rw [if_neg (by omega), if_pos rfl]
  · rw [if_pos rfl]

/-- Inside the body of a loop only the loops of the body count. -/
theorem target?_linkBlock_body {table : JumpTable} {n i : Nat} {body rest : Block Action}
    (hsize : n + (Block.loop body rest).length ≤ table.size) (hlow : n < i)
    (hhigh : i < n + body.length + 1) :
    (table.linkBlock n (.loop body rest)).target? i = (table.linkBlock (n + 1) body).target? i := by
  simp only [Block.length] at hsize
  have hinner : (table.linkBlock (n + 1) body).size = table.size := size_linkBlock _ _ _
  have hrest : n + body.length + 2 + rest.length ≤
      ((table.linkBlock (n + 1) body).link n (n + body.length + 1)).size := by
    rw [size_link, hinner]
    omega
  rw [linkBlock, target?_linkBlock_of_outside hrest (by omega), target?_link (by omega) (by omega),
    if_neg (by omega), if_neg (by omega)]

end JumpTable

namespace Machine

/-! ## Blocks in a machine -/

/-- The block stands at index `n` of the program, and the brackets of its loops are linked. -/
def IsPlaced (m : Machine) : Nat → Block Action → Prop
  | _, .done => True
  | n, .leaf a rest => m.code[n]? = some a.instruction ∧ IsPlaced m (n + 1) rest
  | n, .loop body rest =>
    (m.code[n]? = some .loopStart ∧ m.code[n + body.length + 1]? = some .loopEnd) ∧
    (m.jumps.target? n = some (n + body.length + 1) ∧
      m.jumps.target? (n + body.length + 1) = some n) ∧
    IsPlaced m (n + 1) body ∧ IsPlaced m (n + body.length + 2) rest

theorem code_of_drop {m : Machine} {n : Nat} {i : Instruction} {l : List Instruction}
    (h : m.code.toList.drop n = i :: l) :
    m.code[n]? = some i ∧ m.code.toList.drop (n + 1) = l := by
  refine ⟨?_, ?_⟩
  · rw [← Array.getElem?_toList, ← Nat.add_zero n, ← List.getElem?_drop, h]
    rfl
  · rw [← List.drop_drop, h]
    rfl

theorem isPlaced_of_linked {m : Machine} (table : JumpTable) {n : Nat} {b : Block Action}
    (tail : List Instruction) (hcode : m.code.toList.drop n = program b ++ tail)
    (hsize : n + b.length ≤ table.size)
    (hjumps : ∀ i, n ≤ i → i < n + b.length →
      m.jumps.target? i = (table.linkBlock n b).target? i) : m.IsPlaced n b := by
  induction b generalizing table n tail with
  | done => trivial
  | leaf a rest ih =>
      obtain ⟨hfirst, hrest⟩ := code_of_drop hcode
      refine ⟨hfirst, ih table tail hrest ?_ fun i hlow hhigh => hjumps i ?_ ?_⟩
      · simp only [Block.length] at hsize
        omega
      · omega
      · simp only [Block.length]
        omega
  | loop body rest ihb ihr =>
      have hlength : (Block.loop body rest).length = body.length + rest.length + 2 := rfl
      rw [program_loop, List.append_assoc, List.cons_append] at hcode
      obtain ⟨hstart, hbody⟩ := code_of_drop hcode
      have hdrop : m.code.toList.drop (n + body.length + 1) =
          .loopEnd :: program rest ++ tail := by
        rw [show n + body.length + 1 = n + 1 + body.length by omega, ← List.drop_drop, hbody,
          ← length_program body, List.drop_left]
      obtain ⟨hstop, hrest⟩ := code_of_drop hdrop
      obtain ⟨hforth, hback⟩ := JumpTable.target?_linkBlock_loop hsize
      have hinner : (table.linkBlock (n + 1) body).size = table.size := by simp
      have hlinked : n + body.length + 2 + rest.length ≤
          ((table.linkBlock (n + 1) body).link n (n + body.length + 1)).size := by
        rw [JumpTable.size_link]
        omega
      refine ⟨⟨hstart, hstop⟩, ⟨?_, ?_⟩, ihb table _ hbody (by omega) ?_,
        ihr _ tail hrest hlinked ?_⟩
      · rw [hjumps n (by omega) (by omega), hforth]
      · rw [hjumps _ (by omega) (by omega), hback]
      · intro i hlow hhigh
        rw [hjumps i (by omega) (by omega),
          JumpTable.target?_linkBlock_body hsize (by omega) (by omega)]
      · intro i hlow hhigh
        exact hjumps i (by omega) (by omega)

theorem load_eq_ok_iff {program : List Instruction} {input : List UInt8} {m : Machine} :
    load program input = .ok m ↔ ∃ table, JumpTable.build program = .ok table ∧
      m = ⟨program.toArray, table, input.toArray⟩ := by
  rw [load]
  cases JumpTable.build program with
  | error index => simp [Except.map]
  | ok table => simp [Except.map, eq_comm]

theorem load_of_build {program : List Instruction} {table : JumpTable}
    (h : JumpTable.build program = .ok table) (input : List UInt8) :
    load program input = .ok ⟨program.toArray, table, input.toArray⟩ :=
  load_eq_ok_iff.mpr ⟨table, h, rfl⟩

theorem load_program (b : Block Action) (input : List UInt8) :
    load (program b) input = .ok ⟨(program b).toArray,
      JumpTable.linkBlock (Array.replicate b.length none) 0 b, input.toArray⟩ :=
  load_of_build (JumpTable.build_program b) input

theorem exists_block_of_load {program : List Instruction} {input : List UInt8} {m : Machine}
    (h : load program input = .ok m) : ∃ b, Structured.program b = program := by
  obtain ⟨table, hbuild, -⟩ := load_eq_ok_iff.mp h
  exact JumpTable.exists_block_of_build hbuild

/-- A machine that holds a block holds nothing else. -/
theorem isPlaced_of_load {b : Block Action} {input : List UInt8} {m : Machine}
    (h : load (program b) input = .ok m) :
    m.IsPlaced 0 b ∧ m.code.size = b.length ∧ m.input = input.toArray := by
  rw [load_program] at h
  cases h
  have hsize : 0 + b.length ≤ Array.size (Array.replicate b.length (none : Option Nat)) := by simp
  refine ⟨?_, by simp [length_program], rfl⟩
  exact isPlaced_of_linked (Array.replicate b.length none) [] (by simp) hsize fun _ _ _ => rfl

end Machine

end TapeMachine
