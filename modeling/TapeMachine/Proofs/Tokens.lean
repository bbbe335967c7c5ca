import TapeMachine.Canonical

/-!
# What tokens are made of

A token consists of characters of its kind, and only runs have more than one. Together the tokens
hold all instruction characters of the text, in order.
-/

namespace TapeMachine

namespace Token

/-- The characters of the token are of its kind, and there is one unless it is a run. -/
structure IsUniform (t : Token) : Prop where
  kind_eq : ∀ c ∈ t.text, TokenKind.ofChar? c = some t.kind
  single : t.kind.isRun = false → ∃ c, t.text = [c]

theorem scanFrom_cons_some {c : Char} {kind : TokenKind} (hc : TokenKind.ofChar? c = some kind)
    (n : Nat) (cs : List Char) : scanFrom n (c :: cs) = attach kind n c (scanFrom (n + 1) cs) := by
  rw [scanFrom]
  simp only [hc]

theorem scanFrom_cons_none {c : Char} (hc : TokenKind.ofChar? c = none) (n : Nat)
    (cs : List Char) : scanFrom n (c :: cs) = scanFrom (n + 1) cs := by
  rw [scanFrom]
  simp only [hc]

/-- A character that does not extend the first token is a token of its own. -/
theorem attach_apart {kind : TokenKind} {n : Nat} {c : Char} {ts : List Token}
    (h : ∀ t ∈ ts.head?, t.offset = n + 1 → kind.isRun = true → t.kind ≠ kind) :
    attach kind n c ts = ⟨kind, n, [c]⟩ :: ts := by
  cases ts with
  | nil => rfl
  | cons t ts =>
      rw [attach, if_neg]
      rintro ⟨hrun, hkind, hoffset⟩
      exact h t rfl hoffset hrun hkind

theorem uniform_attach {kind : TokenKind} {n : Nat} {c : Char} {ts : List Token}
    (hc : TokenKind.ofChar? c = some kind) (h : ∀ t ∈ ts, t.IsUniform) :
    ∀ t ∈ attach kind n c ts, t.IsUniform := by
  have hone : IsUniform ⟨kind, n, [c]⟩ := ⟨by simpa using hc, fun _ => ⟨c, rfl⟩⟩
  cases ts with
  | nil =>
      simpa [attach] using hone
  | cons u us =>
      have hu := h u (by simp)
      by_cases hrun : kind.isRun ∧ u.kind = kind ∧ u.offset = n + 1
      · have hlong : IsUniform ⟨kind, n, c :: u.text⟩ := by
          refine ⟨?_, fun hf => ?_⟩
          · intro d hd
            rcases List.mem_cons.mp hd with rfl | hd
            · exact hc
            · exact hrun.2.1 ▸ hu.kind_eq d hd
          · rw [hrun.1] at hf
            cases hf
        intro t ht
        rw [attach, if_pos hrun] at ht
        rcases List.mem_cons.mp ht with rfl | ht
        · exact hlong
        · exact h t (List.mem_cons_of_mem u ht)
      · intro t ht
        rw [attach, if_neg hrun] at ht
        rcases List.mem_cons.mp ht with rfl | ht
        · exact hone
        · exact h t ht

theorem uniform_scanFrom (n : Nat) (text : List Char) : ∀ t ∈ scanFrom n text, t.IsUniform := by
  induction text generalizing n with
  | nil => simp [scanFrom]
  | cons c cs ih =>
      cases hc : TokenKind.ofChar? c with
      | none =>
          rw [scanFrom_cons_none hc]
          exact ih (n + 1)
      | some kind =>
          rw [scanFrom_cons_some hc]
          exact uniform_attach hc (ih (n + 1))

theorem flatMap_text_attach (kind : TokenKind) (n : Nat) (c : Char) (ts : List Token) :
    (attach kind n c ts).flatMap Token.text = c :: ts.flatMap Token.text := by
  cases ts with
  | nil => rfl
  | cons u us =>
      rw [attach]
      split <;> simp

/-- A character is in a token exactly if it stands for an instruction. -/
theorem isSome_ofChar? (c : Char) :
    (TokenKind.ofChar? c).isSome = (Instruction.ofChar? c).isSome := by
  unfold TokenKind.ofChar?
  split <;> simp_all [Instruction.ofChar?]

/-- The texts of the tokens make up the text without its commentary. -/
theorem flatMap_text_scanFrom (n : Nat) (text : List Char) :
    (scanFrom n text).flatMap Token.text =
      text.filter fun c => (Instruction.ofChar? c).isSome := by
  induction text generalizing n with
  | nil => rfl
  | cons c cs ih =>
      have hsame := isSome_ofChar? c
      cases hc : TokenKind.ofChar? c with
      | none =>
          rw [hc] at hsame
          simp [scanFrom_cons_none hc, ih, ← hsame]
      | some kind =>
          rw [hc] at hsame
          simp [scanFrom_cons_some hc, flatMap_text_attach, ih, ← hsame]

theorem offset_of_mem_attach {kind : TokenKind} {n : Nat} {c : Char} {ts : List Token} {t : Token}
    (h : t ∈ attach kind n c ts) : t.offset = n ∨ t ∈ ts := by
  cases ts with
  | nil =>
      rw [attach, List.mem_singleton] at h
      exact .inl (h ▸ rfl)
  | cons u us =>
      rw [attach] at h
      split at h
      · rcases List.mem_cons.mp h with rfl | hmem
        · exact .inl rfl
        · exact .inr (List.mem_cons_of_mem u hmem)
      · rcases List.mem_cons.mp h with rfl | hmem
        · exact .inl rfl
        · exact .inr hmem

/-- A token starts inside the text that it comes from. -/
theorem offset_of_mem_scanFrom (n : Nat) (text : List Char) :
    ∀ t ∈ scanFrom n text, n ≤ t.offset ∧ t.offset < n + text.length := by
  induction text generalizing n with
  | nil => simp [scanFrom]
  | cons c text ih =>
      have hrest : ∀ t ∈ scanFrom (n + 1) text,
          n ≤ t.offset ∧ t.offset < n + (c :: text).length := by
        intro t ht
        have hbounds := ih (n + 1) t ht
        rw [List.length_cons]
        omega
      intro t ht
      rw [scanFrom] at ht
      split at ht
      · rcases offset_of_mem_attach ht with hn | hmem
        · rw [hn, List.length_cons]
          omega
        · exact hrest t hmem
      · exact hrest t ht

theorem eq_of_move {c : Char} (h : TokenKind.ofChar? c = some .move) : c = '>' ∨ c = '<' := by
  unfold TokenKind.ofChar? at h
  split at h <;> simp_all

theorem eq_of_delta {c : Char} (h : TokenKind.ofChar? c = some .delta) : c = '+' ∨ c = '-' := by
  unfold TokenKind.ofChar? at h
  split at h <;> simp_all

theorem eq_of_loopStart {c : Char} (h : TokenKind.ofChar? c = some .loopStart) : c = '[' := by
  unfold TokenKind.ofChar? at h
  split at h <;> simp_all

theorem eq_of_loopEnd {c : Char} (h : TokenKind.ofChar? c = some .loopEnd) : c = ']' := by
  unfold TokenKind.ofChar? at h
  split at h <;> simp_all

end Token

/-- The instruction of a token that is not a run. -/
def TokenKind.marker? : TokenKind → Option Instruction
  | .print => some .print
  | .read => some .read
  | .loopStart => some .loopStart
  | .loopEnd => some .loopEnd
  | _ => none

theorem ofChar?_of_marker {c : Char} {kind : TokenKind} {i : Instruction}
    (hc : TokenKind.ofChar? c = some kind) (hi : kind.marker? = some i) :
    Instruction.ofChar? c = some i := by
  unfold TokenKind.ofChar? at hc
  split at hc <;> cases hc <;> cases hi <;> rfl

theorem Token.IsUniform.readInstructions_marker {t : Token} (h : t.IsUniform) {i : Instruction}
    (hi : t.kind.marker? = some i) : readInstructions t.text = [i] := by
  have hrun : t.kind.isRun = false := by
    cases hk : t.kind <;> simp_all [TokenKind.marker?, TokenKind.isRun]
  obtain ⟨c, hc⟩ := h.single hrun
  have hread := ofChar?_of_marker (h.kind_eq c (by simp [hc])) hi
  rw [hc, readInstructions_cons_some hread]
  rfl

/-- Commentary does not count. -/
theorem readInstructions_scan (text : List Char) :
    readInstructions ((Token.scan text).flatMap Token.text) = readInstructions text := by
  rw [Token.scan, Token.flatMap_text_scanFrom, readInstructions, readInstructions,
    List.filterMap_filter]
  congr 1
  funext c
  cases Instruction.ofChar? c <;> rfl

end TapeMachine
