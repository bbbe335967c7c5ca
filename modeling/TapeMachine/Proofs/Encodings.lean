import TapeMachine.Proofs.Blame

/-!
# Programs as text and as bytes

A program may come as text or as the bytes that encode it. A character that stands for itself is
one byte; of any other all bytes are commentary, as the character is. So the two forms have the
same tokens and the same brackets, and an offset into the one gives an offset into the other.
-/

namespace TapeMachine

/-! ## Wide characters -/

/-- The bytes of a character, read as one character each. -/
def spelling (c : Char) : List Char := decodeLatin1 (String.utf8EncodeChar c)

theorem units_encodeUtf8 (chars : List Char) :
    (Content.bytes (encodeUtf8 chars)).units = chars.flatMap spelling := by
  rw [Content.units, decodeLatin1, encodeUtf8, List.map_flatMap]
  rfl

theorem le_toNat_of_mem_utf8EncodeChar {c : Char} (hc : 128 ≤ c.toNat) {b : UInt8}
    (hb : b ∈ String.utf8EncodeChar c) : 128 ≤ b.toNat := by
  have hval : ¬c.val.toNat ≤ 127 := Nat.not_le_of_lt hc
  simp only [String.utf8EncodeChar, if_neg hval] at hb
  split_ifs at hb <;>
    simp only [List.mem_cons, List.not_mem_nil, or_false] at hb <;>
    rcases hb with rfl | rfl | rfl | rfl <;>
    simp only [UInt8.toNat_ofNat'] <;>
    omega

theorem spelling_of_lt {c : Char} (hc : c.toNat < 128) : spelling c = [c] := by
  have hval : c.val.toNat ≤ 127 := Nat.le_of_lt_succ hc
  have hbyte : (UInt8.ofNat c.val.toNat).toNat = c.toNat :=
    UInt8.toNat_ofNat_of_lt' (Nat.lt_trans hc (by decide))
  simp only [spelling, String.utf8EncodeChar, if_pos hval, decodeLatin1, List.map_cons,
    List.map_nil, List.cons.injEq, and_true]
  apply Char.toNat_inj.mp
  rw [toNat_ofUInt8, hbyte]

/-- A character is spelled as itself, or it is wide and only spelled by wide ones. -/
theorem spelling_cases (c : Char) :
    spelling c = [c] ∨ 128 ≤ c.toNat ∧ ∀ d ∈ spelling c, 128 ≤ d.toNat := by
  rcases Nat.lt_or_ge c.toNat 128 with hc | hc
  · exact .inl (spelling_of_lt hc)
  · refine .inr ⟨hc, fun d hd => ?_⟩
    obtain ⟨b, hb, rfl⟩ := List.mem_map.mp hd
    rw [toNat_ofUInt8]
    exact le_toNat_of_mem_utf8EncodeChar hc hb

theorem spelling_ne_nil (c : Char) : spelling c ≠ [] := by
  intro h
  have hlength : (String.utf8EncodeChar c).length = 0 := by
    rw [← List.length_map (f := Char.ofUInt8)]
    exact congrArg List.length h
  rw [String.length_utf8EncodeChar] at hlength
  exact absurd c.utf8Size_pos (by omega)

/-! ## What wide characters are not -/

variable {c : Char}

theorem TokenKind.ofChar?_of_wide (hc : 128 ≤ c.toNat) : TokenKind.ofChar? c = none := by
  unfold TokenKind.ofChar?
  split
  all_goals first | rfl | exact absurd hc (by decide)

theorem Instruction.ofChar?_of_wide (hc : 128 ≤ c.toNat) : Instruction.ofChar? c = none := by
  have hsame := Token.isSome_ofChar? c
  rw [TokenKind.ofChar?_of_wide hc] at hsame
  simpa using hsame.symm

theorem opens?_of_wide (hc : 128 ≤ c.toNat) : opens? c = none := by
  rw [← opens?_bind_ofChar?, Instruction.ofChar?_of_wide hc]
  rfl

theorem readInstructions_flatMap_spelling (chars : List Char) :
    readInstructions (chars.flatMap spelling) = readInstructions chars := by
  induction chars with
  | nil => rfl
  | cons c chars ih =>
      rw [List.flatMap_cons, readInstructions_append, ih]
      rcases spelling_cases c with hc | ⟨hc, hwide⟩
      · rw [hc, ← readInstructions_append]
        rfl
      · have hskip : readInstructions (spelling c) = [] := by
          rw [readInstructions, List.filterMap_eq_nil_iff]
          exact fun d hd => Instruction.ofChar?_of_wide (hwide d hd)
        rw [hskip, List.nil_append, readInstructions_cons_none (Instruction.ofChar?_of_wide hc)]

theorem readsInput_flatMap_spelling (chars : List Char) :
    readsInput (chars.flatMap spelling) = readsInput chars := by
  rw [Bool.eq_iff_iff, readsInput, readsInput, List.contains_iff_mem, List.contains_iff_mem,
    List.mem_flatMap]
  constructor
  · rintro ⟨c, hmem, hc⟩
    rcases spelling_cases c with hself | ⟨-, hwide⟩
    · rw [hself, List.mem_singleton] at hc
      exact hc ▸ hmem
    · exact absurd (hwide _ hc) (by decide)
  · intro hmem
    refine ⟨',', hmem, ?_⟩
    rw [spelling_of_lt (by decide)]
    exact List.mem_singleton_self _

/-! ## Offsets -/

/-- The number of bytes in front of an offset. -/
def byteOffset (chars : List Char) (k : ℕ) : ℕ := (encodeUtf8 (chars.take k)).length

theorem byteOffset_succ (chars : List Char) {k : ℕ} {c : Char} (hc : chars[k]? = some c) :
    byteOffset chars (k + 1) = byteOffset chars k + (spelling c).length := by
  rw [byteOffset, byteOffset, List.take_add_one, hc, encodeUtf8, List.flatMap_append,
    List.length_append]
  simp [encodeUtf8, spelling, decodeLatin1]

theorem byteOffset_lt (chars : List Char) {j k : ℕ} (hjk : j < k) (hk : k ≤ chars.length) :
    byteOffset chars j < byteOffset chars k := by
  induction k, hjk using Nat.le_induction with
  | base =>
      rw [byteOffset_succ chars (List.getElem?_eq_getElem hk)]
      exact Nat.lt_add_of_pos_right (List.length_pos_of_ne_nil (spelling_ne_nil _))
  | succ k hjk ih =>
      apply Nat.lt_of_lt_of_le (ih (Nat.le_of_succ_le hk))
      rw [byteOffset_succ chars (List.getElem?_eq_getElem hk)]
      exact Nat.le_add_right _ _

theorem getElem?_of_drop {chars text : List Char} {k : ℕ} (h : chars.drop k = c :: text) :
    chars[k]? = some c ∧ chars.drop (k + 1) = text := by
  constructor
  · rw [← Nat.add_zero k, ← List.getElem?_drop, h]
    rfl
  · rw [← List.drop_drop, h]
    rfl

section Relocation

variable {α : Type*} {g : ℕ → List Char → List α} {move : α → α}

theorem append_of_wide (hwide : ∀ n d l, 128 ≤ d.toNat → g n (d :: l) = g (n + 1) l)
    {l : List Char} (h : ∀ d ∈ l, 128 ≤ d.toNat) (n : ℕ) (rest : List Char) :
    g n (l ++ rest) = g (n + l.length) rest := by
  induction l generalizing n with
  | nil => rfl
  | cons d l ih =>
      obtain ⟨hd, hl⟩ := List.forall_mem_cons.mp h
      rw [List.cons_append, hwide n d _ hd, ih hl, List.length_cons, Nat.add_right_comm,
        Nat.add_assoc]

/-- What is found with its offset, and never at a wide character, is found in the bytes of the text
as well, at the offset there. Characters that are one byte are left to the caller. -/
theorem map_flatMap_spelling (chars : List Char) (hnil : ∀ n, g n [] = [])
    (hwide : ∀ n d l, 128 ≤ d.toNat → g n (d :: l) = g (n + 1) l)
    (hcons : ∀ k c text spelled, chars.drop k = c :: text →
      byteOffset chars (k + 1) = byteOffset chars k + 1 →
      g (byteOffset chars (k + 1)) spelled = (g (k + 1) text).map move →
        g (byteOffset chars k) (c :: spelled) = (g k (c :: text)).map move)
    {text : List Char} {k : ℕ} (h : chars.drop k = text) :
    g (byteOffset chars k) (text.flatMap spelling) = (g k text).map move := by
  induction text generalizing k with
  | nil => rw [List.flatMap_nil, hnil, hnil, List.map_nil]
  | cons c text ih =>
      obtain ⟨hc, hrest⟩ := getElem?_of_drop h
      have hsucc := byteOffset_succ chars hc
      rw [List.flatMap_cons]
      rcases spelling_cases c with hself | ⟨hcwide, hspelling⟩
      · rw [hself, List.length_singleton] at hsucc
        rw [hself, List.singleton_append]
        exact hcons k c text _ h hsucc (ih hrest)
      · rw [append_of_wide hwide hspelling, ← hsucc, ih hrest, hwide k c text hcwide]

end Relocation

/-! ## Tokens -/

namespace Token

def relocate (f : ℕ → ℕ) (t : Token) : Token := { t with offset := f t.offset }

theorem attach_relocate {f : ℕ → ℕ} {kind : TokenKind} {n : ℕ} {ts : List Token}
    (h : ∀ t ∈ ts, f t.offset = f n + 1 ↔ t.offset = n + 1) :
    attach kind (f n) c (ts.map (relocate f)) = (attach kind n c ts).map (relocate f) := by
  cases ts with
  | nil => rfl
  | cons u us =>
      have hu := h u List.mem_cons_self
      simp only [List.map_cons, attach, relocate, hu]
      split <;> rfl

theorem scanFrom_cons_of_wide (n : ℕ) (d : Char) (l : List Char) (hd : 128 ≤ d.toNat) :
    scanFrom n (d :: l) = scanFrom (n + 1) l :=
  scanFrom_cons_none (TokenKind.ofChar?_of_wide hd) n l

/-- Two tokens touch in the bytes only where they touch in the text. -/
theorem byteOffset_eq_succ_iff {chars text : List Char} {k : ℕ} (h : chars.drop k = c :: text)
    (hsucc : byteOffset chars (k + 1) = byteOffset chars k + 1) {t : Token}
    (ht : t ∈ scanFrom (k + 1) text) :
    byteOffset chars t.offset = byteOffset chars k + 1 ↔ t.offset = k + 1 := by
  obtain ⟨hlow, hhigh⟩ := offset_of_mem_scanFrom (k + 1) text t ht
  have hlength : chars.length = k + 1 + text.length := by
    have hdrop := congrArg List.length h
    rw [List.length_drop, List.length_cons] at hdrop
    omega
  constructor
  · intro hoffset
    by_contra hne
    have hlt := byteOffset_lt chars (Nat.lt_of_le_of_ne hlow (Ne.symm hne)) (by omega)
    omega
  · intro hoffset
    rw [hoffset, hsucc]

theorem scan_flatMap_spelling (chars : List Char) :
    scan (chars.flatMap spelling) = (scan chars).map (relocate (byteOffset chars)) := by
  apply map_flatMap_spelling chars (fun _ => rfl) scanFrom_cons_of_wide _ (k := 0) rfl
  intro k c text spelled hdrop hsucc hrest
  cases hkind : TokenKind.ofChar? c with
  | none => rw [scanFrom_cons_none hkind, scanFrom_cons_none hkind, ← hsucc, hrest]
  | some kind =>
      rw [scanFrom_cons_some hkind, scanFrom_cons_some hkind, ← hsucc, hrest]
      exact attach_relocate fun t => byteOffset_eq_succ_iff hdrop hsucc

end Token

/-! ## Brackets -/

theorem bracketsFrom_flatMap_spelling (chars : List Char) :
    bracketsFrom opens? 0 (chars.flatMap spelling) =
      (bracketsFrom opens? 0 chars).map (Prod.map id (byteOffset chars)) := by
  apply map_flatMap_spelling chars (fun _ => rfl) _ _ (k := 0) rfl
  · intro n d l hd
    exact bracketsFrom_cons_none (opens?_of_wide hd) n l
  · intro k c text spelled _ hsucc hrest
    cases hkind : opens? c with
    | none => rw [bracketsFrom_cons_none hkind, bracketsFrom_cons_none hkind, ← hsucc, hrest]
    | some kind =>
        rw [bracketsFrom_cons_some hkind, bracketsFrom_cons_some hkind, ← hsucc, hrest]
        rfl

theorem unmatched?_flatMap_spelling (chars : List Char) :
    unmatched? (chars.flatMap spelling) = (unmatched? chars).map (byteOffset chars) := by
  have hbrackets := bracketsFrom_flatMap_spelling chars
  have hmap := blameFrom_map (byteOffset chars) [] (bracketsFrom opens? 0 chars)
  rw [unmatched?_eq_blameFrom, unmatched?_eq_blameFrom, ← hmap]
  exact congrArg (blameFrom []) hbrackets

/-! ## Both forms -/

/-- Bytes in UTF-8 are the same program as the text that they encode: they condense to the same
instructions, read input if the text does, and are refused if the text is. Tokens and the bracket
to blame are where the text has them, behind the bytes of the characters in front. -/
theorem bytes_agree_with_text (chars : List Char) :
    condense (Content.bytes (encodeUtf8 chars)).units = condense (Content.text chars).units ∧
    readsInput (Content.bytes (encodeUtf8 chars)).units =
      readsInput (Content.text chars).units ∧
    (validate (.bytes (encodeUtf8 chars)) = .ok () ↔ validate (.text chars) = .ok ()) ∧
    (∀ failure, validate (.text chars) = .error failure → ∃ k : ℕ,
      failure = Failure.unmatchedBracket k none ∧
        validate (.bytes (encodeUtf8 chars)) =
          .error (Failure.unmatchedBracket (encodeUtf8 (chars.take k)).length none)) ∧
    Token.scan (Content.bytes (encodeUtf8 chars)).units =
      (Token.scan (Content.text chars).units).map fun t =>
        { t with offset := (encodeUtf8 (chars.take t.offset)).length } := by
  have hunmatched : unmatched? (Content.bytes (encodeUtf8 chars)).units =
      (unmatched? (Content.text chars).units).map (byteOffset chars) := by
    rw [units_encodeUtf8]
    exact unmatched?_flatMap_spelling chars
  refine ⟨?_, ?_, ?_, ?_, ?_⟩
  · rw [units_encodeUtf8, condense_eq_merge, condense_eq_merge,
      readInstructions_flatMap_spelling]
    rfl
  · rw [units_encodeUtf8, readsInput_flatMap_spelling]
    rfl
  · rw [validate_eq_ok_iff, validate_eq_ok_iff, hunmatched, Option.map_eq_none_iff]
  · intro failure hfailure
    obtain ⟨k, hfailure, hk⟩ := exists_unmatched_of_validate hfailure
    refine ⟨k, hfailure, ?_⟩
    rw [validate_eq_error_iff, hunmatched, hk]
    rfl
  · rw [units_encodeUtf8]
    exact Token.scan_flatMap_spelling chars

/-- A bracket behind a character of two bytes. -/
theorem bytes_agree_with_text_of_wide :
    validate (.text ['é', ']']) = .error (Failure.unmatchedBracket 1 none) ∧
      validate (.bytes [195, 169, 93]) = .error (Failure.unmatchedBracket 2 none) := by
  have hrefused : validate (.text ['é', ']']) = .error (Failure.unmatchedBracket 1 none) := rfl
  obtain ⟨-, -, -, hbytes, -⟩ := bytes_agree_with_text ['é', ']']
  obtain ⟨k, hk, hbytes⟩ := hbytes _ hrefused
  obtain rfl : k = 1 := by
    have hposition : (1 : Int) = k := by simpa [Failure.unmatchedBracket] using hk
    omega
  exact ⟨hrefused, hbytes⟩

end TapeMachine
