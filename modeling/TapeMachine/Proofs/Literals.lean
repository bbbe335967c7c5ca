import TapeMachine.Content
import TapeMachine.Rust.LiteralReader

/-!
# Literals hold their bytes

Every byte of a literal is read back from the characters that stand for it, whatever follows, so
the first quote that ends the literal is the one behind its last byte.
-/

namespace TapeMachine

namespace Rust

theorem hexDigitValue?_hexDigit {n : Nat} (hn : n < 16) : hexDigitValue? (hexDigit n) = some n := by
  have hall : ∀ m < 16, hexDigitValue? (hexDigit m) = some m := by decide
  exact hall n hn

theorem hexByte?_hexDigits (b : UInt8) :
    hexByte? (hexDigit (b.toNat / 16)) (hexDigit (b.toNat % 16)) = some b := by
  have hlt : b.toNat < 256 := b.toNat_lt
  have hbyte : 16 * (b.toNat / 16) + b.toNat % 16 = b.toNat := Nat.div_add_mod _ _
  rw [hexByte?, hexDigitValue?_hexDigit (by omega), hexDigitValue?_hexDigit (by omega)]
  simp only [hbyte, UInt8.ofNat_toNat]

/-- A byte that may stand for itself is a printable character, no quote and no backslash. -/
theorem isPlainByte_iff (b : UInt8) :
    isPlainByte b = true ↔ 0x20 ≤ b.toNat ∧ b.toNat < 0x7f ∧ b.toNat ≠ 0x22 ∧ b.toNat ≠ 0x5c := by
  simp only [isPlainByte, Bool.and_eq_true, decide_eq_true_eq, UInt8.le_iff_toNat_le,
    UInt8.lt_iff_toNat_lt, ne_eq, ← UInt8.toNat_inj, and_assoc]
  rfl

variable {b : UInt8}

theorem plainByte?_ofUInt8 (hb : isPlainByte b = true) :
    plainByte? (Char.ofUInt8 b) = some b := by
  obtain ⟨hlow, hhigh, -, -⟩ := (isPlainByte_iff b).mp hb
  simp [plainByte?, toNat_ofUInt8, hlow, hhigh]

theorem ofUInt8_ne {c : Char} (h : b.toNat ≠ c.toNat) : Char.ofUInt8 b ≠ c := by
  rintro rfl
  exact h (toNat_ofUInt8 b).symm

/-- The characters that stand for a byte are read as that byte. -/
theorem readLiteral?_escapeByte (b : UInt8) (rest : List Char) :
    readLiteral? (escapeByte b ++ rest) =
      (readLiteral? rest).map fun p => (b :: p.1, p.2) := by
  by_cases hb : isPlainByte b = true
  · obtain ⟨-, -, hquote, hslash⟩ := (isPlainByte_iff b).mp hb
    have hcquote : Char.ofUInt8 b ≠ '"' := ofUInt8_ne hquote
    have hcslash : Char.ofUInt8 b ≠ '\\' := ofUInt8_ne hslash
    rw [escapeByte, if_pos hb, List.singleton_append, readLiteral?, plainByte?_ofUInt8 hb]
    · cases readLiteral? rest with
      | none => rfl
      | some p => simp [hcslash]
    all_goals simp_all
  · rw [escapeByte, if_neg hb]
    simp only [List.cons_append, List.nil_append, readLiteral?, hexByte?_hexDigits]
    cases readLiteral? rest <;> rfl

/-- Reading a literal from behind its opening quote gives its bytes and what follows it. -/
theorem readLiteral?_literalBody (data : List UInt8) (rest : List Char) :
    readLiteral? (literalBody data ++ '"' :: rest) = some (data, rest) := by
  induction data with
  | nil => simp [literalBody, readLiteral?]
  | cons b data ih =>
      have hbody : literalBody (b :: data) = escapeByte b ++ literalBody data := by
        simp [literalBody]
      rw [hbody, List.append_assoc, readLiteral?_escapeByte, ih]
      rfl

theorem literalBody_injective : Function.Injective literalBody := by
  intro data data' h
  have hread := readLiteral?_literalBody data []
  rw [h, readLiteral?_literalBody] at hread
  simpa using hread.symm

/-- Whatever a byte is, the characters that stand for it are printable. -/
theorem printable_of_mem_escapeByte {c : Char} (h : c ∈ escapeByte b) :
    0x20 ≤ c.toNat ∧ c.toNat ≤ 0x7e := by
  by_cases hb : isPlainByte b = true
  · obtain ⟨hlow, hhigh, -, -⟩ := (isPlainByte_iff b).mp hb
    rw [escapeByte, if_pos hb, List.mem_singleton] at h
    subst h
    rw [toNat_ofUInt8]
    omega
  · have hdigit : ∀ n < 16, 0x20 ≤ (hexDigit n).toNat ∧ (hexDigit n).toNat ≤ 0x7e := by decide
    have hlt : b.toNat < 256 := b.toNat_lt
    rw [escapeByte, if_neg hb] at h
    simp only [List.mem_cons, List.not_mem_nil, or_false] at h
    rcases h with rfl | rfl | rfl | rfl
    · decide
    · decide
    · exact hdigit _ (by omega)
    · exact hdigit _ (by omega)

theorem printable_of_mem_literalBody {data : List UInt8} {c : Char} (h : c ∈ literalBody data) :
    0x20 ≤ c.toNat ∧ c.toNat ≤ 0x7e := by
  obtain ⟨b, -, hc⟩ := List.mem_flatMap.mp h
  exact printable_of_mem_escapeByte hc

end Rust

end TapeMachine
