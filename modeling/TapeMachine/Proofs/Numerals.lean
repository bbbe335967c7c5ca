import TapeMachine.Text.Style

/-!
# Numerals in texts

A numeral holds digits only and determines its number. So a text into which numerals and words are
put can be taken apart again at characters that none of them holds, and what pads them to a width
can be told from them.
-/

namespace TapeMachine

/-- A text is cut in one way at the first occurrence of a character. -/
theorem append_cons_inj {d : Char} {l l' rest rest' : List Char} (hl : d ∉ l) (hl' : d ∉ l')
    (h : l ++ d :: rest = l' ++ d :: rest') : l = l' ∧ rest = rest' := by
  have htake : ∀ l rest : List Char, d ∉ l → (l ++ d :: rest).takeWhile (· ≠ d) = l := by
    intro l rest hl
    have hpos : ∀ c ∈ l, decide (c ≠ d) = true := fun c hc =>
      decide_eq_true fun heq => hl (heq ▸ hc)
    rw [List.takeWhile_append_of_pos hpos]
    simp
  have hword : l = l' := by rw [← htake l rest hl, h, htake l' rest' hl']
  subst hword
  exact ⟨rfl, (List.cons.inj (List.append_cancel_left h)).2⟩

/-- A text is cut in one way at the last occurrence of a character. -/
theorem append_cons_inj_right {d : Char} {l l' rest rest' : List Char} (hrest : d ∉ rest)
    (hrest' : d ∉ rest') (h : l ++ d :: rest = l' ++ d :: rest') : rest = rest' := by
  have hreverse := congrArg List.reverse h
  simp only [List.reverse_append, List.reverse_cons, List.append_assoc, List.singleton_append]
    at hreverse
  exact List.reverse_inj.mp (append_cons_inj (by rwa [List.mem_reverse])
    (by rwa [List.mem_reverse]) hreverse).1

theorem notMem_repr {c : Char} (hc : c.isDigit = false) (n : Nat) : c ∉ n.repr.toList := by
  intro h
  rw [Nat.toList_repr] at h
  rw [Nat.isDigit_of_mem_toDigits (by decide) (by decide) h] at hc
  cases hc

theorem notMem_append_repr_append {c : Char} {before after : String} (hc : c.isDigit = false)
    (hbefore : c ∉ before.toList) (n : Nat) (hafter : c ∉ after.toList) :
    c ∉ (before ++ n.repr ++ after).toList := by
  simp only [String.toList_append, List.mem_append, not_or]
  exact ⟨⟨hbefore, notMem_repr hc n⟩, hafter⟩

theorem eq_of_repr_eq {m n : Nat} (h : m.repr = n.repr) : m = n := by
  have hdigits : Nat.toDigits 10 m = Nat.toDigits 10 n := by
    rw [← Nat.toList_repr, h, Nat.toList_repr]
  rw [← Nat.ofDigitChars_ten_toDigits (n := m), hdigits, Nat.ofDigitChars_ten_toDigits]

namespace Style

variable {c : Char} {width : Nat} {s : String}

theorem toList_fill (width : Nat) (s : String) :
    (fill width s).toList = List.replicate (width - s.length) ' ' := by
  rw [fill, String.toList_ofList]

theorem notMem_padLeft (hc : c ≠ ' ') (hs : c ∉ s.toList) : c ∉ (padLeft width s).toList := by
  rw [padLeft, String.toList_append, toList_fill, List.mem_append, not_or]
  exact ⟨fun h => hc (List.eq_of_mem_replicate h), hs⟩

theorem notMem_padRight (hc : c ≠ ' ') (hs : c ∉ s.toList) : c ∉ (padRight width s).toList := by
  rw [padRight, String.toList_append, toList_fill, List.mem_append, not_or]
  exact ⟨hs, fun h => hc (List.eq_of_mem_replicate h)⟩

theorem filter_fill (width : Nat) (s : String) :
    (fill width s).toList.filter (· ≠ ' ') = [] := by
  rw [toList_fill, List.filter_eq_nil_iff]
  intro c hc
  simp [List.eq_of_mem_replicate hc]

theorem filter_word (hs : ' ' ∉ s.toList) : s.toList.filter (· ≠ ' ') = s.toList :=
  List.filter_eq_self.mpr fun _ hc => decide_eq_true fun heq => hs (heq ▸ hc)

/-- Padding does not hide the word: without blanks it is what is left. -/
theorem padLeft_inj {s' : String} (hs : ' ' ∉ s.toList) (hs' : ' ' ∉ s'.toList)
    (h : (padLeft width s).toList = (padLeft width s').toList) : s = s' := by
  have hfilter : ∀ {s : String}, ' ' ∉ s.toList →
      (padLeft width s).toList.filter (· ≠ ' ') = s.toList := by
    intro s hs
    rw [padLeft, String.toList_append, List.filter_append, filter_fill, filter_word hs,
      List.nil_append]
  exact String.toList_injective (by rw [← hfilter hs, h, hfilter hs'])

theorem padRight_inj {s' : String} (hs : ' ' ∉ s.toList) (hs' : ' ' ∉ s'.toList)
    (h : (padRight width s).toList = (padRight width s').toList) : s = s' := by
  have hfilter : ∀ {s : String}, ' ' ∉ s.toList →
      (padRight width s).toList.filter (· ≠ ' ') = s.toList := by
    intro s hs
    rw [padRight, String.toList_append, List.filter_append, filter_fill, filter_word hs,
      List.append_nil]
  exact String.toList_injective (by rw [← hfilter hs, h, hfilter hs'])

end Style

end TapeMachine
