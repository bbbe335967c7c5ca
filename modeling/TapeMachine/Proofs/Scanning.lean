import Mathlib.Data.List.TakeWhile
import TapeMachine.Content
import TapeMachine.Grammar
import TapeMachine.Proofs.Tokens

/-!
# Scanning is longest-match tokenizing

The terminals accept different characters, so that the longest match is the longest run of the kind
of the next character. What the scanner attaches one character at a time is this run, and the tokens
are the maximal runs and the single characters of the text.
-/

namespace TapeMachine

variable {c d : Char} {kind : TokenKind} {n : Nat} {piece rest text before : List Char}

/-! ## What terminals accept -/

namespace Terminal

variable {t u : Terminal}

theorem accepts_iff (ht : t ∈ terminals) (c : Char) :
    t.accepts c = true ↔ TokenKind.ofChar? c = t.kind? := by
  simp only [terminals, List.mem_cons, List.not_mem_nil, or_false] at ht
  unfold TokenKind.ofChar?
  rcases ht with rfl | rfl | rfl | rfl | rfl | rfl | rfl <;> split <;>
    simp_all [instructionChars]

theorem repeats_eq (ht : t ∈ terminals) : t.repeats = (t.kind?.map TokenKind.isRun).getD true := by
  simp only [terminals, List.mem_cons, List.not_mem_nil, or_false] at ht
  rcases ht with rfl | rfl | rfl | rfl | rfl | rfl | rfl <;> rfl

theorem exists_terminal (c : Char) : ∃ t ∈ terminals, t.accepts c = true := by
  have hkinds : ∀ kind? : Option TokenKind, ∃ t ∈ terminals, t.kind? = kind? := by
    intro kind?
    cases kind? with
    | none => simp [terminals]
    | some kind => cases kind <;> simp [terminals]
  obtain ⟨t, ht, hkind⟩ := hkinds (TokenKind.ofChar? c)
  exact ⟨t, ht, (accepts_iff ht c).mpr hkind.symm⟩

/-- Terminals that share a character match the same pieces. -/
theorem Matches.congr (ht : t ∈ terminals) (hu : u ∈ terminals) (htc : t.accepts c = true)
    (huc : u.accepts c = true) (h : t.Matches piece) : u.Matches piece := by
  have hkind : u.kind? = t.kind? := by
    rw [← (accepts_iff ht c).mp htc, ← (accepts_iff hu c).mp huc]
  refine ⟨h.ne_nil, fun d hd => ?_, fun hrepeats => h.single ?_⟩
  · rw [accepts_iff hu, hkind, ← accepts_iff ht]
    exact h.accepts d hd
  · rw [repeats_eq ht, ← hkind, ← repeats_eq hu]
    exact hrepeats

theorem matches_of_repeats (hrepeats : t.repeats = true) (hne : piece ≠ [])
    (h : ∀ c ∈ piece, t.accepts c = true) : t.Matches piece := by
  refine ⟨hne, h, fun hf => ?_⟩
  rw [hrepeats] at hf
  cases hf

/-- Some terminal matches the text in front, and one of the matches is the longest. -/
theorem exists_longest (h : text ≠ []) :
    ∃ t piece rest, text = piece ++ rest ∧ IsLongest terminals t piece text := by
  obtain ⟨c, cs, rfl⟩ := List.exists_cons_of_ne_nil h
  obtain ⟨t, ht, htc⟩ := exists_terminal c
  have hmatches : ∀ u ∈ terminals, ∀ other, u.Matches other → other <+: c :: cs →
      t.Matches other := by
    intro u hu other hother hfront
    obtain ⟨d, ds, rfl⟩ := List.exists_cons_of_ne_nil hother.ne_nil
    obtain ⟨rfl, -⟩ := List.cons_prefix_cons.mp hfront
    exact hother.congr hu ht (hother.accepts d List.mem_cons_self) htc
  cases hrepeats : t.repeats with
  | false =>
      have hsingle : t.Matches [c] := ⟨List.cons_ne_nil c [], by simpa using htc, fun _ => rfl⟩
      refine ⟨t, [c], cs, rfl, ht, hsingle, List.prefix_append [c] cs, ?_⟩
      intro u hu other hother hfront
      exact Nat.le_of_eq ((hmatches u hu other hother hfront).single hrepeats)
  | true =>
      have hrun : t.Matches ((c :: cs).takeWhile t.accepts) := by
        refine matches_of_repeats hrepeats ?_ fun d hd => List.mem_takeWhile_imp hd
        rw [List.takeWhile_cons_of_pos htc]
        exact List.cons_ne_nil _ _
      refine ⟨t, _, _, List.takeWhile_append_dropWhile.symm, ht, hrun, List.takeWhile_prefix _, ?_⟩
      intro u hu other hother hfront
      have haccepts := (hmatches u hu other hother hfront).accepts
      obtain ⟨tail, htail⟩ := hfront
      rw [← htail, List.takeWhile_append_of_pos haccepts, List.length_append]
      exact Nat.le_add_right _ _

/-- Behind a longest piece of a terminal that repeats stands nothing that it accepts. -/
theorem IsLongest.next (h : IsLongest terminals t piece (piece ++ rest))
    (hrepeats : t.repeats = true) (hc : c ∈ rest.head?) : TokenKind.ofChar? c ≠ t.kind? := by
  obtain ⟨cs, rfl⟩ := List.head?_eq_some_iff.mp hc
  intro hkind
  have hlonger : t.Matches (piece ++ [c]) := by
    refine matches_of_repeats hrepeats (by simp) fun d hd => ?_
    rcases List.mem_append.mp hd with hd | hd
    · exact h.matched.accepts d hd
    · rw [List.mem_singleton.mp hd]
      exact (accepts_iff h.mem c).mpr hkind
  have hle := h.longest t h.mem _ hlonger ⟨cs, by simp⟩
  rw [List.length_append, List.length_singleton] at hle
  omega

end Terminal

/-! ## Scanning a piece -/

namespace Token

theorem kind_of_mem_head?_attach {ts : List Token} {t : Token}
    (h : t ∈ (attach kind n c ts).head?) : t.kind = kind := by
  cases ts with
  | nil =>
      cases h
      rfl
  | cons u us =>
      rw [attach] at h
      split at h
      all_goals
        cases h
        rfl

/-- A token where the text begins is of the kind of its first character. -/
theorem ofChar?_of_mem_head?_scanFrom {t : Token} (h : t ∈ (scanFrom n text).head?)
    (hoffset : t.offset = n) : ∃ c ∈ text.head?, TokenKind.ofChar? c = some t.kind := by
  cases text with
  | nil => cases h
  | cons c cs =>
      refine ⟨c, rfl, ?_⟩
      rw [scanFrom] at h
      cases hc : TokenKind.ofChar? c with
      | none =>
          simp only [hc] at h
          have hlow := (offset_of_mem_scanFrom (n + 1) cs t (List.mem_of_mem_head? h)).1
          omega
      | some kind =>
          simp only [hc] at h
          rw [kind_of_mem_head?_attach h]

theorem scanFrom_run (hne : piece ≠ []) (hpiece : ∀ c ∈ piece, TokenKind.ofChar? c = some kind)
    (hsingle : kind.isRun = false → piece.length = 1)
    (hrest : kind.isRun = true → ∀ c ∈ rest.head?, TokenKind.ofChar? c ≠ some kind) :
    scanFrom n (piece ++ rest) = ⟨kind, n, piece⟩ :: scanFrom (n + piece.length) rest := by
  induction piece generalizing n with
  | nil => exact absurd rfl hne
  | cons c cs ih =>
      obtain ⟨hc, hcs⟩ := List.forall_mem_cons.mp hpiece
      rw [List.cons_append, scanFrom_cons_some hc]
      cases cs with
      | nil =>
          apply attach_apart
          intro t ht hoffset hrun hkind
          obtain ⟨d, hd, hdkind⟩ := ofChar?_of_mem_head?_scanFrom ht hoffset
          exact hrest hrun d hd (hkind ▸ hdkind)
      | cons d ds =>
          have hrun : kind.isRun = true := by
            by_contra hf
            simpa using hsingle (eq_false_of_ne_true hf)
          rw [ih (List.cons_ne_nil d ds) hcs (by simp [hrun]), attach, if_pos ⟨hrun, rfl, rfl⟩,
            List.length_cons (a := c), Nat.add_right_comm, Nat.add_assoc]

theorem scanFrom_commentary (hpiece : ∀ c ∈ piece, TokenKind.ofChar? c = none) :
    scanFrom n (piece ++ rest) = scanFrom (n + piece.length) rest := by
  induction piece generalizing n with
  | nil => rfl
  | cons c cs ih =>
      obtain ⟨hc, hcs⟩ := List.forall_mem_cons.mp hpiece
      rw [List.cons_append, scanFrom_cons_none hc, ih hcs, List.length_cons, Nat.add_right_comm,
        Nat.add_assoc]

theorem scanFrom_longest {t : Terminal}
    (h : Terminal.IsLongest terminals t piece (piece ++ rest)) :
    scanFrom n (piece ++ rest) = (t.token? n piece).toList ++ scanFrom (n + piece.length) rest := by
  have hkind : ∀ c ∈ piece, TokenKind.ofChar? c = t.kind? := fun c hc =>
    (Terminal.accepts_iff h.mem c).mp (h.matched.accepts c hc)
  have hrepeats := Terminal.repeats_eq h.mem
  rw [Terminal.token?]
  cases hkind? : t.kind? with
  | none =>
      rw [hkind?] at hkind
      exact scanFrom_commentary hkind
  | some kind =>
      rw [hkind?] at hkind hrepeats
      apply scanFrom_run h.matched.ne_nil hkind
      · exact fun hrun => h.matched.single (hrepeats.trans hrun)
      · exact fun hrun c hc => hkind? ▸ h.next (hrepeats.trans hrun) hc

/-- A longest-match tokenizer of the grammar makes the tokens of the scanner, and nothing else. -/
theorem tokenizes_iff {tokens : Option (List Token)} :
    Terminal.Tokenizes terminals n text tokens ↔ tokens = some (scanFrom n text) := by
  constructor
  · intro h
    induction h with
    | done n => rfl
    | piece longest _ ih => rw [ih, scanFrom_longest longest, Option.map_some]
    | stuck ne_nil unmatched =>
        obtain ⟨t, piece, _, _, longest⟩ := Terminal.exists_longest ne_nil
        exact absurd longest.front (unmatched t longest.mem piece longest.matched)
  · rintro rfl
    induction hlength : text.length using Nat.strong_induction_on generalizing n text with
    | _ length ih =>
        rcases eq_or_ne text [] with rfl | hne
        · exact .done n
        · obtain ⟨t, piece, rest, rfl, longest⟩ := Terminal.exists_longest hne
          have hshorter : rest.length < length := by
            rw [← hlength, List.length_append]
            exact Nat.lt_add_of_pos_left (List.length_pos_iff.mpr longest.matched.ne_nil)
          rw [scanFrom_longest longest]
          exact .piece longest (ih _ hshorter rfl)

/-! ## Tokens as pieces of the text -/

/-- The token is a single character of the text or a maximal run of characters of one kind. -/
structure IsLexeme (text : List Char) (t : Token) : Prop where
  uniform : t.IsUniform
  ne_nil : t.text ≠ []
  slice : t.text <+: text.drop t.offset
  left : t.kind.isRun = true → ∀ k c, k + 1 = t.offset → text[k]? = some c →
    TokenKind.ofChar? c ≠ some t.kind
  right : t.kind.isRun = true → ∀ c, text[t.offset + t.text.length]? = some c →
    TokenKind.ofChar? c ≠ some t.kind

/-- The tokens are the pieces that a text of instructions and commentary falls into. -/
structure Splits (text : List Char) (tokens : List Token) : Prop where
  mem_iff : ∀ t, t ∈ tokens ↔ IsLexeme text t
  increasing : tokens.Pairwise fun t u => t.offset < u.offset
  slice : ∀ t ∈ tokens, t.text = (text.drop t.offset).take t.text.length
  disjoint : tokens.Pairwise fun t u => t.offset + t.text.length ≤ u.offset
  separate : tokens.Pairwise fun t u =>
    t.kind.isRun = true → u.kind = t.kind → t.offset + t.text.length ≠ u.offset
  cover : tokens.flatMap Token.text = text.filter (· ∈ instructionChars)

namespace IsLexeme

variable {t u : Token}

theorem ofChar?_of_lt (h : IsLexeme text t) {k : Nat} (hlow : t.offset ≤ k)
    (hhigh : k < t.offset + t.text.length) :
    ∃ c, text[k]? = some c ∧ TokenKind.ofChar? c = some t.kind := by
  obtain ⟨j, rfl⟩ := Nat.exists_eq_add_of_le hlow
  have hj : j < t.text.length := Nat.lt_of_add_lt_add_left hhigh
  refine ⟨t.text[j], ?_, h.uniform.kind_eq _ (List.getElem_mem hj)⟩
  rw [← List.getElem?_drop]
  exact List.prefix_iff_getElem?.mp h.slice j hj

theorem length_pos (h : IsLexeme text t) : 0 < t.text.length := List.length_pos_iff.mpr h.ne_nil

theorem isRun_of_length (h : IsLexeme text t) (hlength : 1 < t.text.length) :
    t.kind.isRun = true := by
  by_contra hf
  obtain ⟨c, hc⟩ := h.uniform.single (eq_false_of_ne_true hf)
  simp [hc] at hlength

/-- Inside a token no other token of its kind begins or ends. -/
theorem length_le (ht : IsLexeme text t) (hu : IsLexeme text u) (hoffset : t.offset = u.offset)
    (hkind : t.kind = u.kind) : t.text.length ≤ u.text.length := by
  by_contra hlt
  have hpos := hu.length_pos
  obtain ⟨c, hc, hckind⟩ := ht.ofChar?_of_lt (k := u.offset + u.text.length) (by omega) (by omega)
  exact hu.right (hkind ▸ ht.isRun_of_length (by omega)) c hc (hkind ▸ hckind)

/-- Tokens that share a place are equal. -/
theorem eq_of_overlap (ht : IsLexeme text t) (hu : IsLexeme text u) (hlow : t.offset ≤ u.offset)
    (hhigh : u.offset < t.offset + t.text.length) : u = t := by
  have hpos := hu.length_pos
  have hkind : u.kind = t.kind := by
    obtain ⟨c, hc, hckind⟩ := ht.ofChar?_of_lt hlow hhigh
    obtain ⟨d, hd, hdkind⟩ := hu.ofChar?_of_lt (Nat.le_refl u.offset) (by omega)
    obtain rfl : c = d := Option.some.inj (hc.symm.trans hd)
    exact Option.some.inj (hdkind.symm.trans hckind)
  have hoffset : u.offset = t.offset := by
    by_contra hne
    obtain ⟨c, hc, hckind⟩ := ht.ofChar?_of_lt (k := u.offset - 1) (by omega) (by omega)
    exact hu.left (hkind ▸ ht.isRun_of_length (by omega)) _ c (by omega) hc (hkind ▸ hckind)
  have hlength : u.text.length = t.text.length :=
    Nat.le_antisymm (hu.length_le ht hoffset hkind) (ht.length_le hu hoffset.symm hkind.symm)
  have htext : u.text = t.text := by
    rw [List.prefix_iff_eq_take.mp hu.slice, List.prefix_iff_eq_take.mp ht.slice, hoffset, hlength]
  cases t
  cases u
  simp_all

end IsLexeme

/-- No run reaches from one text into the next. -/
def IsBorder (before text : List Char) : Prop :=
  ∀ c ∈ before.getLast?, ∀ d ∈ text.head?, ∀ kind : TokenKind, kind.isRun = true →
    TokenKind.ofChar? c = some kind → TokenKind.ofChar? d ≠ some kind

theorem isBorder_longest {t : Terminal}
    (h : Terminal.IsLongest terminals t piece (piece ++ rest)) :
    IsBorder (before ++ piece) rest := by
  intro c hc d hd kind hrun hckind
  have hmem : c ∈ piece := by
    rw [List.getLast?_append, List.getLast?_eq_some_getLast h.matched.ne_nil] at hc
    cases hc
    exact List.getLast_mem h.matched.ne_nil
  have hkind := (Terminal.accepts_iff h.mem c).mp (h.matched.accepts c hmem)
  rw [hckind] at hkind
  have hrepeats : t.repeats = true := by
    rw [Terminal.repeats_eq h.mem, ← hkind]
    exact hrun
  exact hkind ▸ h.next hrepeats hd

/-- A longest piece with a kind is a token of the text. -/
theorem isLexeme_longest {t : Terminal}
    (h : Terminal.IsLongest terminals t piece (piece ++ rest)) (hkind : t.kind? = some kind)
    (hborder : IsBorder before (piece ++ rest)) :
    IsLexeme (before ++ (piece ++ rest)) ⟨kind, before.length, piece⟩ := by
  have hpiece : ∀ c ∈ piece, TokenKind.ofChar? c = some kind := fun c hc =>
    hkind ▸ (Terminal.accepts_iff h.mem c).mp (h.matched.accepts c hc)
  have hrepeats : t.repeats = kind.isRun := by rw [Terminal.repeats_eq h.mem, hkind]; rfl
  constructor
  case uniform =>
    exact ⟨hpiece, fun hf => List.length_eq_one_iff.mp (h.matched.single (hrepeats.trans hf))⟩
  case ne_nil => exact h.matched.ne_nil
  case slice =>
    rw [List.drop_left]
    exact List.prefix_append piece rest
  case left =>
    intro hrun k c hk hc hckind
    replace hk : k + 1 = before.length := hk
    rw [List.getElem?_append_left (by omega)] at hc
    have hlast : c ∈ before.getLast? := by
      rwa [List.getLast?_eq_getElem?, ← hk, Nat.add_sub_cancel]
    obtain ⟨d, ds, rfl⟩ := List.exists_cons_of_ne_nil h.matched.ne_nil
    exact hborder c hlast d rfl kind hrun hckind (hpiece d List.mem_cons_self)
  case right =>
    intro hrun c hc
    rw [List.getElem?_append_right (Nat.le_add_right _ _), Nat.add_sub_cancel_left,
      List.getElem?_append_right (Nat.le_refl _), Nat.sub_self, ← List.head?_eq_getElem?] at hc
    exact hkind ▸ h.next (hrepeats.trans hrun) hc

/-- The token of a longest piece is the only one inside it, and none is inside commentary. -/
theorem mem_token?_iff {u : Terminal}
    (h : Terminal.IsLongest terminals u piece (piece ++ rest))
    (hborder : IsBorder before (piece ++ rest)) (t : Token) :
    u.token? before.length piece = some t ↔
      (before.length ≤ t.offset ∧ t.offset < before.length + piece.length) ∧
        IsLexeme (before ++ (piece ++ rest)) t := by
  have hpos := List.length_pos_iff.mpr h.matched.ne_nil
  rw [Terminal.token?]
  cases hkind : u.kind? with
  | none =>
      refine iff_of_false (fun hnone => by cases hnone) ?_
      rintro ⟨⟨hlow, hhigh⟩, ht⟩
      have htpos := ht.length_pos
      obtain ⟨c, hc, hckind⟩ := ht.ofChar?_of_lt (Nat.le_refl t.offset) (by omega)
      rw [List.getElem?_append_right hlow, List.getElem?_append_left (by omega)] at hc
      have hcommentary := (Terminal.accepts_iff h.mem c).mp
        (h.matched.accepts c (List.mem_of_getElem? hc))
      rw [hkind, hckind] at hcommentary
      cases hcommentary
  | some kind =>
      have hlexeme := isLexeme_longest h hkind hborder
      rw [Option.map_some, Option.some.injEq]
      constructor
      · rintro rfl
        exact ⟨⟨Nat.le_refl _, Nat.lt_add_of_pos_right hpos⟩, hlexeme⟩
      · rintro ⟨⟨hlow, hhigh⟩, ht⟩
        exact (hlexeme.eq_of_overlap ht hlow hhigh).symm

/-- The tokens of a text behind a border are those that begin there. -/
theorem mem_scanFrom_iff (hborder : IsBorder before text) (t : Token) :
    t ∈ scanFrom before.length text ↔ before.length ≤ t.offset ∧ IsLexeme (before ++ text) t := by
  induction hlength : text.length using Nat.strong_induction_on generalizing before text with
  | _ length ih =>
      rcases eq_or_ne text [] with rfl | hne
      · rw [List.append_nil, scanFrom]
        refine iff_of_false List.not_mem_nil ?_
        rintro ⟨hlow, ht⟩
        have hslice := ht.slice
        rw [List.drop_of_length_le hlow, List.prefix_nil] at hslice
        exact absurd hslice ht.ne_nil
      · obtain ⟨u, piece, rest, rfl, longest⟩ := Terminal.exists_longest hne
        have hshorter : rest.length < length := by
          rw [← hlength, List.length_append]
          exact Nat.lt_add_of_pos_left (List.length_pos_iff.mpr longest.matched.ne_nil)
        have hnext : IsBorder (before ++ piece) rest := isBorder_longest longest
        have hrest := ih _ hshorter hnext rfl
        rw [List.length_append, List.append_assoc] at hrest
        rw [scanFrom_longest longest, List.mem_append, Option.mem_toList, hrest,
          mem_token?_iff longest hborder]
        constructor
        · rintro (⟨⟨hlow, -⟩, ht⟩ | ⟨hlow, ht⟩)
          · exact ⟨hlow, ht⟩
          · exact ⟨by omega, ht⟩
        · rintro ⟨hlow, ht⟩
          rcases Nat.lt_or_ge t.offset (before.length + piece.length) with hhigh | hhigh
          · exact .inl ⟨⟨hlow, hhigh⟩, ht⟩
          · exact .inr ⟨hhigh, ht⟩

theorem pairwise_attach {ts : List Token} (h : ts.Pairwise fun t u => t.offset < u.offset)
    (hn : ∀ t ∈ ts, n < t.offset) :
    (attach kind n c ts).Pairwise fun t u => t.offset < u.offset := by
  cases ts with
  | nil => exact List.pairwise_singleton _ _
  | cons u us =>
      rw [attach]
      split
      · exact List.pairwise_cons.mpr ⟨fun t ht => hn t (List.mem_cons_of_mem u ht), h.of_cons⟩
      · exact List.pairwise_cons.mpr ⟨hn, h⟩

theorem pairwise_scanFrom (n : Nat) (text : List Char) :
    (scanFrom n text).Pairwise fun t u => t.offset < u.offset := by
  induction text generalizing n with
  | nil => exact List.Pairwise.nil
  | cons c cs ih =>
      cases hc : TokenKind.ofChar? c with
      | none =>
          rw [scanFrom_cons_none hc]
          exact ih (n + 1)
      | some kind =>
          rw [scanFrom_cons_some hc]
          exact pairwise_attach (ih (n + 1)) fun t ht => (offset_of_mem_scanFrom _ cs t ht).1

theorem isSome_ofChar?_iff (c : Char) :
    (TokenKind.ofChar? c).isSome = true ↔ c ∈ instructionChars := by
  unfold TokenKind.ofChar?
  split <;> simp_all [instructionChars]

theorem mem_scan_iff (text : List Char) (t : Token) : t ∈ scan text ↔ IsLexeme text t := by
  have hborder : IsBorder [] text := fun c hc => by cases hc
  have hmem := mem_scanFrom_iff hborder t
  rw [List.length_nil, List.nil_append] at hmem
  rw [scan, hmem]
  exact and_iff_right (Nat.zero_le _)

theorem splits_scan (text : List Char) : Splits text (scan text) := by
  have hlexeme : ∀ t ∈ scan text, IsLexeme text t := fun t => (mem_scan_iff text t).mp
  have hincreasing := pairwise_scanFrom 0 text
  constructor
  case mem_iff => exact mem_scan_iff text
  case increasing => exact hincreasing
  case slice => exact fun t ht => List.prefix_iff_eq_take.mp (hlexeme t ht).slice
  case disjoint =>
    refine hincreasing.imp_of_mem fun {t u} ht hu hlt => ?_
    by_contra hoverlap
    have heq := (hlexeme t ht).eq_of_overlap (hlexeme u hu) (Nat.le_of_lt hlt) (by omega)
    rw [heq] at hlt
    exact Nat.lt_irrefl _ hlt
  case separate =>
    refine hincreasing.imp_of_mem fun {t u} ht hu _ hrun hkind htouch => ?_
    have hpos := (hlexeme u hu).length_pos
    obtain ⟨c, hc, hckind⟩ := (hlexeme u hu).ofChar?_of_lt (Nat.le_refl u.offset) (by omega)
    rw [← htouch] at hc
    exact (hlexeme t ht).right hrun c hc (hkind ▸ hckind)
  case cover =>
    rw [scan, flatMap_text_scanFrom]
    refine List.filter_congr fun c _ => ?_
    rw [Bool.eq_iff_iff, ← isSome_ofChar?, isSome_ofChar?_iff, decide_eq_true_iff]

end Token

/-- For text and bytes alike, a longest-match tokenizer of the grammar never fails and makes the
tokens of the scanner: the maximal runs and the single characters that the text falls into. -/
theorem scan_splits (source : Content) :
    (∀ tokens, Terminal.Tokenizes terminals 0 source.units tokens ↔
      tokens = some (Token.scan source.units)) ∧
    Token.Splits source.units (Token.scan source.units) :=
  ⟨fun _ => Token.tokenizes_iff, Token.splits_scan source.units⟩

end TapeMachine
