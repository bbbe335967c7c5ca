import TapeMachine.Block

/-!
# Blocks with corresponding leaves

The flat form of a block determines the block. Two blocks of the same shape whose leaves take
related states to related states have related results after the same number of steps, so one may
stand for the other as long as the tests agree.
-/

namespace TapeMachine

namespace Block

variable {α β γ σ τ ε δ : Type}

/-! ## Flat forms -/

/-- The flat form determines the block, also when it stops at a closing marker or at the end. -/
theorem flatten_append_inj {leaf : α → β} {start stop : β} (hleaf : Function.Injective leaf)
    (hstart : ∀ a, leaf a ≠ start) (hstop : ∀ a, leaf a ≠ stop) (hne : start ≠ stop)
    {b c : Block α} {x y : List β} (hx : ∀ i ∈ x.head?, i = stop) (hy : ∀ i ∈ y.head?, i = stop)
    (h : b.flatten leaf start stop ++ x = c.flatten leaf start stop ++ y) : b = c ∧ x = y := by
  induction b generalizing c x y with
  | done =>
      cases c with
      | done => exact ⟨rfl, h⟩
      | leaf a rest =>
          simp only [flatten, List.nil_append, List.cons_append] at h
          exact (hstop a (hx _ (by simp [h]))).elim
      | loop body rest =>
          simp only [flatten, List.nil_append, List.cons_append] at h
          exact (hne (hx _ (by simp [h]))).elim
  | leaf a rest ih =>
      cases c with
      | done =>
          simp only [flatten, List.nil_append, List.cons_append] at h
          exact (hstop a (hy _ (by simp [← h]))).elim
      | leaf a' rest' =>
          simp only [flatten, List.cons_append, List.cons.injEq] at h
          obtain ⟨rfl, hxy⟩ := ih hx hy h.2
          exact ⟨by rw [hleaf h.1], hxy⟩
      | loop body' rest' =>
          simp only [flatten, List.cons_append, List.cons.injEq] at h
          exact (hstart a h.1).elim
  | loop body rest ihb ihr =>
      cases c with
      | done =>
          simp only [flatten, List.nil_append, List.cons_append] at h
          exact (hne (hy _ (by simp [← h]))).elim
      | leaf a' rest' =>
          simp only [flatten, List.cons_append, List.cons.injEq] at h
          exact (hstart a' h.1.symm).elim
      | loop body' rest' =>
          simp only [flatten, List.cons_append, List.append_assoc, List.cons.injEq,
            true_and] at h
          obtain ⟨rfl, hrest⟩ := ihb (by simp) (by simp) h
          obtain ⟨rfl, hxy⟩ := ihr hx hy (List.cons.inj hrest).2
          exact ⟨rfl, hxy⟩

theorem flatten_inj {leaf : α → β} {start stop : β} (hleaf : Function.Injective leaf)
    (hstart : ∀ a, leaf a ≠ start) (hstop : ∀ a, leaf a ≠ stop) (hne : start ≠ stop)
    {b c : Block α} (h : b.flatten leaf start stop = c.flatten leaf start stop) : b = c := by
  have happend : b.flatten leaf start stop ++ [] = c.flatten leaf start stop ++ [] := by
    simpa using h
  exact (flatten_append_inj hleaf hstart hstop hne (by simp) (by simp) happend).1

theorem flatten_map (f : α → β) (leaf : β → γ) (start stop : γ) (b : Block α) :
    (b.map f).flatten leaf start stop = b.flatten (leaf ∘ f) start stop := by
  induction b with
  | done => rfl
  | leaf a rest ih => simp [map, flatten, ih]
  | loop body rest ihb ihr => simp [map, flatten, ihb, ihr]

theorem map_flatten (f : β → γ) (leaf : α → β) (start stop : β) (b : Block α) :
    (b.flatten leaf start stop).map f = b.flatten (f ∘ leaf) (f start) (f stop) := by
  induction b with
  | done => rfl
  | leaf a rest ih => simp [flatten, ih]
  | loop body rest ihb ihr => simp [flatten, ihb, ihr]

/-! ## Corresponding blocks -/

/-- Two blocks of the same shape with related leaves. -/
inductive Corresponds (L : α → β → Prop) : Block α → Block β → Prop where
  | done : Corresponds L .done .done
  | leaf {a : α} {b : β} {rest : Block α} {rest' : Block β} (same : L a b)
      (next : Corresponds L rest rest') : Corresponds L (.leaf a rest) (.leaf b rest')
  | loop {body rest : Block α} {body' rest' : Block β} (inner : Corresponds L body body')
      (next : Corresponds L rest rest') : Corresponds L (.loop body rest) (.loop body' rest')

theorem Corresponds.flip {L : α → β → Prop} {b : Block α} {c : Block β}
    (h : Corresponds L b c) : Corresponds (fun y x => L x y) c b := by
  induction h with
  | done => exact .done
  | leaf same _ ih => exact .leaf same ih
  | loop _ _ ihb ihr => exact .loop ihb ihr

theorem corresponds_indexed (n : Nat) (b : Block α) :
    Corresponds (fun p a => p.2 = a) (b.indexed n) b := by
  induction b generalizing n with
  | done => exact .done
  | leaf a rest ih => exact .leaf rfl (ih (n + 1))
  | loop body rest ihb ihr => exact .loop (ihb (n + 1)) (ihr (n + body.length + 2))

theorem corresponds_map {L : α → β → Prop} {leaf : α → γ} {start stop : γ} (f : α → β)
    (b : Block α) (h : ∀ a, leaf a ∈ b.flatten leaf start stop → L a (f a)) :
    Corresponds L b (b.map f) := by
  induction b with
  | done => exact .done
  | leaf a rest ih =>
      refine .leaf (h a (by simp [flatten])) (ih fun x hx => h x ?_)
      simp [flatten, hx]
  | loop body rest ihb ihr =>
      refine .loop (ihb fun x hx => h x ?_) (ihr fun x hx => h x ?_)
      · simp [flatten, hx]
      · simp [flatten, hx]

/-- Both succeed with related values, or both fail with related errors. -/
inductive Agree (R : σ → τ → Prop) (E : ε → δ → Prop) : Except ε σ → Except δ τ → Prop where
  | ok {s : σ} {t : τ} (h : R s t) : Agree R E (.ok s) (.ok t)
  | error {e : ε} {d : δ} (h : E e d) : Agree R E (.error e) (.error d)

theorem Agree.flip {R : σ → τ → Prop} {E : ε → δ → Prop} {x : Except ε σ} {y : Except δ τ}
    (h : Agree R E x y) : Agree (fun t s => R s t) (fun d e => E e d) y x := by
  cases h with
  | ok h => exact .ok h
  | error h => exact .error h

/-- The errors agree the other way round too, and values that are equal stay so. -/
theorem Agree.flip_eq {E : ε → δ → Prop} {x : Except ε σ} {y : Except δ σ}
    (h : Agree Eq E x y) : Agree Eq (fun d e => E e d) y x := by
  cases h with
  | ok h => exact .ok h.symm
  | error h => exact .error h

/-- Corresponding blocks run in lockstep. -/
theorem Corresponds.lockstep {L : α → β → Prop} {R : σ → τ → Prop} {E : ε → δ → Prop}
    {step : α → σ → Except ε σ} {test : σ → Except ε Bool}
    {step' : β → τ → Except δ τ} {test' : τ → Except δ Bool}
    {b : Block α} {c : Block β} {s : σ} {t : τ} {n : Nat} {r : Except ε σ}
    (hbc : Corresponds L b c) (hst : R s t) (h : Eval step test b s n r)
    (hstep : ∀ a a' s t, L a a' → R s t → Agree R E (step a s) (step' a' t))
    (htest : ∀ s t, R s t → Agree Eq E (test s) (test' t)) :
    ∃ r', Eval step' test' c t n r' ∧ Agree R E r r' := by
  induction h generalizing c t with
  | done s =>
      cases hbc
      exact ⟨_, .done t, .ok hst⟩
  | @leaf a rest s u n r first next ih =>
      cases hbc with
      | @leaf _ a' _ rest' same more =>
          have hfirst := hstep _ _ _ _ same hst
          rw [first] at hfirst
          generalize hx : step' a' t = x at hfirst
          cases hfirst with
          | ok hu =>
              obtain ⟨r', hr', hagree⟩ := ih more hu
              exact ⟨r', .leaf hx hr', hagree⟩
  | @fail a rest s e first =>
      cases hbc with
      | @leaf _ a' _ rest' same more =>
          have hfirst := hstep _ _ _ _ same hst
          rw [first] at hfirst
          generalize hx : step' a' t = x at hfirst
          cases hfirst with
          | error he => exact ⟨_, .fail hx, .error he⟩
  | @leave body rest s n r closed next ih =>
      cases hbc with
      | loop inner more =>
          have htested := htest _ _ hst
          rw [closed] at htested
          generalize hx : test' t = x at htested
          cases htested with
          | ok hb =>
              obtain ⟨r', hr', hagree⟩ := ih more hst
              exact ⟨r', .leave (by rw [hx, hb]) hr', hagree⟩
  | @enter body rest s u n k r opened once again ihOnce ihAgain =>
      cases hbc with
      | loop inner more =>
          have htested := htest _ _ hst
          rw [opened] at htested
          generalize hx : test' t = x at htested
          cases htested with
          | ok hb =>
              obtain ⟨_, hu', hagree⟩ := ihOnce inner hst
              cases hagree with
              | ok hu =>
                  obtain ⟨r', hr', hagree⟩ := ihAgain (.loop inner more) hu
                  exact ⟨r', .enter (by rw [hx, hb]) hu' hr', hagree⟩
  | @broken body rest s k e opened once ih =>
      cases hbc with
      | loop inner more =>
          have htested := htest _ _ hst
          rw [opened] at htested
          generalize hx : test' t = x at htested
          cases htested with
          | ok hb =>
              obtain ⟨_, he', hagree⟩ := ih inner hst
              cases hagree with
              | error he => exact ⟨_, .broken (by rw [hx, hb]) he', .error he⟩
  | @refused body rest s e failed =>
      cases hbc with
      | loop inner more =>
          have htested := htest _ _ hst
          rw [failed] at htested
          generalize hx : test' t = x at htested
          cases htested with
          | error he => exact ⟨_, .refused hx, .error he⟩

/-- Corresponding blocks also run in lockstep when the second leads. -/
theorem Corresponds.lockstep_of_second {L : α → β → Prop} {R : σ → τ → Prop} {E : ε → δ → Prop}
    {step : α → σ → Except ε σ} {test : σ → Except ε Bool}
    {step' : β → τ → Except δ τ} {test' : τ → Except δ Bool}
    {b : Block α} {c : Block β} {s : σ} {t : τ} {n : Nat} {r' : Except δ τ}
    (hbc : Corresponds L b c) (hst : R s t) (h : Eval step' test' c t n r')
    (hstep : ∀ a a' s t, L a a' → R s t → Agree R E (step a s) (step' a' t))
    (htest : ∀ s t, R s t → Agree Eq E (test s) (test' t)) :
    ∃ r, Eval step test b s n r ∧ Agree R E r r' := by
  have hlockstep : ∃ r, Eval step test b s n r ∧
      Agree (fun t s => R s t) (fun d e => E e d) r' r := by
    refine hbc.flip.lockstep hst h ?_ ?_
    · exact fun a' a t s hL hR => (hstep a a' s t hL hR).flip
    · exact fun t s hR => (htest s t hR).flip_eq
  obtain ⟨r, hr, hagree⟩ := hlockstep
  exact ⟨r, hr, hagree.flip⟩

end Block

end TapeMachine
