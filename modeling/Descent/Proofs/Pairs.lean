import Descent.Proofs.Ensures
import Descent.Proofs.Run.Plan

/-!
# Two computations at once

That something does not matter to a run is a statement about two runs: one with it and one without, or from one state
and from another. They have to end alike, and what they end in has to be related. `EnsuresBoth` is that form for
computations with a state, and `Except.Both` for those without. As with single computations, the lemmas say how it
distributes over the ways of putting computations together, so a proof walks two `do` blocks of one shape in step.

Ending in errors, the two end in one and the same; only the states that they leave may differ.
-/

namespace Descent

variable {ε σ τ α β γ δ : Type}

/-- Results that are related, or the same error. -/
def Except.Both (R : α → β → Prop) : Except ε α → Except ε β → Prop
  | .ok a, .ok b => R a b
  | .error e, .error e' => e = e'
  | _, _ => False

theorem Except.Both.bind {R : α → β → Prop} {S : γ → δ → Prop} {x : Except ε α} {y : Except ε β}
    {f : α → Except ε γ} {h : β → Except ε δ} (hxy : Except.Both R x y) (hfh : ∀ a b, R a b → Except.Both S (f a) (h b)) :
    Except.Both S (x >>= f) (y >>= h) := by
  cases x with
  | ok a =>
    cases y with
    | ok b => exact hfh a b hxy
    | error e => exact hxy.elim
  | error e =>
    cases y with
    | ok b => exact hxy.elim
    | error e' => exact hxy

/-- From `s` and `t`, the computations end in results that satisfy `Q`, or in the same error and states that satisfy
`E`. -/
def EnsuresBoth (x : EStateM ε σ α) (s : σ) (y : EStateM ε τ β) (t : τ) (Q : α → σ → β → τ → Prop)
    (E : σ → τ → Prop) : Prop :=
  match x s, y t with
  | .ok a s', .ok b t' => Q a s' b t'
  | .error e s', .error e' t' => e = e' ∧ E s' t'
  | _, _ => False

namespace EnsuresBoth

variable {x : EStateM ε σ α} {y : EStateM ε τ β} {s : σ} {t : τ} {Q Q' : α → σ → β → τ → Prop} {E E' : σ → τ → Prop}

theorem imp (h : EnsuresBoth x s y t Q E) (hQ : ∀ a s' b t', Q a s' b t' → Q' a s' b t')
    (hE : ∀ s' t', E s' t' → E' s' t') : EnsuresBoth x s y t Q' E' := by
  unfold EnsuresBoth at h ⊢
  cases hx : x s <;> cases hy : y t <;> simp only [hx, hy] at h ⊢
  · exact hQ _ _ _ _ h
  · exact ⟨h.1, hE _ _ h.2⟩

theorem bind {f : α → EStateM ε σ γ} {h : β → EStateM ε τ δ} {R : γ → σ → δ → τ → Prop}
    (hxy : EnsuresBoth x s y t Q E) (hfh : ∀ a s' b t', Q a s' b t' → EnsuresBoth (f a) s' (h b) t' R E) :
    EnsuresBoth (x >>= f) s (y >>= h) t R E := by
  show match EStateM.bind x f s, EStateM.bind y h t with
    | .ok a s', .ok b t' => R a s' b t'
    | .error e s', .error e' t' => e = e' ∧ E s' t'
    | _, _ => False
  unfold EStateM.bind
  unfold EnsuresBoth at hxy
  cases hx : x s <;> cases hy : y t <;> simp only [hx, hy] at hxy ⊢
  · exact hfh _ _ _ _ hxy
  · exact hxy

theorem symm (h : EnsuresBoth x s y t Q E) :
    EnsuresBoth y t x s (fun b t' a s' => Q a s' b t') fun t' s' => E s' t' := by
  unfold EnsuresBoth at h ⊢
  cases hx : x s <;> cases hy : y t <;> simp only [hx, hy] at h ⊢
  · exact h
  · exact ⟨h.1.symm, h.2⟩

/-- A third computation that goes like the second. -/
theorem trans {υ : Type} {z : EStateM ε υ γ} {u : υ} {R : β → τ → γ → υ → Prop} {F : τ → υ → Prop}
    (hxy : EnsuresBoth x s y t Q E) (hyz : EnsuresBoth y t z u R F) :
    EnsuresBoth x s z u (fun a s' c u' => ∃ b t', Q a s' b t' ∧ R b t' c u') fun s' u' => ∃ t', E s' t' ∧ F t' u' := by
  unfold EnsuresBoth at hxy hyz ⊢
  cases hx : x s <;> cases hy : y t <;> cases hz : z u <;> simp only [hx, hy, hz] at hxy hyz ⊢
  · exact ⟨_, _, hxy, hyz⟩
  · exact ⟨hxy.1.trans hyz.1, _, hxy.2, hyz.2⟩

/-- What is ensured of the one, besides. -/
theorem and_left {A : α → σ → Prop} {B : ε → σ → Prop} (h : EnsuresBoth x s y t Q E) (hx : Ensures x s A B) :
    EnsuresBoth x s y t (fun a s' b t' => Q a s' b t' ∧ A a s') E := by
  unfold EnsuresBoth at h ⊢
  unfold Ensures at hx
  cases hxs : x s <;> cases hyt : y t <;> simp only [hxs, hyt] at h hx ⊢
  · exact ⟨h, hx⟩
  · exact h

/-- Two rows of steps. -/
theorem mapM {f : α → EStateM ε σ β} {h : α → EStateM ε τ β} {l : List α} {I : σ → τ → Prop}
    (hstep : ∀ a ∈ l, ∀ s t, I s t → EnsuresBoth (f a) s (h a) t (fun b s' b' t' => b = b' ∧ I s' t') E) (hst : I s t) :
    EnsuresBoth (l.mapM f) s (l.mapM h) t (fun bs s' bs' t' => bs = bs' ∧ I s' t') E := by
  induction l generalizing s t with
  | nil => exact ⟨rfl, hst⟩
  | cons a l ih =>
    rw [List.mapM_cons, List.mapM_cons]
    refine (hstep a List.mem_cons_self s t hst).bind ?_
    rintro b s' _ t' ⟨rfl, hst'⟩
    refine (ih (fun a ha => hstep a (List.mem_cons_of_mem _ ha)) hst').bind ?_
    rintro bs s'' _ t'' ⟨rfl, hst''⟩
    exact ⟨rfl, hst''⟩

/-- What the one ends in, the other one ends in. -/
theorem ok (h : EnsuresBoth x s y t Q E) {a : α} {s' : σ} (hx : x s = .ok a s') : ∃ b t', y t = .ok b t' ∧ Q a s' b t' := by
  unfold EnsuresBoth at h
  rw [hx] at h
  cases hy : y t <;> simp only [hy] at h
  exact ⟨_, _, rfl, h⟩

theorem error (h : EnsuresBoth x s y t Q E) {e : ε} {s' : σ} (hx : x s = .error e s') :
    ∃ t', y t = .error e t' ∧ E s' t' := by
  unfold EnsuresBoth at h
  rw [hx] at h
  cases hy : y t <;> simp only [hy] at h
  obtain ⟨rfl, h⟩ := h
  exact ⟨_, rfl, h⟩

end EnsuresBoth

/-- The same, unless one of the two ends in an error of `D`. What they leave after an error is not looked at. -/
def EnsuresBothUnless (D : ε → Prop) (x : EStateM ε σ α) (s : σ) (y : EStateM ε τ β) (t : τ)
    (Q : α → σ → β → τ → Prop) : Prop :=
  (∃ e s', x s = .error e s' ∧ D e) ∨ (∃ e t', y t = .error e t' ∧ D e) ∨ EnsuresBoth x s y t Q fun _ _ => True

namespace EnsuresBothUnless

variable {D : ε → Prop} {x : EStateM ε σ α} {y : EStateM ε τ β} {s : σ} {t : τ} {Q Q' : α → σ → β → τ → Prop}

theorem imp (h : EnsuresBothUnless D x s y t Q) (hQ : ∀ a s' b t', Q a s' b t' → Q' a s' b t') :
    EnsuresBothUnless D x s y t Q' :=
  h.imp_right (Or.imp_right fun h => h.imp hQ fun _ _ h => h)

theorem imp_error {D' : ε → Prop} (h : EnsuresBothUnless D x s y t Q) (hD : ∀ e, D e → D' e) :
    EnsuresBothUnless D' x s y t Q := by
  rcases h with ⟨e, s', hx, he⟩ | ⟨e, t', hy, he⟩ | h
  · exact Or.inl ⟨e, s', hx, hD e he⟩
  · exact Or.inr (Or.inl ⟨e, t', hy, hD e he⟩)
  · exact Or.inr (Or.inr h)

theorem bind {f : α → EStateM ε σ γ} {h : β → EStateM ε τ δ} {R : γ → σ → δ → τ → Prop}
    (hxy : EnsuresBothUnless D x s y t Q)
    (hfh : ∀ a s' b t', Q a s' b t' → EnsuresBothUnless D (f a) s' (h b) t' R) :
    EnsuresBothUnless D (x >>= f) s (y >>= h) t R := by
  rcases hxy with ⟨e, s', hx, he⟩ | ⟨e, t', hy, he⟩ | hxy
  · exact Or.inl ⟨e, s', bind_apply_of_error hx, he⟩
  · exact Or.inr (Or.inl ⟨e, t', bind_apply_of_error hy, he⟩)
  · cases hx : x s with
    | error e s' =>
      obtain ⟨t', hy, -⟩ := hxy.error hx
      refine Or.inr (Or.inr ?_)
      unfold EnsuresBoth
      rw [bind_apply_of_error hx, bind_apply_of_error hy]
      exact ⟨rfl, trivial⟩
    | ok a s' =>
      obtain ⟨b, t', hy, hQ⟩ := hxy.ok hx
      have rest := hfh a s' b t' hQ
      unfold EnsuresBothUnless EnsuresBoth at rest ⊢
      rwa [bind_apply_of_ok hx, bind_apply_of_ok hy]

/-- Two computations that go wrong in no other way. -/
theorem of_ensures {A : α → σ → Prop} {B : β → τ → Prop} (hx : Ensures x s A fun e _ => D e)
    (hy : Ensures y t B fun e _ => D e) (hQ : ∀ a s' b t', A a s' → B b t' → Q a s' b t') :
    EnsuresBothUnless D x s y t Q := by
  cases hxs : x s with
  | error e s' => exact Or.inl ⟨e, s', hxs, hx.error hxs⟩
  | ok a s' =>
    cases hyt : y t with
    | error e t' => exact Or.inr (Or.inl ⟨e, t', hyt, hy.error hyt⟩)
    | ok b t' =>
      refine Or.inr (Or.inr ?_)
      unfold EnsuresBoth
      rw [hxs, hyt]
      exact hQ a s' b t' (hx.ok hxs) (hy.ok hyt)

/-- A third computation that goes like the first of the two. -/
theorem after {υ : Type} {z : EStateM ε υ γ} {u : υ} {R : γ → υ → α → σ → Prop} {E : υ → σ → Prop}
    (hzx : EnsuresBoth z u x s R E) (hxy : EnsuresBothUnless D x s y t Q) :
    EnsuresBothUnless D z u y t fun c u' b t' => ∃ a s', R c u' a s' ∧ Q a s' b t' := by
  rcases hxy with ⟨e, s', hx, he⟩ | hy | hxy
  · cases hz : z u with
    | ok c u' =>
      obtain ⟨a, s'', hx', -⟩ := hzx.ok hz
      cases hx.symm.trans hx'
    | error e' u' =>
      obtain ⟨s'', hx', -⟩ := hzx.error hz
      cases hx.symm.trans hx'
      exact Or.inl ⟨e, u', hz, he⟩
  · exact Or.inr (Or.inl hy)
  · refine Or.inr (Or.inr ?_)
    unfold EnsuresBoth
    cases hz : z u with
    | ok c u' =>
      obtain ⟨a, s', hx, hR⟩ := hzx.ok hz
      obtain ⟨b, t', hy, hQ⟩ := hxy.ok hx
      rw [hy]
      exact ⟨a, s', hR, hQ⟩
    | error e u' =>
      obtain ⟨s', hx, -⟩ := hzx.error hz
      obtain ⟨t', hy, -⟩ := hxy.error hx
      rw [hy]
      exact ⟨rfl, trivial⟩

end EnsuresBothUnless

/-! ## Runs -/

section Run

variable {κ : Type} {s t : ParseState κ} {Q : α → ParseState κ → β → ParseState κ → Prop}
  {E : ParseState κ → ParseState κ → Prop}

theorem EnsuresBoth.bracketed {enter : Context κ → Context κ} {leave : Context κ → Context κ → Context κ}
    {x : Parse κ α} {y : Parse κ β}
    (h : EnsuresBoth x { s with context := enter s.context } y { t with context := enter t.context }
      (fun a s' b t' => Q a { s' with context := leave s.context s'.context } b
        { t' with context := leave t.context t'.context })
      fun s' t' => E { s' with context := leave s.context s'.context } { t' with context := leave t.context t'.context }) :
    EnsuresBoth (Parse.bracketed enter leave x) s (Parse.bracketed enter leave y) t Q E := by
  unfold EnsuresBoth at h
  unfold EnsuresBoth Parse.bracketed
  cases hx : x { s with context := enter s.context } <;>
    cases hy : y { t with context := enter t.context } <;> simp only [hx, hy] at h ⊢ <;> exact h

/-- Results that are related without a state, or the same fault. -/
theorem EnsuresBoth.ofExcept {R : α → β → Prop} {x : Except Fault α} {y : Except Fault β} (h : Except.Both R x y)
    (hQ : ∀ a b, R a b → Q a s b t) (hE : E s t) : EnsuresBoth (Parse.ofExcept x) s (Parse.ofExcept y) t Q E := by
  cases x with
  | ok a =>
    cases y with
    | ok b => exact hQ a b h
    | error e => exact h.elim
  | error e =>
    cases y with
    | ok b => exact h.elim
    | error e' => exact ⟨congrArg Stop.fault h, hE⟩

theorem EnsuresBothUnless.bracketed {D : Stop → Prop} {enter : Context κ → Context κ}
    {leave : Context κ → Context κ → Context κ} {x : Parse κ α} {y : Parse κ β}
    (h : EnsuresBothUnless D x { s with context := enter s.context } y { t with context := enter t.context }
      fun a s' b t' => Q a { s' with context := leave s.context s'.context } b
        { t' with context := leave t.context t'.context }) :
    EnsuresBothUnless D (Parse.bracketed enter leave x) s (Parse.bracketed enter leave y) t Q := by
  rcases h with ⟨e, s', hx, he⟩ | ⟨e, t', hy, he⟩ | h
  · exact Or.inl ⟨e, _, by rw [Parse.bracketed, hx], he⟩
  · exact Or.inr (Or.inl ⟨e, _, by rw [Parse.bracketed, hy], he⟩)
  · exact Or.inr (Or.inr (.bracketed h))

end Run

end Descent
