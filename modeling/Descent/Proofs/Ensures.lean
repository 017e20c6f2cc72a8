import Descent.Grammar.Basic
import Mathlib.Data.List.Forall2

/-!
# What holds however a computation ends

Building, deriving, running and requesting are all state-and-error computations whose state outlives an error, and
nearly every law about them is of one form: from such a state, a result satisfies this and an error satisfies that,
*each together with the state it leaves*. `Ensures` is that form, stated once. Its lemmas say how it distributes over
the ways of putting computations together, so a proof about a `do` block walks the block and never unfolds the monad.

Where it is decidable of every end whether it is as it should be, so is the law: it is decided by computing.

Computations that may meet an error and keep no state are read the same way, by what a bind of two of them comes to.

Both postconditions are always there. A law that forgets what an error leaves behind would be useless here: a
derivation that is cut short and a run that a transform ends are followed by further requests on the same state.
-/

namespace Descent

variable {ε σ α β : Type}

/-- From `s`, a result of `x` satisfies `Q` and an error satisfies `E`, each with the state it leaves. -/
def Ensures (x : EStateM ε σ α) (s : σ) (Q : α → σ → Prop) (E : ε → σ → Prop) : Prop :=
  match x s with
  | .ok a t => Q a t
  | .error e t => E e t

section Ensures

variable {x : EStateM ε σ α} {f : α → EStateM ε σ β} {s : σ}
  {Q Q' : α → σ → Prop} {R : β → σ → Prop} {E E' : ε → σ → Prop}

@[simp] theorem ensures_pure {a : α} : Ensures (pure a : EStateM ε σ α) s Q E ↔ Q a s := Iff.rfl

@[simp] theorem ensures_bind :
    Ensures (x >>= f) s R E ↔ Ensures x s (fun a t => Ensures (f a) t R E) E := by
  show Ensures (EStateM.bind x f) s R E ↔ _
  unfold Ensures EStateM.bind
  cases x s <;> rfl

@[simp] theorem ensures_get {Q : σ → σ → Prop} : Ensures (get : EStateM ε σ σ) s Q E ↔ Q s s := Iff.rfl

@[simp] theorem ensures_modify {Q : PUnit → σ → Prop} {m : σ → σ} :
    Ensures (modify m : EStateM ε σ PUnit) s Q E ↔ Q ⟨⟩ (m s) := Iff.rfl

theorem Ensures.imp (h : Ensures x s Q E) (hQ : ∀ a t, Q a t → Q' a t) (hE : ∀ e t, E e t → E' e t) :
    Ensures x s Q' E' := by
  unfold Ensures at h ⊢
  cases hx : x s with
  | ok a t => rw [hx] at h; exact hQ a t h
  | error e t => rw [hx] at h; exact hE e t h

theorem Ensures.imp_ok (h : Ensures x s Q E) (hQ : ∀ a t, Q a t → Q' a t) : Ensures x s Q' E :=
  h.imp hQ fun _ _ h => h

theorem Ensures.and (h : Ensures x s Q E) (h' : Ensures x s Q' E') :
    Ensures x s (fun a t => Q a t ∧ Q' a t) fun e t => E e t ∧ E' e t := by
  unfold Ensures at h h' ⊢
  cases hx : x s with
  | ok a t => rw [hx] at h h'; exact ⟨h, h'⟩
  | error e t => rw [hx] at h h'; exact ⟨h, h'⟩

theorem Ensures.ok (h : Ensures x s Q E) {a : α} {t : σ} (hx : x s = .ok a t) : Q a t := by
  unfold Ensures at h
  rw [hx] at h
  exact h

theorem Ensures.error (h : Ensures x s Q E) {e : ε} {t : σ} (hx : x s = .error e t) : E e t := by
  unfold Ensures at h
  rw [hx] at h
  exact h

/-- Without errors there is a result. -/
theorem Ensures.exists_ok (h : Ensures x s Q fun _ _ => False) : ∃ a t, x s = .ok a t ∧ Q a t := by
  unfold Ensures at h
  cases hx : x s with
  | ok a t => rw [hx] at h; exact ⟨a, t, rfl, h⟩
  | error e t => rw [hx] at h; exact h.elim

theorem Ensures.exists_error (h : Ensures x s (fun _ _ => False) E) : ∃ e t, x s = .error e t ∧ E e t := by
  unfold Ensures at h
  cases hx : x s with
  | ok a t => rw [hx] at h; exact h.elim
  | error e t => rw [hx] at h; exact ⟨e, t, rfl, h⟩

/-- What can be decided of all ends is decided by the computation. -/
instance [∀ a t, Decidable (Q a t)] [∀ e t, Decidable (E e t)] : Decidable (Ensures x s Q E) :=
  match hx : x s with
  | .ok a t => decidable_of_iff (Q a t) (by rw [Ensures, hx])
  | .error e t => decidable_of_iff (E e t) (by rw [Ensures, hx])

/-- The strongest that is ensured. -/
theorem ensures_self (x : EStateM ε σ α) (s : σ) :
    Ensures x s (fun a t => x s = .ok a t) fun e t => x s = .error e t := by
  unfold Ensures
  cases x s <;> rfl

theorem bind_apply_of_ok {a : α} {t : σ} (h : x s = .ok a t) : (x >>= f) s = f a t := by
  show EStateM.bind x f s = _
  unfold EStateM.bind
  rw [h]

theorem bind_apply_of_error {e : ε} {t : σ} (h : x s = .error e t) : (x >>= f) s = .error e t := by
  show EStateM.bind x f s = _
  unfold EStateM.bind
  rw [h]

/-! ## Lists of computations -/

/-- Steps that only take something off again. -/
theorem mapM_map_pure {f : β → EStateM ε σ α} {h : α → β} (hf : ∀ a, f (h a) = pure a) (l : List α) :
    (l.map h).mapM f = pure l := by
  induction l with
  | nil => rfl
  | cons a l ih => rw [List.map_cons, List.mapM_cons, hf, pure_bind, ih, pure_bind]

/-- What every step keeps, a row of steps keeps. -/
theorem ensures_mapM {f : α → EStateM ε σ β} {l : List α} {I : σ → Prop}
    (h : ∀ a ∈ l, ∀ s, I s → Ensures (f a) s (fun _ => I) E) (hs : I s) :
    Ensures (l.mapM f) s (fun _ => I) E := by
  induction l generalizing s with
  | nil => exact hs
  | cons a l ih =>
    rw [List.mapM_cons, ensures_bind]
    refine (h a List.mem_cons_self s hs).imp_ok fun b t ht => ?_
    rw [ensures_bind]
    exact ih (fun a ha => h a (List.mem_cons_of_mem _ ha)) ht

/-- What the steps of a row come to, one by one. What they come to may be known only where something holds of the state
in the end, if that has to have held all along. -/
theorem ensures_mapM_forall₂ {f : α → EStateM ε σ β} {l : List α} {I J : σ → Prop} {R : α → β → Prop}
    (h : ∀ a ∈ l, ∀ s, I s → Ensures (f a) s (fun b t => I t ∧ (J t → J s ∧ R a b)) E) (hs : I s) :
    Ensures (l.mapM f) s (fun bs t => I t ∧ (J t → J s ∧ List.Forall₂ R l bs)) E := by
  induction l generalizing s with
  | nil => exact ⟨hs, fun hJ => ⟨hJ, .nil⟩⟩
  | cons a l ih =>
    rw [List.mapM_cons, ensures_bind]
    refine (h a List.mem_cons_self s hs).imp_ok fun b t ⟨ht, hb⟩ => ?_
    rw [ensures_bind]
    refine (ih (fun a ha => h a (List.mem_cons_of_mem _ ha)) ht).imp_ok fun bs u ⟨hu, hbs⟩ => ⟨hu, fun hJ => ?_⟩
    obtain ⟨hJt, hbs⟩ := hbs hJ
    obtain ⟨hJs, hb⟩ := hb hJt
    exact ⟨hJs, .cons hb hbs⟩

end Ensures

section Except

variable {x : Except ε α} {f : α → Except ε β}

theorem except_bind_eq_ok {b : β} : (x >>= f) = .ok b ↔ ∃ a, x = .ok a ∧ f a = .ok b := by
  cases x with
  | ok a => simp [bind, Except.bind]
  | error e => simp [bind, Except.bind]

theorem except_bind_eq_error {e : ε} : (x >>= f) = .error e ↔ x = .error e ∨ ∃ a, x = .ok a ∧ f a = .error e := by
  cases x with
  | ok a => simp [bind, Except.bind]
  | error e => simp [bind, Except.bind]

theorem except_bind_of_ok {a : α} (h : x = .ok a) : (x >>= f) = f a := by
  rw [h]
  rfl

theorem except_bind_of_error {e : ε} (h : x = .error e) : (x >>= f) = .error e := by
  rw [h]
  rfl

theorem except_map_eq_ok {f : α → β} {b : β} : f <$> x = .ok b ↔ ∃ a, x = .ok a ∧ f a = b := by
  cases x with
  | ok a => simp [Functor.map, Except.map]
  | error e => simp [Functor.map, Except.map]

end Except

end Descent
