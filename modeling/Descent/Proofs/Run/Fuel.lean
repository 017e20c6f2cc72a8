import Descent.Proofs.Run.Plan

/-!
# More fuel

A run that ends with some fuel ends in the same way with more. Fuel bounds how deep a run goes, and nothing in a run
asks how much is left; so a run with more fuel differs from one with less only where that one ran out.

`Parse.ExtendedBy` is this relation between computations. It goes through binds, brackets and plans, and the induction
on fuel is the rest (`Grammar.parse_extendedBy`). It is for runs of any grammar, since it is a fact about the way in
which runs are put together and not about what they do.
-/

namespace Descent

variable {κ α β : Type}

/-- `y` ends as `x` does, from every state from which `x` does not run out of fuel. -/
def Parse.ExtendedBy (x y : Parse κ α) : Prop := ∀ s, (∃ t, x s = .error .unfinished t) ∨ y s = x s

namespace Parse.ExtendedBy

variable {x y : Parse κ α}

theorem refl (x : Parse κ α) : x.ExtendedBy x := fun _ => Or.inr rfl

theorem bind {f h : α → Parse κ β} (hx : x.ExtendedBy y) (hf : ∀ a, (f a).ExtendedBy (h a)) :
    (x >>= f).ExtendedBy (y >>= h) := by
  intro s
  show (∃ t, EStateM.bind x f s = .error .unfinished t) ∨ EStateM.bind y h s = EStateM.bind x f s
  unfold EStateM.bind
  rcases hx s with ⟨t, ht⟩ | heq
  · exact Or.inl ⟨t, by rw [ht]⟩
  · rw [heq]
    cases x s with
    | ok a t => exact hf a t
    | error e t => exact Or.inr rfl

theorem bracketed {enter : Context κ → Context κ} {leave : Context κ → Context κ → Context κ}
    (hx : x.ExtendedBy y) : (Parse.bracketed enter leave x).ExtendedBy (Parse.bracketed enter leave y) := by
  intro s
  unfold Parse.bracketed
  rcases hx { s with context := enter s.context } with ⟨t, ht⟩ | heq
  · exact Or.inl ⟨{ t with context := leave s.context t.context }, by rw [ht]⟩
  · rw [heq]
    exact Or.inr rfl

/-- A result is the result with more fuel too. -/
theorem ok {a : α} {s t : ParseState κ} (hx : x.ExtendedBy y) (h : x s = .ok a t) : y s = .ok a t := by
  rcases hx s with ⟨t', ht'⟩ | heq
  · cases ht'.symm.trans h
  · exact heq.trans h

end Parse.ExtendedBy

section Run

variable [DecidableEq κ] {g : Grammar κ}

theorem Plan.exec_extendedBy {run run' : Runner κ} (h : ∀ id v, (run id v).ExtendedBy (run' id v)) (p : Plan κ α) :
    (p.exec g run).ExtendedBy (p.exec g run') := by
  induction p with
  | done a => exact .refl _
  | stop why => exact .refl _
  | policy next ih => exact .bind (.refl _) fun c => ih c.whitespace
  | expect id next ih => exact .bind (.refl _) ih
  | call scope id v next ih =>
    unfold Plan.exec
    rw [Scope.around_eq, Scope.around_eq]
    exact .bind (.bracketed (h id v)) ih

variable [CustomMatcher κ]

theorem Grammar.parse_extendedBy_succ (g : Grammar κ) (fuel : Nat) (id : RuleId) (v : View) :
    (g.parse fuel id v).ExtendedBy (g.parse (fuel + 1) id v) := by
  induction fuel generalizing id v with
  | zero => exact fun s => Or.inl ⟨s, rfl⟩
  | succ fuel ih =>
    rw [Grammar.parse, Grammar.parse, Grammar.step_eq, Grammar.step_eq]
    exact .bind (Plan.exec_extendedBy ih _) fun r => .refl _

/-- **A run with more fuel ends as one with less**, unless that one ran out. -/
theorem Grammar.parse_extendedBy (g : Grammar κ) {fuel fuel' : Nat} (h : fuel ≤ fuel') (id : RuleId) (v : View) :
    (g.parse fuel id v).ExtendedBy (g.parse fuel' id v) := by
  induction h with
  | refl => exact .refl _
  | step _ ih =>
    intro s
    rcases ih s with hstop | heq
    · exact Or.inl hstop
    · rcases g.parse_extendedBy_succ _ id v s with ⟨t, ht⟩ | heq'
      · exact Or.inl ⟨t, heq.symm.trans ht⟩
      · exact Or.inr (heq'.trans heq)

end Run

end Descent
