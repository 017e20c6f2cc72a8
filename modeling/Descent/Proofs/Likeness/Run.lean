import Descent.Proofs.Likeness.Plan

/-!
# Runs in windows that show the same text

Two runs of a rule against windows that show the same text go on in step: they call the same rules against parts in the
same place, they read the same expectations, and what each puts on record, the other puts on record in the same place
(`Grammar.parse_alike`). What they start from has to be alike too: the policy, whether failures are recorded, the
record, and the bookkeeping of derivations, which is one and the same, so that it stays one and the same.
-/

namespace Descent

variable {κ α β : Type}

namespace Likeness

/-! ## 1. States that are alike -/

/-- Contexts that differ in how much is logged, and in where their records are. -/
structure Contexts (K : Likeness) (c c' : Context κ) : Prop where
  whitespace : c.whitespace = c'.whitespace
  suspended : c.suspended = c'.suspended
  furthest : Option.Rel K.Failures c.furthest c'.furthest

structure States (K : Likeness) (s s' : ParseState κ) : Prop where
  derivation : s.derivation = s'.derivation
  context : K.Contexts s.context s'.context

variable {K : Likeness} {C : View → Prop} {c c' : Context κ} {s s' : ParseState κ}

theorem Contexts.enter (h : K.Contexts c c') (scope : Scope) : K.Contexts (scope.enter c) (scope.enter c') := by
  cases scope with
  | plain => exact h
  | under policy => exact ⟨rfl, h.suspended, h.furthest⟩
  | quiet => exact ⟨h.whitespace, congrArg (· + 1) h.suspended, h.furthest⟩

theorem Contexts.leave {d d' : Context κ} (h : K.Contexts c c') (h' : K.Contexts d d') (scope : Scope) :
    K.Contexts (scope.leave c d) (scope.leave c' d') := by
  cases scope with
  | plain => exact h'
  | under policy => exact ⟨h.whitespace, h'.suspended, h'.furthest⟩
  | quiet => exact ⟨h'.whitespace, congrArg (· - 1) h'.suspended, h'.furthest⟩

variable [DecidableEq κ]

theorem Contexts.record (h : K.Contexts c c') {f f' : Failure κ} (hf : K.Failures f f') :
    K.Contexts (c.record f) (c'.record f') := by
  rw [Context.record, Context.record]
  by_cases hc : c.suspended = 0
  · rw [if_neg (not_not_intro hc), if_neg (not_not_intro (h.suspended ▸ hc))]
    refine ⟨h.whitespace, h.suspended, .some ?_⟩
    have hfurthest := h.furthest
    cases hb : c.furthest with
    | none =>
      rw [hb] at hfurthest
      cases hb' : c'.furthest with
      | none => exact hf
      | some best' => rw [hb'] at hfurthest; cases hfurthest
    | some best =>
      rw [hb] at hfurthest
      cases hb' : c'.furthest with
      | none => rw [hb'] at hfurthest; cases hfurthest
      | some best' =>
        rw [hb'] at hfurthest
        cases hfurthest with
        | some hbest => exact hbest.deepest hf
  · rw [if_pos hc, if_pos (h.suspended ▸ hc)]
    exact h

/-! ## 2. Runs in step -/

variable {g : Grammar κ}

/-- Plans that correspond are executed in step, if the rules that they call are run in step. -/
theorem exec_alike {R : α → β → Prop} {run : Runner κ}
    (hrun : ∀ id v v' s s', K.Views v v' → K.States s s' → EnsuresBoth (run id v) s (run id v') s'
      (fun r t r' t' => K.Results C r r' ∧ K.States t t') K.States)
    {p : Plan κ α} {q : Plan κ β} (hpq : K.Plans C R p q) (hs : K.States s s') :
    EnsuresBoth (p.exec g run) s (q.exec g run) s' (fun a t b t' => R a b ∧ K.States t t') K.States := by
  induction hpq generalizing s s' with
  | done h => exact ⟨h, hs⟩
  | stop why => exact ⟨rfl, hs⟩
  | @policy next next' _ ih =>
    show EnsuresBoth ((next s.context.whitespace).exec g run) s ((next' s'.context.whitespace).exec g run) s' _ _
    rw [hs.context.whitespace]
    exact ih _ hs
  | expect id _ ih =>
    have read : EnsuresBoth (Parse.ofDerive (g.expectation id)) s (Parse.ofDerive (g.expectation id)) s'
        (fun e t e' t' => e = e' ∧ K.States t t') K.States := by
      unfold EnsuresBoth Parse.ofDerive
      rw [← hs.derivation]
      cases g.expectation id s.derivation with
      | ok e d => exact ⟨rfl, rfl, hs.context⟩
      | error e d => exact ⟨rfl, rfl, hs.context⟩
    refine read.bind ?_
    rintro e t _ t' ⟨rfl, ht⟩
    exact ih e ht
  | @call scope id v v' next next' hv _ ih =>
    rw [Plan.exec, Plan.exec, Scope.around_eq, Scope.around_eq]
    have entered : K.States { s with context := scope.enter s.context } { s' with context := scope.enter s'.context } :=
      ⟨hs.derivation, hs.context.enter scope⟩
    have left {t t' : ParseState κ} (h : K.States t t') :
        K.States { t with context := scope.leave s.context t.context }
          { t' with context := scope.leave s'.context t'.context } :=
      ⟨h.derivation, hs.context.leave h.context scope⟩
    have around : EnsuresBoth (Parse.bracketed scope.enter scope.leave (run id v)) s
        (Parse.bracketed scope.enter scope.leave (run id v')) s'
        (fun r t r' t' => K.Results C r r' ∧ K.States t t') K.States :=
      .bracketed ((hrun id v v' _ _ hv entered).imp (fun _ _ _ _ h => ⟨h.1, left h.2⟩) fun _ _ h => left h)
    refine around.bind ?_
    rintro r t r' t' ⟨hr, ht⟩
    exact ih r r' hr ht

theorem offer_alike {r r' : Result κ} (hr : K.Results C r r') (hs : K.States s s') :
    EnsuresBoth (Parse.offer r) s (Parse.offer r') s' (fun _ t _ t' => K.States t t') K.States := by
  cases hr with
  | parsed hx hw => exact hs
  | failed hf => exact ⟨hs.derivation, hs.context.record hf⟩

variable [CustomMatcher κ]

/-- **Runs in windows that show the same text go on in step**, by induction on fuel. -/
theorem parse_alike (hg : g.LooksAtText C) (fuel : Nat) (id : RuleId) (v v' : View) (s s' : ParseState κ)
    (hv : K.Views v v') (hs : K.States s s') :
    EnsuresBoth (g.parse fuel id v) s (g.parse fuel id v') s' (fun r t r' t' => K.Results C r r' ∧ K.States t t')
      K.States := by
  induction fuel generalizing id v v' s s' with
  | zero => exact ⟨rfl, hs⟩
  | succ fuel ih =>
    rw [Grammar.parse, Grammar.parse, Grammar.step_eq, Grammar.step_eq]
    refine (exec_alike ih (plan_alike hg id hv) hs).bind ?_
    rintro r t r' t' ⟨hr, ht⟩
    cases g.isPlaceholder id with
    | true => exact ⟨hr, ht⟩
    | false => exact (offer_alike hr ht).bind fun _ u _ u' hu => ⟨hr, hu⟩

end Likeness

end Descent
