import Descent.Proofs.Run.Plan

/-!
# What a run hands back

A run changes the context that it is given: a rule runs its parts under another whitespace policy, whitespace is skipped
with failures not recorded, and failures are offered to the record. All but the last is undone. **However a run ends**,
in a value, in a failure, in a fault at any depth or for want of fuel, the policy is the one it was, recording is
suspended as deep as it was, and the furthest failure has not moved back (`Grammar.parse_restored`).

Nothing about bodies is needed for this. `Context.Restored` is a preorder, recording a failure obeys it, and so does a
scope around anything that does; the rest is that a plan changes the context through its calls only. So it holds of any
plan whatsoever, whoever made it.
-/

namespace Descent

variable {κ α : Type}

/-- However `x` ends from `s`, the state that it leaves satisfies `Q`. -/
abbrev Leaves {ε σ : Type} (x : EStateM ε σ α) (s : σ) (Q : σ → Prop) : Prop := Ensures x s (fun _ => Q) fun _ => Q

/-- A context `c'` that is `c` again, but for failures that were recorded in between. -/
structure Context.Restored (c c' : Context κ) : Prop where
  whitespace : c'.whitespace = c.whitespace
  verbosity : c'.verbosity = c.verbosity
  suspended : c'.suspended = c.suspended
  /-- a record, once there, is still there, and stands no earlier -/
  furthest : ∀ f, c.furthest = some f → ∃ f', c'.furthest = some f' ∧ f.offset ≤ f'.offset

/-- The furthest failure stands no earlier than the one before it. -/
theorem Context.offset_le_deepest [DecidableEq κ] (best f : Failure κ) :
    best.offset ≤ (deepest (some best) f).offset := by
  rw [deepest]
  split
  next h => exact Nat.le_of_lt h
  next => split <;> exact Nat.le_refl _

/-! ## 1. Steps that restore -/

namespace Context.Restored

variable {c c' c'' : Context κ}

@[refl] theorem refl (c : Context κ) : c.Restored c := ⟨rfl, rfl, rfl, fun f hf => ⟨f, hf, Nat.le_refl _⟩⟩

theorem trans (h : c.Restored c') (h' : c'.Restored c'') : c.Restored c'' := by
  refine ⟨h'.whitespace.trans h.whitespace, h'.verbosity.trans h.verbosity, h'.suspended.trans h.suspended, ?_⟩
  intro f hf
  obtain ⟨f', hf', hle⟩ := h.furthest f hf
  obtain ⟨f'', hf'', hle'⟩ := h'.furthest f' hf'
  exact ⟨f'', hf'', Nat.le_trans hle hle'⟩

/-- What restores the context inside of a scope restores it around the scope. -/
theorem scope {scope : Scope} (h : (scope.enter c).Restored c') : c.Restored (scope.leave c c') := by
  have hfurthest := h.furthest
  rw [scope.furthest_enter] at hfurthest
  cases scope with
  | plain => exact h
  | under policy => exact ⟨rfl, h.verbosity, h.suspended, hfurthest⟩
  | quiet =>
    have hsuspended : c'.suspended = c.suspended + 1 := h.suspended
    refine ⟨h.whitespace, h.verbosity, ?_, hfurthest⟩
    show c'.suspended - 1 = c.suspended
    omega

variable [DecidableEq κ]

theorem record (c : Context κ) (f : Failure κ) : c.Restored (c.record f) := by
  rw [Context.record]
  split
  · exact refl c
  · refine ⟨rfl, rfl, rfl, fun best hbest => ⟨deepest c.furthest f, rfl, ?_⟩⟩
    rw [hbest]
    exact offset_le_deepest best f

end Context.Restored

/-! ## 2. Runs restore -/

section Run

variable [DecidableEq κ] {g : Grammar κ}

/-- A plan restores the context if the rules that it calls do. -/
theorem Plan.exec_restored {run : Runner κ}
    (hrun : ∀ id v (s : ParseState κ), Leaves (run id v) s fun t => s.context.Restored t.context)
    (p : Plan κ α) (s : ParseState κ) : Leaves (p.exec g run) s fun t => s.context.Restored t.context := by
  induction p generalizing s with
  | done a => exact .refl _
  | stop why => exact .refl _
  | policy next ih => exact ih s.context.whitespace s
  | expect id next ih =>
    -- a derivation knows nothing of the context
    refine ensures_bind.mpr (Parse.ensures_ofDerive.mpr ?_)
    unfold Ensures
    cases g.expectation id s.derivation with
    | ok e d => exact ih e { s with derivation := d }
    | error e d => exact .refl _
  | call scope id v next ih =>
    rw [Plan.exec, Scope.around_eq]
    refine ensures_bind.mpr (Parse.ensures_bracketed.mpr ?_)
    refine (hrun id v { s with context := scope.enter s.context }).imp (fun r t ht => ?_) fun why t ht => ht.scope
    exact (ih r _).imp (fun _ _ h => ht.scope.trans h) fun _ _ h => ht.scope.trans h

variable [CustomMatcher κ]

/-- **A run restores the context**, by induction on fuel. -/
theorem Grammar.parse_restored (g : Grammar κ) (fuel : Nat) (id : RuleId) (v : View) (s : ParseState κ) :
    Leaves (g.parse fuel id v) s fun t => s.context.Restored t.context := by
  induction fuel generalizing id v s with
  | zero => exact .refl _
  | succ fuel ih =>
    rw [Grammar.parse, Grammar.step_eq]
    refine ensures_bind.mpr ((Plan.exec_restored ih (g.plan id v) s).imp_ok fun r t ht => ?_)
    split
    · exact ht
    · cases r with
      | parsed value rest => exact ht
      | failed f => exact ht.trans (.record t.context f)

/-- **The context is restored on every way out.** Whatever the rules of a grammar are, and in whichever way a run ends,
the policy, the verbosity and the depth of suspension are as before, and the furthest failure has not moved back. The
same is true of any plan: of whatever calls rules, as things stand, under a policy or quietly, and then goes on or
stops. -/
theorem Grammar.context_restored (g : Grammar κ) (fuel : Nat) :
    (∀ (id : RuleId) (v : View) (s : ParseState κ),
      Leaves (g.parse fuel id v) s fun t => s.context.Restored t.context) ∧
    ∀ (α : Type) (p : Plan κ α) (s : ParseState κ),
      Leaves (p.exec g (g.parse fuel)) s fun t => s.context.Restored t.context :=
  ⟨g.parse_restored fuel, fun _ p s => p.exec_restored (g.parse_restored fuel) s⟩

end Run

end Descent
