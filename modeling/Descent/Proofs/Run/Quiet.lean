import Descent.Matcher.Fixed
import Descent.Proofs.Restored
import Descent.Proofs.Run.Begins
import Descent.Proofs.Window

/-!
# Whitespace is skipped quietly

A policy is a rule like any other. It tries alternatives, sets policies of its own for its parts, skips whitespace
inside of these, and may meet a fault at any depth. Each of its failures is offered to the record of the parse that it
is skipped for. **None of this is seen afterwards** (`Grammar.skips_quietly`): however a skip ends, it hands back the
very context that it was given, and it leaves a tail of the window, which is the window itself if the policy fails.

Recording is suspended by a depth and not by a flag, so that leaving a section inside of the policy does not end the
section around it. What carries the proof is that the depth is positive inside and only ever gets higher
(`Grammar.parse_quiet`). A depth below zero is no better than zero for this: a reset inside of a section leaves one
behind, and the next skip brings it up to zero, where failures are recorded.
-/

namespace Descent

variable {κ α : Type} [DecidableEq κ] {g : Grammar κ}

/-! ## 1. Runs that record nothing -/

theorem Context.record_of_suspended {c : Context κ} (h : c.suspended ≠ 0) (f : Failure κ) : c.record f = c := if_pos h

omit [DecidableEq κ] in
/-- A scope undoes what it has done, if nothing else was done. -/
theorem Scope.leave_enter (scope : Scope) (c : Context κ) : scope.leave c (scope.enter c) = c := by
  cases scope with
  | plain => rfl
  | under policy => rfl
  | quiet =>
    show { c with suspended := c.suspended + 1 - 1 } = c
    rw [Int.add_sub_cancel]

/-- A plan changes the context through its calls only. -/
theorem Plan.exec_quiet {run : Runner κ}
    (hrun : ∀ id v (s : ParseState κ), 0 < s.context.suspended → Leaves (run id v) s fun t => t.context = s.context)
    (p : Plan κ α) (s : ParseState κ) (hs : 0 < s.context.suspended) :
    Leaves (p.exec g run) s fun t => t.context = s.context := by
  induction p generalizing s with
  | done a => rfl
  | stop why => rfl
  | policy next ih => exact ih s.context.whitespace s hs
  | expect id next ih =>
    refine ensures_bind.mpr (Parse.ensures_ofDerive.mpr ?_)
    exact (ensures_self _ _).imp (fun e d _ => ih e { s with derivation := d } hs) fun _ _ _ => rfl
  | call scope id v next ih =>
    rw [Plan.exec, Scope.around_eq]
    refine ensures_bind.mpr (Parse.ensures_bracketed.mpr ?_)
    have entered := Int.lt_of_lt_of_le hs (scope.suspended_le_enter s.context)
    refine (hrun id v { s with context := scope.enter s.context } entered).imp (fun r t ht => ?_) fun why t ht => ?_
    · have left : scope.leave s.context t.context = s.context := ht ▸ scope.leave_enter s.context
      rw [left]
      exact ih r { t with context := s.context } hs
    · exact ht ▸ scope.leave_enter s.context

variable [CustomMatcher κ]

/-- **Inside of a quiet section a run leaves the context as it was**, however it ends. -/
theorem Grammar.parse_quiet (g : Grammar κ) (fuel : Nat) (id : RuleId) (v : View) (s : ParseState κ)
    (hs : 0 < s.context.suspended) : Leaves (g.parse fuel id v) s fun t => t.context = s.context := by
  induction fuel generalizing id v s with
  | zero => rfl
  | succ fuel ih =>
    rw [Grammar.parse, Grammar.step_eq]
    refine ensures_bind.mpr ((Plan.exec_quiet ih (g.plan id v) s hs).imp_ok fun r t ht => ?_)
    split
    · exact ht
    · cases r with
      | parsed value rest => exact ht
      | failed f =>
        -- the failure is offered, and not recorded
        have quiet : t.context.suspended ≠ 0 := ht ▸ Int.ne_of_gt hs
        exact (t.context.record_of_suspended quiet f).trans ht

/-! ## 2. Skips -/

/-- **Skipping leaves the context alone.** From a depth that is not below zero, however the policy ends, the policy, the
verbosity, the furthest failure and the depth are as before. What is left is the window itself if there is no policy or
if it fails, and what the policy leaves if it succeeds, which is a tail of the window. Only the policy can stop a skip.
-/
theorem Grammar.skips_quietly (g : Grammar κ) (fuel : Nat) (v : View) (s : ParseState κ)
    (hs : 0 ≤ s.context.suspended) :
    Ensures (Parse.skip (g.parse fuel) v) s
      (fun w t => t.context = s.context ∧ w.TailOf v ∧
        ((s.context.whitespace = none ∧ w = v) ∨ ∃ p, s.context.whitespace = some p ∧
          ((∃ f, Parse.suspended (g.parse fuel p v) s = .ok (.failed f) t ∧ w = v) ∨
            ∃ x, Parse.suspended (g.parse fuel p v) s = .ok (.parsed x w) t)))
      (fun why t => t.context = s.context ∧
        ∃ p, s.context.whitespace = some p ∧ Parse.suspended (g.parse fuel p v) s = .error why t) := by
  rw [← exec_skip (g := g), Plan.skip]
  refine Plan.ensures_exec_policy.mpr ?_
  cases hP : s.context.whitespace with
  | none => exact ⟨rfl, .refl v, Or.inl ⟨rfl, rfl⟩⟩
  | some p =>
    have entered : 0 < s.context.suspended + 1 := by omega
    have left : { s.context with suspended := s.context.suspended + 1 - 1 } = s.context :=
      Scope.quiet.leave_enter s.context
    have policy : Ensures (Parse.suspended (g.parse fuel p v)) s (fun r t => r.view.TailOf v ∧ t.context = s.context)
        fun _ t => t.context = s.context := by
      refine Parse.ensures_bracketed.mpr (((g.parse_window fuel p v _).and
        (g.parse_quiet fuel p v { s with context := Scope.quiet.enter s.context } entered)).imp ?_ ?_)
      · rintro r t ⟨⟨htail, -⟩, ht⟩
        exact ⟨htail, ht ▸ left⟩
      · rintro why t ⟨-, ht⟩
        exact ht ▸ left
    refine ensures_bind.mpr ((policy.and (ensures_self _ s)).imp ?_ ?_)
    · rintro r t ⟨⟨htail, ht⟩, hrun⟩
      cases r with
      | parsed x w => exact ⟨ht, htail, Or.inr ⟨p, rfl, Or.inr ⟨x, hrun⟩⟩⟩
      | failed f => exact ⟨ht, .refl v, Or.inr ⟨p, rfl, Or.inl ⟨f, hrun, rfl⟩⟩⟩
    · rintro why t ⟨ht, hrun⟩
      exact ⟨ht, p, rfl, hrun⟩

/-- Blanks in pairs, under a policy of their own, or a mark whose transform meets a fault; one of them or more. -/
def blankPairs : Grammar FixedMatcher where
  rules := #[⟨none, .token (.literal " " true) none⟩,
    ⟨none, .token (.literal "#" true) (some fun _ => .error .transform)⟩, ⟨none, .sequence [0, 0]⟩,
    ⟨none, .within 2 (some 0)⟩, ⟨none, .either [1, 3]⟩, ⟨none, .repeated 4 1 4⟩]
  names := []
  customs := 0

/-- A single blank is given back, although the policy got further than the failure on record; and after the fault of a
mark that record is there too. -/
theorem skips_quietly_blankPairs :
    let v := View.ofSource ⟨0, [' ', 'b']⟩
    let w := View.ofSource ⟨1, [' ', ' ', '#']⟩
    let s : ParseState FixedMatcher := ⟨.fresh, some 5, 0, some ⟨v, [.endOfInput], []⟩, 0⟩
    0 ≤ s.context.suspended ∧
      (∃ t, Parse.skip (blankPairs.parse 6) v s = .ok v t ∧ t.context = s.context) ∧
      ∃ t, Parse.skip (blankPairs.parse 6) w s = .error (.fault .transform) t ∧ t.context = s.context := by
  intro v w s
  have hs : 0 ≤ s.context.suspended := by decide
  refine ⟨hs, ?_, ?_⟩
  · obtain ⟨_, t, hx, rfl⟩ := Ensures.exists_ok (x := Parse.skip (blankPairs.parse 6) v) (s := s)
      (Q := fun u _ => u = v) (by decide +kernel)
    exact ⟨t, hx, ((blankPairs.skips_quietly 6 v s hs).ok hx).1⟩
  · obtain ⟨_, t, hx, rfl⟩ := Ensures.exists_error (x := Parse.skip (blankPairs.parse 6) w) (s := s)
      (E := fun why _ => why = .fault .transform) (by decide +kernel)
    exact ⟨t, hx, ((blankPairs.skips_quietly 6 w s hs).error hx).1⟩

/-- From a depth below zero the same skip leaves the failure of the second blank on record. -/
example :
    let v := View.ofSource ⟨0, [' ', 'b']⟩
    Ensures (Parse.skip (blankPairs.parse 6) v) ⟨.fresh, some 5, 0, none, -1⟩
      (fun u t => u = v ∧ t.context.furthest.map (·.offset) = some 1) fun _ _ => False := by
  decide +kernel

end Descent
