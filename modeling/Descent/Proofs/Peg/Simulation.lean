import Descent.Proofs.Derivation.Total
import Descent.Proofs.Peg.Eval
import Descent.Proofs.Run.Plan

/-!
# Runs and what is given

A run answers the questions of a plan from its state: what was expected, what whitespace is allowed, what is on record.
An evaluation answers them from nothing. That both come to the same is a statement about plans. `Plan.Follows` reads a
plan next to an evaluator: a question about expectations may be answered by *anything*, and so may all that a call tells
beside its ending. If the plan of a rule still ends as the evaluation of the rule does, none of these answers matters.

So the comparison of bodies needs no state (`Body.plan_follows`), and the comparison of states needs no bodies
(`Plan.Follows.exec`): it is only that a run hands back the policy that it was given. What is left of derivations is
that they end; a fault of theirs, and nothing else about them, could change the course of a run.
-/

namespace Descent

variable {κ α β : Type}

/-- The policy in a scope. -/
def Scope.policy : Scope → Option RuleId → Option RuleId
  | .under policy, _ => policy
  | _, P => P

theorem Scope.whitespace_enter (scope : Scope) (c : Context κ) :
    (scope.enter c).whitespace = scope.policy c.whitespace := by
  cases scope <;> rfl

theorem Scope.whitespace_leave {scope : Scope} {c c' : Context κ} (h : c'.whitespace = scope.policy c.whitespace) :
    (scope.leave c c').whitespace = c.whitespace := by
  cases scope with
  | plain => exact h
  | under policy => rfl
  | quiet => exact h

/-- A policy that is a rule of the grammar, or none. -/
def Grammar.Has (g : Grammar κ) (P : Option RuleId) : Prop := ∀ p, P = some p → p < g.rules.size

/-! ## 1. Plans next to an evaluator -/

/-- Whatever is expected, and whatever calls tell beside their endings, the plan ends in `Q`; and it asks about rules of
the grammar only. -/
def Plan.Follows (g : Grammar κ) (call : Evaluator κ) (P : Option RuleId) :
    Plan κ α → (Except Stop α → Prop) → Prop
  | .done a, Q => Q (.ok a)
  | .stop why, Q => Q (.error why)
  | .policy next, Q => (next P).Follows g call P Q
  | .expect id next, Q => id < g.rules.size ∧ ∀ e, (next e).Follows g call P Q
  | .call scope id w next, Q => id < g.rules.size ∧ g.Has (scope.policy P) ∧
    (∀ why, call (scope.policy P) id w = .error why → Q (.error why)) ∧
    ∀ r, call (scope.policy P) id w = .ok r.ending → (next r).Follows g call P Q

namespace Plan.Follows

variable {g : Grammar κ} {call : Evaluator κ} {P : Option RuleId} {p : Plan κ α} {Q : Except Stop α → Prop}

theorem imp {Q' : Except Stop α → Prop} (h : p.Follows g call P Q) (hQ : ∀ x, Q x → Q' x) :
    p.Follows g call P Q' := by
  induction p with
  | done a => exact hQ _ h
  | stop why => exact hQ _ h
  | policy next ih => exact ih P h
  | expect id next ih => exact ⟨h.1, fun e => ih e (h.2 e)⟩
  | call scope id w next ih =>
    obtain ⟨hid, hP, hstop, hnext⟩ := h
    exact ⟨hid, hP, fun why hw => hQ _ (hstop why hw), fun r hr => ih r (hnext r hr)⟩

theorem bind {f : α → Plan κ β} {R : Except Stop β → Prop}
    (h : p.Follows g call P fun x => (∀ a, x = .ok a → (f a).Follows g call P R) ∧
      ∀ why, x = .error why → R (.error why)) : (p.bind f).Follows g call P R := by
  induction p with
  | done a => exact h.1 a rfl
  | stop why => exact h.2 why rfl
  | policy next ih => exact ih P h
  | expect id next ih => exact ⟨h.1, fun e => ih e (h.2 e)⟩
  | call scope id w next ih =>
    obtain ⟨hid, hP, hstop, hnext⟩ := h
    exact ⟨hid, hP, fun why hw => (hstop why hw).2 why rfl, fun r hr => ih r (hnext r hr)⟩

theorem ofExcept {x : Except Fault α} (h : Q (Verdict.outcome x)) : (Plan.ofExcept x).Follows g call P Q := by
  cases x <;> exact h

/-- A run that agrees with an evaluator on rules agrees with it on plans: it ends in `Q`, unless a derivation meets a
fault, and hands back the policy. -/
theorem exec [DecidableEq κ] {run : Runner κ} {D : Fault → Prop} {s : ParseState κ} (h : p.Follows g call P Q)
    (hP : g.Has P) (hD : ∀ id < g.rules.size, ∀ d, Ensures (g.expectation id) d (fun _ _ => True) fun e _ => D e)
    (hrun : ∀ P id v (s : ParseState κ), g.Has P → id < g.rules.size → s.context.whitespace = P →
      Ensures (run id v) s (fun r t => call P id v = .ok r.ending ∧ t.context.whitespace = P)
        fun why t => ((∃ e, why = .fault e ∧ D e) ∨ call P id v = .error why) ∧ t.context.whitespace = P)
    (hs : s.context.whitespace = P) :
    Ensures (p.exec g run) s (fun a t => Q (.ok a) ∧ t.context.whitespace = P)
      fun why t => ((∃ e, why = .fault e ∧ D e) ∨ Q (.error why)) ∧ t.context.whitespace = P := by
  induction p generalizing s with
  | done a => exact ⟨h, hs⟩
  | stop why => exact ⟨Or.inr h, hs⟩
  | policy next ih =>
    subst hs
    exact ih _ h rfl
  | expect id next ih =>
    -- the answer does not matter, only that there is one
    rw [Plan.exec, ensures_bind, Parse.ensures_ofDerive]
    refine (hD id h.1 s.derivation).imp (fun e d _ => ih e (h.2 e) hs) fun e d he => ?_
    exact ⟨Or.inl ⟨e, rfl, he⟩, hs⟩
  | call scope id w next ih =>
    obtain ⟨hid, hP', hstop, hnext⟩ := h
    -- the call runs under the policy of its scope, and the context has its own again afterwards
    have hin : (scope.enter s.context).whitespace = scope.policy P := by
      rw [Scope.whitespace_enter, hs]
    rw [Plan.exec, ensures_bind, Scope.around_eq, Parse.ensures_bracketed]
    refine (hrun _ id w _ hP' hid hin).imp ?_ ?_
    · rintro r t ⟨hr, ht⟩
      exact ih r (hnext r hr) (by rw [Scope.whitespace_leave (ht.trans (by rw [hs])), hs])
    · rintro why t ⟨hwhy, ht⟩
      exact ⟨hwhy.imp_right (hstop why), by rw [Scope.whitespace_leave (ht.trans (by rw [hs])), hs]⟩

end Plan.Follows

/-! ## 2. Bodies -/

section Body

variable {g : Grammar κ} {call : Evaluator κ} {P : Option RuleId} {v : View}

/-- A call in front of something, in a plan and in an evaluation. -/
theorem Plan.Follows.of_call {scope : Scope} {id : RuleId} {next : Result κ → Plan κ α} {E : α → Ending κ}
    {k : Ending κ → Except Stop (Ending κ)} (hid : id < g.rules.size) (hP : g.Has (scope.policy P))
    (h : ∀ r : Result κ, (next r).Follows g call P fun x => E <$> x = k r.ending) :
    (Plan.call scope id v next).Follows g call P fun x => E <$> x = (call (scope.policy P) id v >>= k) := by
  refine ⟨hid, hP, fun why hwhy => ?_, fun r hr => (h r).imp fun x hx => ?_⟩
  · rw [hwhy]
    rfl
  · rw [hr]
    exact hx

theorem Plan.skip_follows (hP : g.Has P) :
    (Plan.skip v : Plan κ View).Follows g call P fun x => Ending.parsed .none <$> x = Eval.skip call P v := by
  cases P with
  | none => rfl
  | some p =>
    refine Plan.Follows.of_call (hP p rfl) hP fun r => ?_
    cases r <;> rfl

/-- Ambient whitespace in front of something. -/
theorem Plan.Follows.of_skip {f : View → Plan κ (Result κ)} {k : Ending κ → Except Stop (Ending κ)} (hP : g.Has P)
    (h : ∀ w, (f w).Follows g call P fun x => Result.ending <$> x = k (.parsed .none w)) :
    ((Plan.skip v).bind f).Follows g call P fun x => Result.ending <$> x = (Eval.skip call P v >>= k) := by
  refine .bind ((Plan.skip_follows hP).imp fun x hx => ⟨?_, ?_⟩)
  · rintro w rfl
    rw [← hx]
    exact h w
  · rintro why rfl
    rw [← hx]
    rfl

theorem sequencePlan_follows {ids : List RuleId} {values : List (Value κ)} (hids : ∀ id ∈ ids, id < g.rules.size)
    (hP : g.Has P) :
    (sequencePlan ids values v).Follows g call P fun x => Result.ending <$> x = Eval.parts call P ids values v := by
  induction ids generalizing values v with
  | nil => rfl
  | cons id ids ih =>
    obtain ⟨hid, hids⟩ := List.forall_mem_cons.mp hids
    refine .of_call hid hP fun r => ?_
    cases r with
    | parsed x w => exact ih hids
    | failed f => rfl

theorem eitherPlan_follows {ids : List RuleId} {last : Result κ} {w : View} (hids : ∀ id ∈ ids, id < g.rules.size)
    (hP : g.Has P) (hlast : last.ending = .failed w) :
    (eitherPlan v ids last).Follows g call P fun x => Result.ending <$> x = Eval.branches call P v ids w := by
  induction ids generalizing last w with
  | nil => exact congrArg Except.ok hlast
  | cons id ids ih =>
    obtain ⟨hid, hids⟩ := List.forall_mem_cons.mp hids
    refine .of_call hid hP fun r => ?_
    cases r with
    | parsed x w => rfl
    | failed f => exact ih hids rfl

theorem ending_closed {minimum : Int} {values : List (Value κ)} {w : View} {last : Result κ} :
    (closed minimum values w last).ending = Ending.closing minimum values w last.ending := by
  rw [closed, Ending.closing]
  split <;> rfl

theorem roundsPlan_follows {attempt : RuleId} {minimum : Int} {fuel : Nat} {values : List (Value κ)} {r : Result κ}
    (hid : attempt < g.rules.size) (hP : g.Has P) :
    (roundsPlan attempt minimum fuel values v r).Follows g call P fun x =>
      Result.ending <$> x = Eval.rounds call P attempt minimum fuel values v r.ending := by
  induction fuel generalizing values v r with
  | zero => rfl
  | succ fuel ih =>
    cases r with
    | failed f => exact congrArg Except.ok ending_closed
    | parsed x w =>
      rw [roundsPlan, Result.ending, Eval.rounds]
      split
      · exact congrArg Except.ok ending_closed
      · exact .of_call hid hP fun r => ih

theorem Plan.allow_follows [DecidableEq κ] {f : Failure κ} (hP : g.Has P) :
    ((Plan.allow f).bind fun f => .done (.failed f)).Follows g call P fun x =>
      Result.ending <$> x = .ok (.failed f.rest) := by
  cases P with
  | none => rfl
  | some p => exact ⟨hP p rfl, fun e => rfl⟩

variable [DecidableEq κ] [CustomMatcher κ]

/-- **Bodies end as they are evaluated**, whatever diagnostics they are told. -/
theorem Body.plan_follows {b : Body κ} (hrefs : ∀ ref ∈ b.refs, ref < g.rules.size) (hP : g.Has P)
    (hb : ∀ target, b ≠ .placeholder target) :
    (b.plan v).Follows g call P fun x => Result.ending <$> x = Eval.body call P v b := by
  have alone {x : Except Fault (Result κ)} {y : Verdict κ} (h : Result.ending <$> x = y) :
      (Plan.ofExcept x).Follows g call P fun x => Result.ending <$> x = Verdict.outcome y := by
    subst h
    apply Plan.Follows.ofExcept
    cases x <;> rfl
  cases b with
  | token m f => cases f <;> exact alone (Matcher.ending_taken m v _)
  | capture m => exact alone (Matcher.ending_taken m v _)
  | oneOf ms => exact alone (ending_chosen ms ms v)
  | handWritten answer derivative => exact alone (Answer.ending_placed answer v)
  | sequence ids => exact sequencePlan_follows hrefs hP
  | either ids => exact eitherPlan_follows hrefs hP rfl
  | optional inner default =>
    refine .of_call (hrefs inner (by simp [refs])) hP fun r => ?_
    cases r <;> rfl
  | repeated first minimum attempt =>
    exact .of_call (hrefs first (by simp [refs])) hP fun r => roundsPlan_follows (hrefs attempt (by simp [refs])) hP
  | map inner f =>
    refine .of_call (hrefs inner (by simp [refs])) hP fun r => ?_
    cases r with
    | parsed x w =>
      apply Plan.Follows.ofExcept
      simp only [Result.ending]
      cases f x <;> rfl
    | failed f => rfl
  | skipping inner =>
    refine .of_skip hP fun w => ?_
    show Plan.Follows g call P _ fun x => Result.ending <$> x = call P inner w
    rw [← bind_pure (call P inner w)]
    refine .of_call (hrefs inner (by simp [refs])) hP fun r => ?_
    cases r with
    | parsed x w => rfl
    | failed f =>
      dsimp only
      split
      · exact Plan.allow_follows hP
      · rfl
  | skippingAfter inner =>
    refine .of_call (hrefs inner (by simp [refs])) hP fun r => ?_
    cases r with
    | parsed x w => exact .of_skip hP fun w => rfl
    | failed f => rfl
  | within inner policy =>
    rw [Eval.body, ← bind_pure (call policy inner v)]
    refine .of_call (hrefs inner (by simp [refs])) ?_ fun r => rfl
    rintro p rfl
    exact hrefs p (by simp [refs])
  | placeholder target => exact absurd rfl (hb target)

end Body

/-! ## 3. Rules and runs -/

section Run

variable [DecidableEq κ] {g : Grammar κ} {call : Evaluator κ} {P : Option RuleId}

theorem Plan.stamp_follows {id : RuleId} {v : View} (hid : id < g.rules.size) (hP : g.Has P) (r : Result κ) :
    (Plan.stamp id v r).Follows g call P fun x => Result.ending <$> x = .ok r.ending := by
  cases r with
  | parsed x w => rfl
  | failed f =>
    rw [Plan.stamp]
    split
    · refine ⟨hid, fun e => ?_⟩
      dsimp only
      split
      · cases P with
        | none => rfl
        | some p => exact ⟨hP p rfl, fun e' => rfl⟩
      · rfl
    · rfl

/-- Offering a result changes neither the result nor the policy. -/
theorem Parse.ensures_offer {r : Result κ} {s : ParseState κ} {E : Stop → ParseState κ → Prop}
    (hs : s.context.whitespace = P) : Ensures (Parse.offer r) s (fun _ t => t.context.whitespace = P) E := by
  cases r with
  | parsed x w => exact hs
  | failed f =>
    show (Context.record s.context f).whitespace = P
    rw [Context.record]
    split <;> exact hs

variable [CustomMatcher κ]

theorem Grammar.plan_follows (hclosed : g.IsClosed) (hP : g.Has P) {id : RuleId} (hid : id < g.rules.size) (v : View)
    (fuel : Nat) :
    (g.plan id v).Follows g (g.eval fuel) P fun x => Result.ending <$> x = g.eval (fuel + 1) P id v := by
  rw [Grammar.plan]
  split
  next hr =>
    rw [eval_absent hr]
    rfl
  next label hr =>
    rw [eval_unresolved hr]
    rfl
  next label target hr =>
    rw [eval_rule hr (by simp), Eval.body, ← bind_pure (g.eval fuel P target v)]
    exact .of_call (hclosed id _ hr target (by simp [Body.refs])) hP fun r => rfl
  next rule hnone hsome hr =>
    have proper := Rule.body_ne_placeholder hnone hsome
    rw [eval_rule hr (proper none)]
    refine .bind ((Body.plan_follows (hclosed id rule hr) hP proper).imp fun x hx => ⟨?_, ?_⟩)
    · rintro r rfl
      rw [← hx]
      exact Plan.stamp_follows hid hP r
    · rintro why rfl
      exact hx

/-- **A run ends as the evaluation with the same fuel does**, from any state with the policy, unless a derivation meets
a fault; and it hands back the policy. -/
theorem Grammar.parse_follows (hclosed : g.IsClosed) {D : Fault → Prop}
    (hD : ∀ id < g.rules.size, ∀ d, Ensures (g.expectation id) d (fun _ _ => True) fun e _ => D e) (fuel : Nat)
    (P : Option RuleId) (id : RuleId) (v : View) (s : ParseState κ) (hP : g.Has P) (hid : id < g.rules.size)
    (hs : s.context.whitespace = P) :
    Ensures (g.parse fuel id v) s (fun r t => g.eval fuel P id v = .ok r.ending ∧ t.context.whitespace = P)
      fun why t => ((∃ e, why = .fault e ∧ D e) ∨ g.eval fuel P id v = .error why) ∧ t.context.whitespace = P := by
  induction fuel generalizing P id v s with
  | zero => exact ⟨Or.inr rfl, hs⟩
  | succ fuel ih =>
    have body := (plan_follows hclosed hP hid v fuel).exec hP hD
      (fun P id v s hP hid hs => ih P id v s hP hid hs) hs
    rw [Grammar.parse, Grammar.step_eq, ensures_bind]
    refine body.imp ?_ fun why t h => ⟨h.1.imp_right Eq.symm, h.2⟩
    rintro r t ⟨hr, ht⟩
    split
    · exact ⟨hr.symm, ht⟩
    · rw [ensures_bind]
      exact (Parse.ensures_offer ht).imp_ok fun _ _ ht' => ⟨hr.symm, ht'⟩

end Run

end Descent
