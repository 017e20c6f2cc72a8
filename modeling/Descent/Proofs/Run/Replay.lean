import Descent.Proofs.Derivation.Kept
import Descent.Proofs.Run.Plan
import Descent.Proofs.Run.Success

/-!
# Runs made again

Runs ask for expectations, and answers to that are kept. So what a run finds kept depends on what has been run before
it, on the same grammar and in any context. **That makes no difference to what it comes to.** A run from rest only adds
to what is kept, and made again from whatever keeps what the first run left, it comes to the same result and the same
context (`Grammar.parse_isRepeatable`).

The relation goes through the ways in which runs are put together; what is special about runs comes in once, where an
expectation is asked for (`Grammar.expectation_again`).
-/

namespace Descent

variable {κ α β : Type}

/-- From rest, `x` adds to what is kept; and what it comes to there, it comes to from all that keep what it left. -/
def Parse.IsRepeatable (x : Parse κ α) : Prop :=
  ∀ s a t, s.derivation.AtRest → x s = .ok a t →
    s.derivation.Grows t.derivation ∧ ∀ d : Derivation κ, d.Keeps t.derivation →
      ∃ d', x { s with derivation := d } = .ok a { t with derivation := d' } ∧ d.Grows d'

namespace Parse.IsRepeatable

/-- What leaves the bookkeeping alone and does not look at it. -/
theorem of_context {x : Parse κ α} (f : Context κ → α) (next : Context κ → Context κ)
    (h : ∀ s, x s = .ok (f s.context) { s with context := next s.context }) : x.IsRepeatable := by
  intro s a t _ hx
  cases (h s).symm.trans hx
  exact ⟨.refl _, fun d _ => ⟨d, h _, .refl d⟩⟩

theorem pure (a : α) : (Pure.pure a : Parse κ α).IsRepeatable := .of_context (fun _ => a) id fun _ => rfl

theorem stop (why : Stop) : (throw why : Parse κ α).IsRepeatable := by
  intro s a t _ h
  cases h

theorem context : (Parse.context : Parse κ (Context κ)).IsRepeatable := .of_context id id fun _ => rfl

theorem bind {x : Parse κ α} {f : α → Parse κ β} (hx : x.IsRepeatable) (hf : ∀ a, (f a).IsRepeatable) :
    (x >>= f).IsRepeatable := by
  intro s b u hs h
  obtain ⟨a, t, ht, hu⟩ := bind_eq_ok.mp h
  obtain ⟨grows, again⟩ := hx s a t hs ht
  obtain ⟨grows', again'⟩ := hf a t b u (grows.atRest hs) hu
  refine ⟨grows.trans grows', fun d hd => ?_⟩
  obtain ⟨d₁, ht', grows₁⟩ := again d (grows'.keeps.trans hd)
  obtain ⟨d₂, hu', grows₂⟩ := again' d₁ (hd.trans grows₁.keeps)
  exact ⟨d₂, bind_eq_ok.mpr ⟨a, _, ht', hu'⟩, grows₁.trans grows₂⟩

theorem bracketed {enter : Context κ → Context κ} {leave : Context κ → Context κ → Context κ} {x : Parse κ α}
    (hx : x.IsRepeatable) : (Parse.bracketed enter leave x).IsRepeatable := by
  intro s a t hs h
  unfold Parse.bracketed at h ⊢
  cases hentered : x { s with context := enter s.context } with
  | error why u => simp only [hentered, reduceCtorEq] at h
  | ok b u =>
    simp only [hentered] at h
    cases h
    obtain ⟨grows, again⟩ := hx { s with context := enter s.context } a u hs hentered
    refine ⟨grows, fun d hd => ?_⟩
    obtain ⟨d', hagain, grows'⟩ := again d hd
    exact ⟨d', by simp only [hagain], grows'⟩

end Parse.IsRepeatable

variable [DecidableEq κ] {g : Grammar κ}

theorem Parse.record_isRepeatable (f : Failure κ) : (Parse.record f).IsRepeatable :=
  .of_context (fun _ => ()) (·.record f) fun _ => rfl

theorem Grammar.expectation_isRepeatable (g : Grammar κ) (id : RuleId) :
    (Parse.ofDerive (g.expectation id)).IsRepeatable := by
  intro s e t hs h
  unfold Parse.ofDerive at h ⊢
  cases hanswer : g.expectation id s.derivation with
  | error why d => simp only [hanswer, reduceCtorEq] at h
  | ok e' d =>
    simp only [hanswer] at h
    cases h
    obtain ⟨grows, again⟩ := Grammar.expectation_again hs hanswer
    refine ⟨grows, fun d₀ hd₀ => ?_⟩
    obtain ⟨d', hagain, grows', -⟩ := again d₀ hd₀
    exact ⟨d', by simp only [hagain], grows'⟩

theorem Plan.exec_isRepeatable {run : Runner κ} (hrun : ∀ id v, (run id v).IsRepeatable) (p : Plan κ α) :
    (p.exec g run).IsRepeatable := by
  induction p with
  | done a => exact .pure a
  | stop why => exact .stop why
  | policy next ih => exact .bind .context fun c => ih c.whitespace
  | expect id next ih => exact .bind (g.expectation_isRepeatable id) ih
  | call scope id v next ih =>
    unfold Plan.exec
    rw [Scope.around_eq]
    exact .bind (.bracketed (hrun id v)) ih

variable [CustomMatcher κ]

/-- **A run made again comes to the same**, whatever has been run in between. -/
theorem Grammar.parse_isRepeatable (g : Grammar κ) (fuel : Nat) (id : RuleId) (v : View) :
    (g.parse fuel id v).IsRepeatable := by
  induction fuel generalizing id v with
  | zero => exact .stop .unfinished
  | succ fuel ih =>
    rw [Grammar.parse, Grammar.step_eq]
    refine .bind (Plan.exec_isRepeatable ih _) fun r => ?_
    cases g.isPlaceholder id with
    | true => exact .pure r
    | false =>
      refine .bind ?_ fun _ => .pure r
      cases r with
      | parsed x w => exact .pure ()
      | failed f => exact Parse.record_isRepeatable f

end Descent
