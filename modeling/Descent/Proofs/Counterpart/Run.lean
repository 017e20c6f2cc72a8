import Descent.Proofs.Counterpart.Basic
import Descent.Proofs.Pairs

/-!
# Runs of rules that do the same

Corresponding rules run in step: they call corresponding rules against the same windows, and come to the same results
and the same record (`Counterpart.parse_meets`). The bookkeeping of the two grammars has no part in this as long as it
is sure. Neither need it be the same, nor need the grammars have seen the same requests.

Where the first grammar has layers that the second is without, the first run goes deeper. A layer runs the inner rule
from the very state that it finds, and the failure that this has reported is final, so the layer reports it again to no
effect (`Grammar.parse_layer`). But it takes fuel. So one run may end for want of fuel where the other goes on, and
`Meets` says for which of the two that is possible; the fuel of the first has to make up for the layers around each
rule.
-/

namespace Descent

variable {κ α β : Type}

/-! ## 1. Runs that meet -/

section Bracketed

variable {x : Parse κ α} {enter : Context κ → Context κ} {leave : Context κ → Context κ → Context κ}
  {s t : ParseState κ}

theorem Parse.bracketed_of_ok {a : α} (h : x { s with context := enter s.context } = .ok a t) :
    Parse.bracketed enter leave x s = .ok a { t with context := leave s.context t.context } := by
  simp only [Parse.bracketed, h]

theorem Parse.bracketed_of_error {why : Stop} (h : x { s with context := enter s.context } = .error why t) :
    Parse.bracketed enter leave x s = .error why { t with context := leave s.context t.context } := by
  simp only [Parse.bracketed, h]

end Bracketed

/-- The computations end in results that satisfy `Q`, or in the same error and in states that satisfy `E`; unless the
first is unfinished, which is possible if `L`, or the second is, which is possible if `R`. -/
inductive Meets (L R : Prop) (x : Parse κ α) (s : ParseState κ) (y : Parse κ β) (t : ParseState κ)
    (Q : α → ParseState κ → β → ParseState κ → Prop) (E : ParseState κ → ParseState κ → Prop) : Prop
  | ok {a : α} {s' : ParseState κ} {b : β} {t' : ParseState κ} (hx : x s = .ok a s') (hy : y t = .ok b t')
      (h : Q a s' b t')
  | error {why : Stop} {s' t' : ParseState κ} (hx : x s = .error why s') (hy : y t = .error why t') (h : E s' t')
  | left {s' : ParseState κ} (hx : x s = .error .unfinished s') (h : L)
  | right {t' : ParseState κ} (hy : y t = .error .unfinished t') (h : R)

namespace Meets

variable {L L' R R' : Prop} {x : Parse κ α} {y : Parse κ β} {s t : ParseState κ}
  {Q Q' : α → ParseState κ → β → ParseState κ → Prop} {E : ParseState κ → ParseState κ → Prop}

theorem imp (h : Meets L R x s y t Q E) (hL : L → L') (hR : R → R')
    (hQ : ∀ a s' b t', Q a s' b t' → Q' a s' b t') : Meets L' R' x s y t Q' E := by
  cases h with
  | ok hx hy h => exact .ok hx hy (hQ _ _ _ _ h)
  | error hx hy h => exact .error hx hy h
  | left hx h => exact .left hx (hL h)
  | right hy h => exact .right hy (hR h)

theorem imp_error {E' : ParseState κ → ParseState κ → Prop} (h : Meets L R x s y t Q E)
    (hE : ∀ s' t', E s' t' → E' s' t') : Meets L R x s y t Q E' := by
  cases h with
  | ok hx hy h => exact .ok hx hy h
  | error hx hy h => exact .error hx hy (hE _ _ h)
  | left hx h => exact .left hx h
  | right hy h => exact .right hy h

theorem symm (h : Meets L R x s y t Q E) :
    Meets R L y t x s (fun b t' a s' => Q a s' b t') fun t' s' => E s' t' := by
  cases h with
  | ok hx hy h => exact .ok hy hx h
  | error hx hy h => exact .error hy hx h
  | left hx h => exact .right hx h
  | right hy h => exact .left hy h

theorem congr_left {x' : Parse κ α} {s' : ParseState κ} (hx : x s = x' s') (h : Meets L R x' s' y t Q E) :
    Meets L R x s y t Q E := by
  cases h with
  | ok hx' hy h => exact .ok (hx.trans hx') hy h
  | error hx' hy h => exact .error (hx.trans hx') hy h
  | left hx' h => exact .left (hx.trans hx') h
  | right hy h => exact .right hy h

/-- What the first of the two ensures by itself. -/
theorem and_left (h : Meets L R x s y t Q E) {A : α → ParseState κ → Prop} {B : Stop → ParseState κ → Prop}
    (hx : Ensures x s A B) : Meets L R x s y t (fun a s' b t' => Q a s' b t' ∧ A a s') E := by
  cases h with
  | ok hxs hy h => exact .ok hxs hy ⟨h, hx.ok hxs⟩
  | error hxs hy h => exact .error hxs hy h
  | left hxs h => exact .left hxs h
  | right hy h => exact .right hy h

theorem bind {γ δ : Type} {f : α → Parse κ γ} {h : β → Parse κ δ} {S : γ → ParseState κ → δ → ParseState κ → Prop}
    (hxy : Meets L R x s y t Q E) (hfh : ∀ a s' b t', Q a s' b t' → Meets L R (f a) s' (h b) t' S E) :
    Meets L R (x >>= f) s (y >>= h) t S E := by
  cases hxy with
  | ok hx hy hQ =>
    cases hfh _ _ _ _ hQ with
    | ok hx' hy' h => exact .ok ((bind_apply_of_ok hx).trans hx') ((bind_apply_of_ok hy).trans hy') h
    | error hx' hy' h => exact .error ((bind_apply_of_ok hx).trans hx') ((bind_apply_of_ok hy).trans hy') h
    | left hx' h => exact .left ((bind_apply_of_ok hx).trans hx') h
    | right hy' h => exact .right ((bind_apply_of_ok hy).trans hy') h
  | error hx hy h => exact .error (bind_apply_of_error hx) (bind_apply_of_error hy) h
  | left hx h => exact .left (bind_apply_of_error hx) h
  | right hy h => exact .right (bind_apply_of_error hy) h

theorem bracketed {enter enter' : Context κ → Context κ} {leave leave' : Context κ → Context κ → Context κ}
    (h : Meets L R x { s with context := enter s.context } y { t with context := enter' t.context }
      (fun a s' b t' => Q a { s' with context := leave s.context s'.context } b
        { t' with context := leave' t.context t'.context })
      fun s' t' => E { s' with context := leave s.context s'.context }
        { t' with context := leave' t.context t'.context }) :
    Meets L R (Parse.bracketed enter leave x) s (Parse.bracketed enter' leave' y) t Q E := by
  cases h with
  | ok hx hy h => exact .ok (Parse.bracketed_of_ok hx) (Parse.bracketed_of_ok hy) h
  | error hx hy h => exact .error (Parse.bracketed_of_error hx) (Parse.bracketed_of_error hy) h
  | left hx h => exact .left (Parse.bracketed_of_error hx) h
  | right hy h => exact .right (Parse.bracketed_of_error hy) h

/-- Runs that meet, and of which neither may be unfinished alone, end alike. -/
theorem ensuresBoth (h : Meets L R x s y t Q E) (hL : ¬ L) (hR : ¬ R) : EnsuresBoth x s y t Q E := by
  unfold EnsuresBoth
  cases h with
  | ok hx hy h => simpa only [hx, hy] using h
  | error hx hy h => simpa only [hx, hy, true_and] using h
  | left _ h => exact absurd h hL
  | right _ h => exact absurd h hR

/-- Computations that end alike meet. -/
theorem of_both (h : EnsuresBoth x s y t Q E) : Meets L R x s y t Q E := by
  cases hx : x s with
  | ok a s' =>
    obtain ⟨b, t', hy, h⟩ := h.ok hx
    exact .ok hx hy h
  | error why s' =>
    obtain ⟨t', hy, h⟩ := h.error hx
    exact .error hx hy h

end Meets

/-- Rules that are related are run in step: from states that are related, to the same results. -/
def Runner.InStep (ρ : RuleId → RuleId → Prop) (I : ParseState κ → ParseState κ → Prop) (L R : Prop)
    (run run' : Runner κ) : Prop :=
  ∀ p q v s t, ρ p q → I s t → Meets L R (run p v) s (run' q v) t (fun r s' r' t' => r = r' ∧ I s' t') I

variable [DecidableEq κ]

/-! ## 2. Layers -/

section Layer

variable {g : Grammar κ} {p inner : RuleId} {v : View} {s : ParseState κ}

/-- Where there is no policy, a layer says at its entry what the inner rule says. -/
theorem Grammar.repeats_of_layer {rule : Rule κ} (hr : g.rule? p = some rule)
    (hlayer : rule.body.layer? = some inner) : g.Repeats none p inner := by
  intro e ms he hms
  have none (ha : e.ambient = true) : ms = [] := (hms ha).unique .none
  obtain ⟨label, b⟩ := rule
  cases he with
  | rule hr' _ hshows =>
    cases hr.symm.trans hr'
    refine ⟨_, hshows inner (Counterpart.mem_reads_of_layer hlayer g), ?_⟩
    cases b with
    | skipping inner =>
      cases hlayer
      exact ⟨rfl, Expectation.orderedUnion_allowed none⟩
    | skippingAfter inner =>
      cases hlayer
      exact ⟨rfl, Expectation.orderedUnion_allowed none⟩
    | within inner policy =>
      cases policy with
      | none =>
        cases hlayer
        refine ⟨Expectation.prefixes_withWhitespace [], fun others => ?_⟩
        rw [Expectation.orderedUnion_allowed none]
        exact (congrArg (orderedUnion · others) (Expectation.whitespace_withWhitespace [])).trans
          (Expectation.orderedUnion_allowed (fun _ => rfl) others)
      | some P => cases hlayer
    | _ => cases hlayer

variable {run : Runner κ}

theorem exec_skip_of_none (hs : s.context.whitespace = none) : (Plan.skip v).exec g run s = .ok v s := by
  rw [Plan.skip, Plan.exec_policy, hs]
  rfl

theorem exec_allow_of_none (hs : s.context.whitespace = none) (f : Failure κ) :
    (Plan.allow f).exec g run s = .ok f s := by
  rw [Plan.allow, Plan.exec_policy, hs]
  rfl

variable [CustomMatcher κ]

/-- Where there is no policy, the body of a layer comes to what the inner rule comes to. -/
theorem Body.exec_layer {b : Body κ} (hlayer : b.layer? = some inner) (hs : s.context.whitespace = none)
    (hrun : Leaves (run inner v) s fun t => t.context.whitespace = none) : (b.plan v).exec g run s = run inner v s := by
  cases b with
  | skipping inner =>
    cases hlayer
    rw [Body.plan, Plan.exec_bind, bind_apply_of_ok (exec_skip_of_none hs), Plan.exec, Scope.around]
    cases hx : run inner v s with
    | error why t => exact bind_apply_of_error hx
    | ok r t =>
      have ht := hrun.ok hx
      rw [bind_apply_of_ok hx]
      cases r with
      | parsed x w => rfl
      | failed f =>
        dsimp only
        split
        · rw [Plan.exec_bind, bind_apply_of_ok (exec_allow_of_none ht f)]
          rfl
        · rfl
  | skippingAfter inner =>
    cases hlayer
    rw [Body.plan, Plan.exec, Scope.around]
    cases hx : run inner v s with
    | error why t => exact bind_apply_of_error hx
    | ok r t =>
      have ht := hrun.ok hx
      rw [bind_apply_of_ok hx]
      cases r with
      | parsed x w =>
        dsimp only
        rw [Plan.exec_bind, bind_apply_of_ok (exec_skip_of_none ht)]
        rfl
      | failed f => rfl
  | within inner policy =>
    cases policy with
    | none =>
      cases hlayer
      have entered : { s with context := { s.context with whitespace := none } } = s := by
        rw [← hs]
      rw [Body.plan, Plan.exec, Scope.around, Parse.underPolicy]
      cases hx : run inner v s with
      | error why t =>
        rw [bind_apply_of_error (Parse.bracketed_of_error (entered ▸ hx))]
        have ht := hrun.error hx
        rw [hs, ← ht]
      | ok r t =>
        rw [bind_apply_of_ok (Parse.bracketed_of_ok (entered ▸ hx))]
        have ht := hrun.ok hx
        rw [hs, ← ht]
        rfl
    | some P => cases hlayer
  | _ => cases hlayer

/-- **A layer makes no difference where there is no policy**: with one more unit of fuel it comes to what the inner rule
comes to. -/
theorem Grammar.parse_layer (hg : g.IsStraight) {rule : Rule κ} (hr : g.rule? p = some rule)
    (hlayer : rule.body.layer? = some inner) (hs : s.derivation.Sure g) (hpolicy : s.context.whitespace = none)
    (fuel : Nat) :
    Ensures (g.parse fuel inner v) s
      (fun r t => ∃ d, g.parse (fuel + 1) p v s = .ok r { t with derivation := d } ∧ d.Sure g)
      fun why t => g.parse (fuel + 1) p v s = .error why t := by
  have proper (target : Option RuleId) : rule.body ≠ .placeholder target := by
    intro hb
    rw [hb] at hlayer
    cases hlayer
  have restored : Leaves (g.parse fuel inner v) s fun t => t.context.whitespace = none :=
    (g.parse_restored fuel inner v s).imp (fun _ _ h => h.whitespace.trans hpolicy) fun _ _ h =>
      h.whitespace.trans hpolicy
  have body := Body.exec_layer (g := g) hlayer hpolicy restored
  rw [Grammar.parse, Grammar.step_rule hr proper]
  unfold Ensures
  cases hx : g.parse fuel inner v s with
  | error why t => exact bind_apply_of_error (body.trans hx)
  | ok r t =>
    dsimp only
    rw [bind_apply_of_ok (body.trans hx)]
    have ht : t.context.whitespace = none := restored.ok hx
    refine Grammar.reported_again hg (lt_size_of_rule? hr) inner v _ ((g.parse_sure hg fuel inner v s hs).ok hx) ?_ ?_ ?_
    · rintro f rfl
      exact Grammar.parse_final hg hs hx
    · rw [ht]
      exact Grammar.repeats_of_layer hr hlayer
    · rw [ht]
      intro _ _ _ _ h
      cases h

end Layer

/-! ## 3. Runs in step -/

namespace Counterpart

variable {g g' : Grammar κ} {K : Counterpart g g'} {p q : RuleId}

variable (K) in
/-- Contexts that differ in how much is logged, and in which of the corresponding policies is active. -/
structure Contexts (c c' : Context κ) : Prop where
  whitespace : K.policies c.whitespace c'.whitespace
  suspended : c.suspended = c'.suspended
  furthest : c.furthest = c'.furthest

variable (K) in
/-- States with bookkeeping of some kind, and with such contexts. -/
structure StatesWith (J J' : Derivation κ → Prop) (s s' : ParseState κ) : Prop where
  sure : J s.derivation
  sure' : J' s'.derivation
  context : K.Contexts s.context s'.context

variable (K) in
/-- States with sure bookkeeping. -/
abbrev States : ParseState κ → ParseState κ → Prop := K.StatesWith (·.Sure g) (·.Sure g')

section Contexts

variable {c c' d d' : Context κ} {scope scope' : Scope}

omit [DecidableEq κ] in
theorem Contexts.enter (h : K.Contexts c c') (hscope : K.Scopes scope scope') :
    K.Contexts (scope.enter c) (scope'.enter c') := by
  cases hscope with
  | plain => exact h
  | under hP => exact ⟨hP, h.suspended, h.furthest⟩
  | quiet => exact ⟨h.whitespace, congrArg (· + 1) h.suspended, h.furthest⟩

omit [DecidableEq κ] in
theorem Contexts.leave (h : K.Contexts c c') (h' : K.Contexts d d') (hscope : K.Scopes scope scope') :
    K.Contexts (scope.leave c d) (scope'.leave c' d') := by
  cases hscope with
  | plain => exact h'
  | under hP => exact ⟨h.whitespace, h'.suspended, h'.furthest⟩
  | quiet => exact ⟨h'.whitespace, congrArg (· - 1) h'.suspended, h'.furthest⟩

theorem Contexts.record (h : K.Contexts c c') (f : Failure κ) : K.Contexts (c.record f) (c'.record f) := by
  rw [Context.record, Context.record, ← h.suspended, ← h.furthest]
  split
  · exact h
  · exact ⟨h.whitespace, rfl, rfl⟩

end Contexts

section Run

variable {I : ParseState κ → ParseState κ → Prop} {s s' : ParseState κ} {run run' : Runner κ} {L R : Prop}

variable (K) in
/-- What lets runs of corresponding rules go on in step from related states: policies correspond, corresponding rules
are answered with the same matchers and report results alike, and neither that nor a call in between leads out of the
relation. -/
structure Keeps (I : ParseState κ → ParseState κ → Prop) : Prop where
  policies : ∀ {s s'}, I s s' → K.policies s.context.whitespace s'.context.whitespace
  answered : ∀ {p q s s'}, K.rules p q → I s s' → ∃ e d e' d', g.expectation p s.derivation = .ok e d ∧
    g'.expectation q s'.derivation = .ok e' d' ∧ e.prefixes = e'.prefixes ∧ I ⟨d, s.context⟩ ⟨d', s'.context⟩
  entered : ∀ {scope scope' s s'}, K.Scopes scope scope' → I s s' →
    I { s with context := scope.enter s.context } { s' with context := scope'.enter s'.context }
  left : ∀ {scope scope' s s' t t'}, K.Scopes scope scope' → I s s' → I t t' →
    I { t with context := scope.leave s.context t.context } { t' with context := scope'.leave s'.context t'.context }
  reported : ∀ {p q s s'}, K.rules p q → I s s' → ∀ (v : View) (f : Failure κ) (run run' : Runner κ), ∃ f₁ t t',
    g.report run p v (.failed f) s = .ok (.failed f₁) t ∧ g'.report run' q v (.failed f) s' = .ok (.failed f₁) t' ∧
      I t t'

/-- Plans that correspond are executed in step, if the rules that they call are run in step. -/
theorem Keeps.exec_meets (hI : K.Keeps I) (hrun : Runner.InStep K.rules I L R run run') {a b : Plan κ α}
    (hab : K.Plans a b) (hs : I s s') :
    Meets L R (a.exec g run) s (b.exec g' run') s' (fun x t x' t' => x = x' ∧ I t t') I := by
  induction hab generalizing s s' with
  | done a => exact .ok rfl rfl ⟨rfl, hs⟩
  | stop why => exact .error rfl rfl hs
  | policy _ ih =>
    refine Meets.bind (Q := fun c t c' t' => K.policies c.whitespace c'.whitespace ∧ I t t')
      (.ok rfl rfl ⟨hI.policies hs, hs⟩) ?_
    rintro c t c' t' ⟨hc, ht⟩
    exact ih _ _ hc ht
  | expect hpq _ ih =>
    obtain ⟨e, d, e', d', he, he', hprefixes, hd⟩ := hI.answered hpq hs
    have asked {g : Grammar κ} {p : RuleId} {s : ParseState κ} {e : Expectation κ} {d : Derivation κ}
        (h : g.expectation p s.derivation = .ok e d) :
        Parse.ofDerive (g.expectation p) s = .ok e { s with derivation := d } := by
      simp only [Parse.ofDerive, h]
    refine Meets.bind (Q := fun e t e' t' => e.prefixes = e'.prefixes ∧ I t t')
      (.ok (asked he) (asked he') ⟨hprefixes, hd⟩) ?_
    rintro e t e' t' ⟨hprefixes, ht⟩
    exact ih e e' hprefixes ht
  | @call scope scope' hscope p q hpq v _ _ _ ih =>
    rw [Plan.exec, Plan.exec, Scope.around_eq, Scope.around_eq]
    have entered := hrun p q v _ _ hpq (hI.entered hscope hs)
    refine Meets.bind (Q := fun r t r' t' => r = r' ∧ I t t') (.bracketed ?_) ?_
    · exact (entered.imp id id fun _ _ _ _ h => ⟨h.1, hI.left hscope hs h.2⟩).imp_error fun _ _ h => hI.left hscope hs h
    · rintro r t _ t' ⟨rfl, ht⟩
      exact ih r ht

variable [CustomMatcher κ]

/-- A step of rules of one kind. -/
theorem Keeps.step_meets (hI : K.Keeps I) (hrun : Runner.InStep K.rules I L R run run') {rule rule' : Rule κ}
    (hpq : K.rules p q) (hr : g.rule? p = some rule) (hr' : g'.rule? q = some rule')
    (halike : rule.body.Alike K.rules K.policies rule'.body)
    (hlabel : rule.body = .placeholder none → rule.label = rule'.label) (v : View) (hs : I s s') :
    Meets L R (g.step run p v) s (g'.step run' q v) s' (fun r t r' t' => r = r' ∧ I t t') I := by
  by_cases hp : ∃ target, rule.body = .placeholder target
  · obtain ⟨label, b⟩ := rule
    obtain ⟨label', b'⟩ := rule'
    obtain ⟨target, rfl⟩ := hp
    cases halike with
    | placeholder h =>
      cases h with
      | none =>
        cases hlabel rfl
        rw [Grammar.step, Grammar.step, hr, hr']
        exact .error rfl rfl hs
      | some h =>
        rw [Grammar.step_target hr, Grammar.step_target hr']
        exact hrun _ _ v _ _ h hs
  · have proper (target : Option RuleId) : rule.body ≠ .placeholder target := fun h => hp ⟨target, h⟩
    have proper' (target : Option RuleId) : rule'.body ≠ .placeholder target := by
      intro h
      rw [h] at halike
      generalize rule.body = b at halike proper
      cases halike
      exact proper _ rfl
    rw [Grammar.step_rule hr proper, Grammar.step_rule hr' proper']
    refine (hI.exec_meets hrun (plan_alike halike v) hs).bind ?_
    rintro r t _ t' ⟨rfl, ht⟩
    cases r with
    | parsed x w => exact .ok rfl rfl ⟨rfl, ht⟩
    | failed f =>
      obtain ⟨f₁, u, u', hx, hx', hu⟩ := hI.reported hpq ht v f run run'
      exact .ok hx hx' ⟨rfl, hu⟩

omit [CustomMatcher κ] in
/-- States are such a relation, if corresponding rules are answered with what they show. -/
theorem keeps_statesWith {J J' : Derivation κ → Prop} (h : ∀ p q, K.rules p q → g.Answers J False p)
    (h' : ∀ p q, K.rules p q → g'.Answers J' False q) : K.Keeps (K.StatesWith J J') where
  policies hs := hs.context.whitespace
  answered hpq hs := by
    obtain ⟨e, d, he, hshows, hd⟩ := (h _ _ hpq _ hs.sure).exists_ok
    obtain ⟨e', d', he', hshows', hd'⟩ := (h' _ _ hpq _ hs.sure').exists_ok
    exact ⟨e, d, e', d', he, he', (shows_alike hshows hshows' hpq).prefixes, hd, hd', hs.context⟩
  entered hscope hs := ⟨hs.sure, hs.sure', hs.context.enter hscope⟩
  left hscope hs ht := ⟨ht.sure, ht.sure', hs.context.leave ht.context hscope⟩
  reported {_ _ s s'} hpq hs v f run run' := by
    obtain ⟨policy, policy'⟩ := exists_rules_of_policies hs.context.whitespace
    have answered (P : RuleId) (hP : s.context.whitespace = some P) : g.Answers J False P := by
      obtain ⟨_, hP⟩ := policy P hP
      exact h _ _ hP
    have answered' (P : RuleId) (hP : s'.context.whitespace = some P) : g'.Answers J' False P := by
      obtain ⟨_, hP⟩ := policy' P hP
      exact h' _ _ hP
    obtain ⟨f₁, d, hx, hstamps, hd⟩ := Grammar.report_answered (h _ _ hpq) (fun _ _ _ => answered) hs.sure v f run
    obtain ⟨f₁', d', hx', hstamps', hd'⟩ :=
      Grammar.report_answered (h' _ _ hpq) (fun _ _ _ => answered') hs.sure' v f run'
    cases stamps_alike hpq hs.context.whitespace hstamps hstamps'
    exact ⟨f₁, _, _, hx, hx', hd, hd', hs.context.record f₁⟩

omit [CustomMatcher κ] in
/-- In grammars whose derivations meet no cycle, states with sure bookkeeping are such a relation. -/
theorem keeps_states (hg : g.IsStraight) (hg' : g'.IsStraight) : K.Keeps K.States :=
  keeps_statesWith (fun _ _ hpq => hg.answers (lt_size hpq)) fun _ _ hpq => hg'.answers (lt_size' hpq)

/-- **Corresponding rules run in step**, by induction on the fuel of the first. The first run is unfinished before the
second only if it has not the fuel for all layers, and the second before the first only if it has less. -/
theorem parse_meets (hg : g.IsStraight) (hg' : g'.IsStraight) (fuel fuel' : Nat) (v : View) (hpq : K.rules p q)
    (hs : K.States s s') :
    Meets (¬ fuel' * (K.depth + 1) + K.lag p ≤ fuel) (¬ fuel ≤ fuel') (g.parse fuel p v) s (g'.parse fuel' q v) s'
      (fun r t r' t' => r = r' ∧ K.States t t') K.States := by
  induction fuel generalizing fuel' p q v s s' with
  | zero =>
    by_cases h : fuel' * (K.depth + 1) + K.lag p ≤ 0
    · -- then there is no fuel for the second run either
      have none : fuel' = 0 := by
        by_contra hne
        exact absurd h (Nat.not_le_of_gt (Nat.add_pos_left (Nat.mul_pos (Nat.pos_of_ne_zero hne) K.depth.succ_pos) _))
      subst none
      exact .error rfl rfl hs
    · exact .left rfl h
  | succ fuel ih =>
    cases K.corresponds hpq with
    | alike hr hr' halike hlabel =>
      cases fuel' with
      | zero => exact .right rfl (Nat.not_succ_le_zero fuel)
      | succ fuel' =>
        rw [Grammar.parse, Grammar.parse]
        refine (keeps_states hg hg').step_meets (fun p' q' v s s' hpq' hs => ?_) hpq hr hr' halike hlabel v hs
        refine (ih fuel' v hpq' hs).imp (fun hless hmore => hless ?_)
          (fun hless hle => hless (Nat.le_of_succ_le_succ hle)) fun _ _ _ _ h => h
        have hlag := K.lag_le p'
        rw [Nat.succ_mul] at hmore
        omega
    | layer hr hlayer hinner hlag hbare =>
      have hpolicy : s.context.whitespace = none := (hbare _ _ hs.context.whitespace).1
      have layer := Grammar.parse_layer hg hr hlayer hs.sure hpolicy fuel (v := v)
      cases ih fuel' v hinner hs with
      | ok hx hy h =>
        obtain ⟨rfl, ht⟩ := h
        obtain ⟨d, hlayer, hd⟩ := layer.ok hx
        exact .ok hlayer hy ⟨rfl, hd, ht.sure', ht.context⟩
      | error hx hy h => exact .error (layer.error hx) hy h
      | left hx h => exact .left (layer.error hx) fun hmore => h (by omega)
      | right hy h => exact .right hy fun hle => h (by omega)

/-- Without layers the same fuel does for both. -/
theorem parse_both (hg : g.IsStraight) (hg' : g'.IsStraight) (hdepth : K.depth = 0) (fuel : Nat) (v : View)
    (hpq : K.rules p q) (hs : K.States s s') :
    EnsuresBoth (g.parse fuel p v) s (g'.parse fuel q v) s' (fun r t r' t' => r = r' ∧ K.States t t') K.States := by
  have hlag : K.lag p = 0 := Nat.le_zero.mp (hdepth ▸ K.lag_le p)
  refine (parse_meets hg hg' fuel fuel v hpq hs).ensuresBoth (not_not_intro ?_) (not_not_intro (Nat.le_refl fuel))
  rw [hdepth, hlag]
  omega

end Run

end Counterpart

end Descent
