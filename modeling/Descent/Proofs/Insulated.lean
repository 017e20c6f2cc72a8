import Descent.Matcher.Fixed
import Descent.Proofs.Counterpart.Part
import Descent.Proofs.Run.Noted

/-!
# A policy of one's own

A rule that runs another one under a policy of its own hides the policy around it (`Grammar.policy_insulated`). The run
inside starts from one and the same state, whatever policy is set aside for it. What comes after is the delicate part:
the failure that comes out is stamped when the policy outside is active again. There the policy is asked for its
matchers if the expectation of the rule is ambient, and that of such a rule never is.

For the run itself this is a fact about any grammar, hand-written rules and policies included. All it takes is that
what is kept for such rules is not ambient either, and so it is however requests and runs end (`Derivation.Insulated`).
Two runs one after the other do not find the same kept, though; for them the rule is to be straight, and then each is
compared with a run of the straight part of the grammar (`Grammar.parse_within_straightPart`). A second policy around
the first is no more than a layer there: what it reports has been reported in the same words before.
-/

namespace Descent

variable {κ α : Type}

/-! ## 1. Expectations under a policy -/

/-- A rule that runs another one under a policy of its own. -/
def Grammar.IsWithin (g : Grammar κ) (id : RuleId) : Prop :=
  ∃ label inner policy, g.rule? id = some ⟨label, .within inner policy⟩

/-- What is kept for rules with a policy of their own is not ambient. -/
def Derivation.Insulated (d : Derivation κ) (g : Grammar κ) : Prop :=
  ∀ id e, d.known? id = some e → g.IsWithin id → e.ambient = false

section Requests

variable [DecidableEq κ] {g : Grammar κ}

/-- Whatever a walk reads, the answer for a rule with a policy of its own is not ambient. -/
theorem Body.Derives.not_ambient {R : Account κ} {inner : RuleId} {policy : Option RuleId} {e : Expectation κ}
    {d d' : Derivation κ} (h : (Body.within inner policy).Derives R d e d') : e.ambient = false := by
  cases h with
  | own h => cases h
  | passed h => cases h
  | without => exact Expectation.ambient_withWhitespace _
  | under => exact Expectation.ambient_withWhitespace _

theorem Grammar.expectationWithin_insulated (fuel : Nat) (id : RuleId) {d : Derivation κ} (hd : d.Insulated g) :
    Ensures (g.expectationWithin fuel id) d (fun e d' => (g.IsWithin id → e.ambient = false) ∧ d'.Insulated g)
      fun _ d' => d'.Insulated g := by
  induction fuel generalizing id d with
  | zero => exact hd
  | succ fuel ih =>
    apply Grammar.expectationWithin_ensures
    case absent => exact fun _ => hd
    case unresolved => exact fun _ _ => ⟨fun _ => rfl, hd⟩
    case target =>
      intro label target hr
      refine (ih target hd).imp_ok fun e d' h => ⟨?_, h.2⟩
      rintro ⟨label', inner, policy, hr'⟩
      cases hr.symm.trans hr'
    case known => exact fun _ e _ _ hknown => ⟨hd id e hknown, hd⟩
    case mute =>
      refine fun _ _ _ _ _ => ⟨fun _ => rfl, fun q e hq => ?_⟩
      rw [Derivation.known?_keep] at hq
      split at hq
      · cases hq
        exact fun _ => rfl
      · exact hd q e hq
    case cut => exact fun _ _ _ _ _ => ⟨fun _ => rfl, hd⟩
    case walk =>
      intro rule walk hr hwalk _ _
      refine (Body.derived?_ensures (R := fun _ _ _ _ => True) (P := fun d => d.Insulated g)
        (E := fun _ d => d.Insulated g) (d := d.enter id) hwalk ?_ ?_ hd).imp ?_ ?_
      · exact fun q _ d hd => (ih q hd).imp_ok fun _ _ h => ⟨trivial, h.2⟩
      · exact fun _ _ _ d hd => ⟨fun _ => hd, fun _ _ _ => hd⟩
      · rintro e inner ⟨hderives, hinner⟩
        have plain : g.IsWithin id → e.ambient = false := by
          rintro ⟨label, p, policy, hr'⟩
          cases hr.symm.trans hr'
          exact hderives.not_ambient
        refine ⟨plain, fun q e' hq => ?_⟩
        rcases Derivation.known?_conclude hq with hq | ⟨rfl, rfl, -⟩
        · exact hinner q e' hq
        · exact plain
      · exact fun _ _ h => h

/-- However a request or a run ends, what it leaves is insulated. -/
theorem Grammar.parse_insulated [CustomMatcher κ] (g : Grammar κ) (fuel : Nat) (id : RuleId) (v : View)
    (s : ParseState κ) (hs : s.derivation.Insulated g) :
    Leaves (g.parse fuel id v) s fun t => t.derivation.Insulated g :=
  g.parse_bookkeeping (fun _ h => h)
    (fun id _ hd => (expectationWithin_insulated g.derivationFuel id hd).imp_ok fun _ _ h => h.2) fuel id v s hs

end Requests

/-! ## 2. From the same bookkeeping -/

/-- The state with another policy in the place of its own. -/
def ParseState.under (s : ParseState κ) (policy : Option RuleId) : ParseState κ :=
  { s with context := { s.context with whitespace := policy } }

section Same

variable [DecidableEq κ]

/-- What is recorded has nothing to do with the policy. -/
theorem Context.record_under (c : Context κ) (policy : Option RuleId) (f : Failure κ) :
    Context.record { c with whitespace := policy } f = { c.record f with whitespace := policy } := by
  rw [record, record]
  split <;> rfl

variable {g : Grammar κ} {id : RuleId} {v : View} {s : ParseState κ}

/-- A rule that is not ambient reports without a look at the policy. -/
theorem Grammar.report_under (policy : Option RuleId) (run : Runner κ) (r : Result κ)
    (hambient : Ensures (g.expectation id) s.derivation (fun e _ => e.ambient = false) fun _ _ => True) :
    EnsuresBoth (g.report run id v r) s (g.report run id v r) (s.under policy)
      (fun r t r' t' => r = r' ∧ t' = t.under policy) fun t t' => t' = t.under policy := by
  have stamped : EnsuresBoth ((Plan.stamp id v r).exec g run) s ((Plan.stamp id v r).exec g run) (s.under policy)
      (fun r t r' t' => r = r' ∧ t' = t.under policy) fun t t' => t' = t.under policy := by
    cases r with
    | parsed x w => exact ⟨rfl, rfl⟩
    | failed f =>
      rw [Plan.stamp]
      split
      · have asked : EnsuresBoth (Parse.ofDerive (g.expectation id)) s (Parse.ofDerive (g.expectation id))
            (s.under policy) (fun e t e' t' => e = e' ∧ e.ambient = false ∧ t' = t.under policy)
            fun t t' => t' = t.under policy := by
          unfold EnsuresBoth Parse.ofDerive ParseState.under
          dsimp only
          cases he : g.expectation id s.derivation with
          | error why d => exact ⟨rfl, rfl⟩
          | ok e d => exact ⟨rfl, hambient.ok he, rfl⟩
        refine asked.bind ?_
        rintro e t _ _ ⟨rfl, he, rfl⟩
        dsimp only
        rw [if_neg (by simp [he])]
        exact ⟨rfl, rfl⟩
      · exact ⟨rfl, rfl⟩
  refine stamped.bind ?_
  rintro r t _ _ ⟨rfl, rfl⟩
  cases r with
  | parsed x w => exact ⟨rfl, rfl⟩
  | failed f =>
    exact ⟨rfl, congrArg (ParseState.mk t.derivation) (t.context.record_under policy f)⟩

variable [CustomMatcher κ]

/-- A rule with a policy of its own runs the inner rule under it, and reports what that comes to. -/
theorem Grammar.step_within {run : Runner κ} {label : Option String} {inner : RuleId} {W : Option RuleId}
    (hr : g.rule? id = some ⟨label, .within inner W⟩) :
    g.step run id v = Parse.underPolicy W (run inner v) >>= g.report run id v := by
  rw [Grammar.step_rule hr (by simp), Body.plan, Plan.exec, Scope.around]
  exact congrArg (· >>= g.report run id v) (bind_pure _)

/-- From the same bookkeeping, another policy outside leads to the same, with that policy in its place. -/
theorem Grammar.parse_under {label : Option String} {inner : RuleId} {W : Option RuleId}
    (hr : g.rule? id = some ⟨label, .within inner W⟩) (hs : s.derivation.Insulated g) (policy : Option RuleId)
    (fuel : Nat) : EnsuresBoth (g.parse fuel id v) s (g.parse fuel id v) (s.under policy)
      (fun r t r' t' => r = r' ∧ t' = t.under policy) fun t t' => t' = t.under policy := by
  cases fuel with
  | zero => exact ⟨rfl, rfl⟩
  | succ fuel =>
    rw [Grammar.parse, Grammar.step_within hr]
    have inside : EnsuresBoth (Parse.underPolicy W (g.parse fuel inner v)) s (Parse.underPolicy W (g.parse fuel inner v))
        (s.under policy) (fun r t r' t' => r = r' ∧ t.derivation.Insulated g ∧ t' = t.under policy)
        fun t t' => t' = t.under policy := by
      -- both enter one state
      have kept := g.parse_insulated fuel inner v (s.under W) hs
      unfold EnsuresBoth Parse.underPolicy Parse.bracketed
      dsimp only [ParseState.under]
      cases hx : g.parse fuel inner v ⟨s.derivation, { s.context with whitespace := W }⟩ with
      | error why t => exact ⟨rfl, rfl⟩
      | ok r t =>
        have ht : t.derivation.Insulated g := kept.ok hx
        exact ⟨rfl, ht, rfl⟩
    refine inside.bind ?_
    rintro r t _ _ ⟨rfl, ht, rfl⟩
    refine Grammar.report_under policy _ r ((expectationWithin_insulated g.derivationFuel id ht).imp ?_ ?_)
    · exact fun e _ h => h.1 ⟨label, inner, W, hr⟩
    · exact fun _ _ _ => trivial

end Same

/-! ## 3. From any bookkeeping -/

section Sure

variable [DecidableEq κ] {g g' : Grammar κ} {id p q : RuleId} {v : View} {s s' : ParseState κ}
  {J J' : Derivation κ → Prop}

/-- States that differ in what is kept, and in how much is logged, and perhaps in their policies; with bookkeeping of
some kind. -/
structure ParseState.SiblingWith (J J' : Derivation κ → Prop) (s s' : ParseState κ) : Prop where
  sure : J s.derivation
  sure' : J' s'.derivation
  suspended : s.context.suspended = s'.context.suspended
  furthest : s.context.furthest = s'.context.furthest

/-- States of that kind with sure bookkeeping. -/
abbrev ParseState.Sibling (g : Grammar κ) : ParseState κ → ParseState κ → Prop :=
  ParseState.SiblingWith (·.Sure g) (·.Sure g)

theorem ParseState.SiblingWith.record (h : s.SiblingWith J J' s') (f : Failure κ) :
    ParseState.SiblingWith J J' { s with context := s.context.record f }
      { s' with context := s'.context.record f } := by
  obtain ⟨hd, hd', hsuspended, hfurthest⟩ := h
  refine ⟨hd, hd', ?_, ?_⟩
  all_goals
    dsimp only
    rw [Context.record, Context.record, hsuspended, hfurthest]
    split
    · assumption
    · rfl

/-- A rule under a policy shows what the inner rule comes to under the policy. -/
theorem Grammar.Shows.within {label : Option String} {inner : RuleId} {P : Option RuleId} {e : Expectation κ}
    (h : g.Shows id e) (hr : g.rule? id = some ⟨label, .within inner P⟩) :
    ∃ e₀ ms, g.Shows inner e₀ ∧ g.Allows P ms ∧ e = e₀.withWhitespace ms := by
  cases h with
  | @rule _ _ S hr' _ hshows =>
    cases hr.symm.trans hr'
    cases P with
    | none => exact ⟨S inner, [], hshows inner List.mem_cons_self, .none, rfl⟩
    | some P =>
      exact ⟨S inner, _, hshows inner (List.mem_cons_of_mem _ List.mem_cons_self),
        .some (hshows P List.mem_cons_self), rfl⟩

/-- A rule with a policy of its own shows nothing ambient. -/
theorem Grammar.Shows.not_ambient {label : Option String} {inner : RuleId} {W : Option RuleId}
    (hr : g.rule? id = some ⟨label, .within inner W⟩) {e : Expectation κ} (h : g.Shows id e) : e.ambient = false := by
  obtain ⟨e₀, ms, -, -, rfl⟩ := h.within hr
  exact Expectation.ambient_withWhitespace ms

/-- A policy around a rule that has one of its own already is not shown. -/
theorem Grammar.shows_nested (hg : g.IsStraight) {label label' : Option String} {inner outer : RuleId}
    {W W' : Option RuleId} (hr : g.rule? id = some ⟨label, .within inner W⟩)
    (hr' : g.rule? outer = some ⟨label', .within id W'⟩) {e : Expectation κ} (h : g.Shows outer e) : g.Shows id e := by
  obtain ⟨e₀, he₀⟩ := exists_shows hg (lt_size_of_rule? hr)
  have plain (ms : List (Matcher κ)) : e₀.withWhitespace ms = e₀ := if_neg (by simp [he₀.not_ambient hr])
  suffices he : e = e₀ from he ▸ he₀
  cases h with
  | rule hrule _ hshows =>
    cases hr'.symm.trans hrule
    cases W' with
    | none =>
      rw [Body.shown, (hshows id List.mem_cons_self).unique he₀, plain]
    | some P =>
      rw [Body.shown, (hshows id (List.mem_cons_of_mem _ List.mem_cons_self)).unique he₀, plain]

/-- A rule under a policy has nothing to add to a failure that says all that the inner rule says under the policy. -/
theorem Grammar.Says.within {label : Option String} {inner : RuleId} {P : Option RuleId} {f : Failure κ}
    (h : g.Says P inner v f) (hr : g.rule? id = some ⟨label, .within inner P⟩) (W : Option RuleId) :
    g.Says W id v f := by
  intro f' hstamps
  cases hstamps with
  | deeper => rfl
  | entry ho he _ =>
    obtain ⟨e₀, ms, he₀, hms, rfl⟩ := he.within hr
    rw [Expectation.allowed_of_not_ambient (Expectation.ambient_withWhitespace ms), Failure.stampedBy,
      Expectation.prefixes_withWhitespace, Expectation.whitespace_withWhitespace]
    exact h _ (.entry ho he₀ fun _ => hms)

namespace Counterpart

variable {K : Counterpart g g'}

/-- Where nothing is ambient, corresponding rules report failures alike under all policies. -/
theorem report_sibling (hpq : K.rules p q) (hp : g.Answers J False p) (hq : g'.Answers J' False q)
    (hambient : ∀ e, g.Shows p e → e.ambient = false) (hambient' : ∀ e, g'.Shows q e → e.ambient = false)
    (run run' : Runner κ) (r : Result κ) (hs : s.SiblingWith J J' s') :
    EnsuresBoth (g.report run p v r) s (g'.report run' q v r) s' (fun r t r' t' => r = r' ∧ t.SiblingWith J J' t')
      (·.SiblingWith J J') := by
  cases r with
  | parsed x w => exact ⟨rfl, hs⟩
  | failed f =>
    obtain ⟨f₁, d, hx, hstamps, hd⟩ := Grammar.report_answered hp
      (fun e he ha => nomatch (hambient e he).symm.trans ha) hs.sure v f run
    obtain ⟨f₁', d', hx', hstamps', hd'⟩ := Grammar.report_answered hq
      (fun e he ha => nomatch (hambient' e he).symm.trans ha) hs.sure' v f run'
    obtain rfl : f₁ = f₁' := by
      cases hstamps with
      | deeper ho =>
        cases hstamps' with
        | deeper => rfl
        | entry ho' => exact absurd ho' ho
      | @entry e ms ho he =>
        cases hstamps' with
        | deeper ho' => exact absurd ho ho'
        | @entry e' ms' _ he' =>
          have same := shows_alike he he' hpq
          rw [e.allowed_of_not_ambient (hambient e he), e'.allowed_of_not_ambient (hambient' e' he'),
            Failure.stampedBy, Failure.stampedBy, same.prefixes, same.whitespace]
    have sibling : ParseState.SiblingWith J J' ⟨d, s.context⟩ ⟨d', s'.context⟩ :=
      ⟨hd, hd', hs.suspended, hs.furthest⟩
    unfold EnsuresBoth
    rw [hx, hx']
    exact ⟨rfl, sibling.record f₁⟩

variable [CustomMatcher κ]

/-- Corresponding rules that set a policy come to the same from all siblings, if what they run does under the policy. -/
theorem parse_sibling (hpq : K.rules p q) (hp : g.Answers J False p) (hq : g'.Answers J' False q)
    {label label' : Option String} {inner inner' : RuleId} {W : Option RuleId}
    (hr : g.rule? p = some ⟨label, .within inner W⟩) (hr' : g'.rule? q = some ⟨label', .within inner' W⟩) {fuel : Nat}
    (inside : EnsuresBoth (g.parse fuel inner v) (s.under W) (g'.parse fuel inner' v) (s'.under W)
      (fun r t r' t' => r = r' ∧ K.StatesWith J J' t t') (K.StatesWith J J')) :
    EnsuresBoth (g.parse (fuel + 1) p v) s (g'.parse (fuel + 1) q v) s'
      (fun r t r' t' => r = r' ∧ t.SiblingWith J J' t') (·.SiblingWith J J') := by
  rw [Grammar.parse, Grammar.parse, Grammar.step_within hr, Grammar.step_within hr']
  refine (EnsuresBoth.bracketed (Q := fun r t r' t' => r = r' ∧ t.SiblingWith J J' t') (inside.imp ?_ ?_)).bind ?_
  · exact fun r t r' t' h => ⟨h.1, h.2.sure, h.2.sure', h.2.context.suspended, h.2.context.furthest⟩
  · exact fun t t' h => ⟨h.sure, h.sure', h.context.suspended, h.context.furthest⟩
  · rintro r t _ t' ⟨rfl, ht⟩
    exact K.report_sibling hpq hp hq (fun e he => he.not_ambient hr) (fun e he => he.not_ambient hr') _ _ r ht

end Counterpart

variable [CustomMatcher κ]

/-- A rule with a policy of its own comes to the same from all siblings. -/
theorem Grammar.parse_sibling (hg : g.IsStraight) {label : Option String} {inner : RuleId} {W : Option RuleId}
    (hr : g.rule? id = some ⟨label, .within inner W⟩) (fuel : Nat) (hs : s.Sibling g s') :
    EnsuresBoth (g.parse fuel id v) s (g.parse fuel id v) s' (fun r t r' t' => r = r' ∧ t.Sibling g t')
      (·.Sibling g) := by
  cases fuel with
  | zero => exact ⟨rfl, hs⟩
  | succ fuel =>
    let K : Counterpart g g := .self hg.library hg.closed
    have present : ∀ q ∈ inner :: W.toList, K.rules q q := fun q hq => ⟨rfl, hg.closed id _ hr q hq⟩
    have policies : K.policies W W := by
      cases W with
      | none => exact .none
      | some P => exact .some (present P (List.mem_cons_of_mem _ List.mem_cons_self))
    have answers : g.Answers (·.Sure g) False id := hg.answers (lt_size_of_rule? hr)
    have states : K.States (s.under W) (s'.under W) := ⟨hs.sure, hs.sure', policies, hs.suspended, hs.furthest⟩
    exact K.parse_sibling ⟨rfl, lt_size_of_rule? hr⟩ answers answers hr hr
      (Counterpart.parse_both hg hg rfl fuel v (present inner List.mem_cons_self) states)

/-- **A rule under a policy does what the inner rule does under the policy.** It reports a failure once more, but that
has been noted and says all that there is to say. -/
theorem Grammar.parse_within (hg : g.IsStraight) {label : Option String} {inner : RuleId} {P : Option RuleId}
    (hr : g.rule? id = some ⟨label, .within inner P⟩) (hs : s.derivation.Sure g) (fuel : Nat) :
    Ensures (Parse.underPolicy P (g.parse fuel inner v)) s
      (fun r t => ∃ d, g.parse (fuel + 1) id v s = .ok r { t with derivation := d } ∧ d.Sure g)
      fun why t => g.parse (fuel + 1) id v s = .error why t := by
  rw [Grammar.parse, Grammar.step_within hr, Parse.underPolicy]
  apply Parse.ensures_bracketed.mpr
  refine (ensures_self (g.parse fuel inner v) (s.under P)).imp ?_ ?_
  · intro r t hrun
    rw [bind_apply_of_ok (Parse.bracketed_of_ok hrun)]
    have sure : t.derivation.Sure g := (g.parse_sure hg fuel inner v (s.under P) hs).ok hrun
    refine Grammar.report_said hg (lt_size_of_rule? hr) _ sure ?_ ?_
    · intro f hf
      subst hf
      have said : g.Says P inner v f := Grammar.parse_said hg (s := s.under P) hs hrun
      exact ⟨said.within hr _, Context.notes_under_iff.mpr (Grammar.parse_noted hg.library hrun)⟩
    · exact fun e he ha => absurd ((he.not_ambient hr).symm.trans ha) Bool.false_ne_true
  · intro why t hrun
    exact bind_apply_of_error (Parse.bracketed_of_error hrun)

/-! ## 4. One policy around another -/

/-- A policy around a rule that has one of its own already makes no difference to what the rule comes to. -/
theorem Grammar.parse_nested (hg : g.IsStraight) {label label' : Option String} {inner outer : RuleId}
    {W W' : Option RuleId} (hr : g.rule? id = some ⟨label, .within inner W⟩)
    (hr' : g.rule? outer = some ⟨label', .within id W'⟩) (fuel : Nat) (hs : s.Sibling g s') :
    EnsuresBoth (g.parse (fuel + 1) outer v) s (g.parse fuel id v) s' (fun r t r' t' => r = r' ∧ t.Sibling g t')
      (·.Sibling g) := by
  have entered : (s.under W').Sibling g s' := ⟨hs.sure, hs.sure', hs.suspended, hs.furthest⟩
  have inside := Grammar.parse_sibling hg hr fuel entered (v := v)
  have outside := Grammar.parse_within (v := v) hg hr' hs.sure fuel
  unfold EnsuresBoth
  cases hx : g.parse fuel id v (s.under W') with
  | ok r t =>
    obtain ⟨_, t', hy, rfl, ht⟩ := inside.ok hx
    obtain ⟨d, hrun, hd⟩ := outside.ok (Parse.bracketed_of_ok hx)
    simp only [hrun, hy]
    exact ⟨trivial, hd, ht.sure', ht.suspended, ht.furthest⟩
  | error why t =>
    obtain ⟨t', hy, ht⟩ := inside.error hx
    simp only [outside.error (Parse.bracketed_of_error hx), hy]
    exact ⟨trivial, ht.sure, ht.sure', ht.suspended, ht.furthest⟩

/-! ## 5. Straight rules -/

/-- States of a grammar and of its straight part that are siblings. -/
abbrev ParseState.SiblingInPart (g : Grammar κ) : ParseState κ → ParseState κ → Prop :=
  ParseState.SiblingWith (·.SureOfStraight g) (·.Sure g.straightPart)

/-- A straight rule with a policy of its own comes to the same in the straight part, whatever the policies outside are.
-/
theorem Grammar.parse_within_straightPart (hp : g.IsStraightFrom p) {label : Option String} {inner : RuleId}
    {W : Option RuleId} (hr : g.rule? p = some ⟨label, .within inner W⟩) (fuel : Nat) (v : View)
    (hs : s.SiblingInPart g s') :
    EnsuresBoth (g.parse fuel p v) s (g.straightPart.parse fuel p v) s'
      (fun r t r' t' => r = r' ∧ t.SiblingInPart g t') (·.SiblingInPart g) := by
  cases fuel with
  | zero => exact ⟨rfl, hs⟩
  | succ fuel =>
    have same (q : RuleId) (hq : q ∈ inner :: W.toList) : g.sameStraight.rules q q := ⟨rfl, hp.refers ⟨_, hr, hq⟩⟩
    have policies : g.sameStraight.policies W W := by
      cases W with
      | none => exact .none
      | some P => exact .some (same P (List.mem_cons_of_mem _ List.mem_cons_self))
    have states : g.InPart (s.under W) (s'.under W) := ⟨hs.sure, hs.sure', policies, hs.suspended, hs.furthest⟩
    have inside := Grammar.parse_straightPart (same inner List.mem_cons_self).2 fuel v states
    have corresponds : g.sameStraight.rules p p := ⟨rfl, hp⟩
    exact Counterpart.parse_sibling corresponds hp.answers (answers_sameStraight p p corresponds) hr
      ((rule?_straightPart hp).trans hr) (inside.ensuresBoth id id)

/-- **A policy of one's own hides the one outside.** From the same bookkeeping, as requests and runs leave it, a rule
that runs another one under a policy comes to the same result or the same fault, and to the same record, in contexts
that differ in their policies; whatever the grammar is, and whatever these policies are. If no derivation from the rule
meets a cycle, then runs from any two such bookkeepings come to the same, and a second policy around the first is
neither shown nor seen. -/
theorem Grammar.policy_insulated {w : RuleId} {label : Option String} {inner : RuleId} {W : Option RuleId}
    (hw : g.rule? w = some ⟨label, .within inner W⟩) (fuel : Nat) (v : View) (c : Context κ) (policy : Option RuleId) :
    (∀ d : Derivation κ, d.Insulated g →
      EnsuresBoth (g.parse fuel w v) ⟨d, c⟩ (g.parse fuel w v) ⟨d, { c with whitespace := policy }⟩
        (fun r t r' t' => r = r' ∧ t.context.furthest = t'.context.furthest)
        fun t t' => t.context.furthest = t'.context.furthest) ∧
    (g.IsStraightFrom w → ∀ d d' : Derivation κ, d.SureOfStraight g → d'.SureOfStraight g →
      EnsuresBoth (g.parse fuel w v) ⟨d, c⟩ (g.parse fuel w v) ⟨d', { c with whitespace := policy }⟩
        (fun r t r' t' => r = r' ∧ t.context.furthest = t'.context.furthest)
        (fun t t' => t.context.furthest = t'.context.furthest) ∧
      ∀ outer label' W', g.rule? outer = some ⟨label', .within w W'⟩ → g.IsStraightFrom outer →
        (∃ e u u', g.expectation outer d = .ok e u ∧ g.expectation w d' = .ok e u') ∧
        EnsuresBoth (g.parse (fuel + 1) outer v) ⟨d, c⟩ (g.parse fuel w v) ⟨d', c⟩
          (fun r t r' t' => r = r' ∧ t.context.furthest = t'.context.furthest)
          fun t t' => t.context.furthest = t'.context.furthest) := by
  -- both runs are compared with those of the straight part, from one state
  have fresh := Derivation.sure_fresh g.straightPart
  have beside {d : Derivation κ} (hd : d.SureOfStraight g) (policy : Option RuleId) :
      ParseState.SiblingInPart g ⟨d, { c with whitespace := policy }⟩ ⟨.fresh, c⟩ := ⟨hd, fresh, rfl, rfl⟩
  refine ⟨fun d hd => ?_, fun hstraight d d' hd hd' => ⟨?_, fun outer label' W' houter houtside => ⟨?_, ?_⟩⟩⟩
  · refine (Grammar.parse_under hw (s := ⟨d, c⟩) hd policy fuel).imp ?_ ?_
    · rintro r t r' _ ⟨hr, rfl⟩
      exact ⟨hr, rfl⟩
    · rintro t _ rfl
      rfl
  · have here := Grammar.parse_within_straightPart hstraight hw fuel v (beside hd c.whitespace)
    have there := Grammar.parse_within_straightPart hstraight hw fuel v (beside hd' policy)
    refine (here.trans there.symm).imp ?_ ?_
    · rintro r t r' t' ⟨_, u, ⟨rfl, ht⟩, rfl, ht'⟩
      exact ⟨rfl, ht.furthest.trans ht'.furthest.symm⟩
    · rintro t t' ⟨u, ht, ht'⟩
      exact ht.furthest.trans ht'.furthest.symm
  · obtain ⟨e, u, he, hshows, -⟩ := (houtside.answers d hd).exists_ok
    obtain ⟨e', u', he', hshows', -⟩ := (hstraight.answers d' hd').exists_ok
    have shows := Grammar.shows_nested g.isStraight_straightPart ((rule?_straightPart hstraight).trans hw)
      ((rule?_straightPart houtside).trans houter) ((shows_straightPart houtside).mpr hshows)
    cases ((shows_straightPart hstraight).mp shows).unique hshows'
    exact ⟨e, u, u', he, he'⟩
  · have siblings : ParseState.Sibling g.straightPart ⟨.fresh, c⟩ ⟨.fresh, c⟩ := ⟨fresh, fresh, rfl, rfl⟩
    have outside := Grammar.parse_within_straightPart houtside houter (fuel + 1) v (beside hd c.whitespace)
    have nested := Grammar.parse_nested (v := v) g.isStraight_straightPart ((rule?_straightPart hstraight).trans hw)
      ((rule?_straightPart houtside).trans houter) fuel siblings
    have inside := Grammar.parse_within_straightPart hstraight hw fuel v (beside hd' c.whitespace)
    refine ((outside.trans nested).trans inside.symm).imp ?_ ?_
    · rintro r t r' t' ⟨_, u', ⟨_, u, ⟨rfl, ht⟩, rfl, hu⟩, rfl, ht'⟩
      exact ⟨rfl, ht.furthest.trans (hu.furthest.trans ht'.furthest.symm)⟩
    · rintro t t' ⟨u', ⟨u, ht, hu⟩, ht'⟩
      exact ht.furthest.trans (hu.furthest.trans ht'.furthest.symm)

end Sure

/-- A letter after blanks, whatever the policy outside is; once more, with another policy around that; and a letter that
may be the policy outside. The last rule is a choice of that letter or itself. -/
def hidden : Grammar FixedMatcher where
  rules := #[⟨none, .token (.charClass ⟨.set (.between ' ' ' '), " ", false⟩) none⟩,
    ⟨none, .token (.charClass ⟨.set (.between 'b' 'b'), "b", false⟩) none⟩, ⟨none, .skipping 1⟩,
    ⟨none, .within 2 (some 0)⟩, ⟨none, .token (.charClass ⟨.set (.between 'd' 'd'), "d", false⟩) none⟩,
    ⟨none, .within 3 (some 4)⟩, ⟨none, .either [4, 6]⟩]
  names := []
  customs := 0

/-- All but the last refer to rules before them. -/
theorem hidden_isStraightFrom : ∀ p ∈ [0, 1, 2, 3, 4, 5], hidden.IsStraightFrom p :=
  .of_rank (fun p => p) (by decide)

/-- On a letter that is none of them, the failure names the blank as whitespace, and not the letter outside. That the
last rule reads itself, and has been requested, makes no difference. -/
theorem policy_insulated_hidden :
    let v := View.ofSource ⟨0, ['c']⟩
    let c : Context FixedMatcher := .fresh none 0
    let blank : Matcher FixedMatcher := .charClass ⟨.set (.between ' ' ' '), " ", false⟩
    hidden.rule? 3 = some ⟨none, .within 2 (some 0)⟩ ∧ hidden.IsStraightFrom 5 ∧ hidden.Consults 6 6 ∧
      ∃ d₀ e₁ d₁ e d, d₀ = .fresh ∧ hidden.expectation 6 d₀ = .ok e₁ d₁ ∧ hidden.expectation 5 d₁ = .ok e d ∧
        d.SureOfStraight hidden ∧ d.known? 5 ≠ none ∧ d.known? 6 ≠ none ∧
        (∃ r t, hidden.parse 4 3 v ⟨d, { c with whitespace := some 4 }⟩ = .ok r t ∧
          t.context.furthest.map (·.whitespace) = some [blank]) ∧
        EnsuresBoth (hidden.parse 4 3 v) ⟨d₀, c⟩ (hidden.parse 4 3 v) ⟨d, { c with whitespace := some 4 }⟩
          (fun r t r' t' => r = r' ∧ t.context.furthest = t'.context.furthest)
          (fun t t' => t.context.furthest = t'.context.furthest) ∧
        EnsuresBoth (hidden.parse 5 5 v) ⟨d₀, c⟩ (hidden.parse 4 3 v) ⟨d, c⟩
          (fun r t r' t' => r = r' ∧ t.context.furthest = t'.context.furthest)
          fun t t' => t.context.furthest = t'.context.furthest := by
  intro v c blank
  have hr : hidden.rule? 3 = some ⟨none, .within 2 (some 0)⟩ := rfl
  obtain ⟨d₀, hd₀⟩ : ∃ d₀ : Derivation FixedMatcher, d₀ = .fresh := ⟨_, rfl⟩
  have fresh : d₀.SureOfStraight hidden := hd₀ ▸ Derivation.sureOfStraight_fresh hidden
  obtain ⟨e, d, he, hknown, hcircle, hrun⟩ := Ensures.exists_ok
    (x := hidden.expectation 6 >>= fun _ => hidden.expectation 5) (s := d₀)
    (Q := fun _ d => d.known? 5 ≠ none ∧ d.known? 6 ≠ none ∧
      Ensures (hidden.parse 4 3 v) ⟨d, { c with whitespace := some 4 }⟩
        (fun _ t => t.context.furthest.map (·.whitespace) = some [blank]) fun _ _ => False)
    (by subst hd₀; decide +kernel)
  obtain ⟨e₁, d₁, he₁, he⟩ := bind_eq_ok.mp he
  have hd₁ : d₁.SureOfStraight hidden := ((hidden.expectation_ensures_straight 6 fresh).ok he₁).2
  have hd : d.SureOfStraight hidden := ((hidden.expectation_ensures_straight 5 hd₁).ok he).2
  have inner := hidden_isStraightFrom 3 (by decide)
  have outer := hidden_isStraightFrom 5 (by decide)
  obtain ⟨-, sure⟩ := Grammar.policy_insulated hr 4 v c (some 4)
  obtain ⟨siblings, nested⟩ := sure inner d₀ d fresh hd
  exact ⟨hr, outer, ⟨_, rfl, by decide⟩, d₀, e₁, d₁, e, d, hd₀, he₁, he, hd, hknown, hcircle, hrun.exists_ok, siblings,
    (nested 5 none (some 4) rfl outer).2⟩

end Descent
