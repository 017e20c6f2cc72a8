import Descent.Proofs.Derivation.Straight
import Descent.Proofs.Furthest
import Descent.Proofs.Restored
import Descent.Proofs.Run.Success

/-!
# Reported failures are final

A rule stamps a failure of its entry with what it expects there, and offers it to the record. Where the bookkeeping is
sure, what it is stamped with is no matter of what was asked before: it is what the rule shows, and what the policy
shows if the rule skips it (`Grammar.Stamps`).

**A failure that a rule has reported is final** (`Grammar.parse_final`). Stamped once more with the same matchers it is
what it was, since what has come first once may come first again; and the record has taken it into account, so that it
may be offered once more to no effect. A rule that only puts a layer around another one does both of these things again,
which is why nobody can tell that it is there.
-/

namespace Descent

variable {κ α : Type} [DecidableEq κ]

/-! ## 1. What runs do to the bookkeeping -/

section Bookkeeping

variable {g : Grammar κ} {I J : Derivation κ → Prop}

/-- A plan changes the bookkeeping through requests and calls only. -/
theorem Plan.exec_bookkeeping (hJ : ∀ d, I d → J d)
    (hI : ∀ id d, I d → Ensures (g.expectation id) d (fun _ => I) fun _ => J) {run : Runner κ}
    (hrun : ∀ id v (s : ParseState κ), I s.derivation →
      Ensures (run id v) s (fun _ t => I t.derivation) fun _ t => J t.derivation)
    (p : Plan κ α) (s : ParseState κ) (hs : I s.derivation) :
    Ensures (p.exec g run) s (fun _ t => I t.derivation) fun _ t => J t.derivation := by
  induction p generalizing s with
  | done a => exact hs
  | stop why => exact hJ _ hs
  | policy next ih => exact ih s.context.whitespace s hs
  | expect id next ih =>
    refine ensures_bind.mpr (Parse.ensures_ofDerive.mpr ?_)
    exact (hI id s.derivation hs).imp_ok fun e d hd => ih e _ hd
  | call scope id v next ih =>
    rw [Plan.exec, Scope.around_eq]
    refine ensures_bind.mpr (Parse.ensures_bracketed.mpr ?_)
    exact (hrun id v { s with context := scope.enter s.context } hs).imp_ok fun r t ht => ih r _ ht

variable [CustomMatcher κ]

/-- **What every request that is answered keeps true of the bookkeeping, a run keeps true of it**, and if it ends
without a result, it leaves what the request that was not answered did. -/
theorem Grammar.parse_bookkeeping (hJ : ∀ d, I d → J d)
    (hI : ∀ id d, I d → Ensures (g.expectation id) d (fun _ => I) fun _ => J) (fuel : Nat) (id : RuleId) (v : View)
    (s : ParseState κ) (hs : I s.derivation) :
    Ensures (g.parse fuel id v) s (fun _ t => I t.derivation) fun _ t => J t.derivation := by
  induction fuel generalizing id v s with
  | zero => exact hJ _ hs
  | succ fuel ih =>
    rw [Grammar.parse, Grammar.step_eq]
    refine ensures_bind.mpr ((Plan.exec_bookkeeping hJ hI ih (g.plan id v) s hs).imp_ok fun r t ht => ?_)
    split
    · exact ht
    · cases r with
      | parsed value rest => exact ht
      | failed f => exact ht

/-- A run leaves sure bookkeeping sure. -/
theorem Grammar.parse_sure (hg : g.IsStraight) (fuel : Nat) (id : RuleId) (v : View) (s : ParseState κ)
    (hs : s.derivation.Sure g) : Leaves (g.parse fuel id v) s fun t => t.derivation.Sure g :=
  g.parse_bookkeeping (fun _ h => h) (fun id _ hd => (expectation_ensures hg id hd).imp_ok fun _ _ h => h.2) fuel id v s
    hs

end Bookkeeping

/-! ## 2. Stamping -/

/-- The whitespace that is expected before a rule, under a policy with some matchers. -/
def Expectation.allowed (e : Expectation κ) (ms : List (Matcher κ)) : List (Matcher κ) :=
  if e.ambient then orderedUnion e.whitespace ms else e.whitespace

theorem Expectation.allowed_of_not_ambient {e : Expectation κ} (h : e.ambient = false) (ms : List (Matcher κ)) :
    e.allowed ms = e.whitespace := by
  rw [allowed, h]
  rfl

theorem Expectation.whitespace_withWhitespace {e : Expectation κ} (ms : List (Matcher κ)) :
    (e.withWhitespace ms).whitespace = e.allowed ms := by
  rw [withWhitespace, allowed]
  split <;> rfl

theorem Expectation.mem_allowed {e : Expectation κ} {ms : List (Matcher κ)} {m : Matcher κ} :
    m ∈ e.allowed ms ↔ m ∈ e.whitespace ∨ e.ambient = true ∧ m ∈ ms := by
  cases h : e.ambient <;> simp [allowed, h]

theorem Expectation.mem_allowed_union {e e' : Expectation κ} {ms : List (Matcher κ)} {m : Matcher κ} :
    m ∈ (e.union e').allowed ms ↔ m ∈ e.allowed ms ∨ m ∈ e'.allowed ms := by
  simp only [mem_allowed, union, mem_orderedUnion, Bool.or_eq_true]
  tauto

/-- Where there is no policy, it makes no difference before others whether it would be skipped. -/
theorem Expectation.orderedUnion_allowed {e : Expectation κ} {ms : List (Matcher κ)} (h : e.ambient = true → ms = [])
    (others : List (Matcher κ)) : orderedUnion (e.allowed ms) others = orderedUnion e.whitespace others := by
  rw [allowed]
  split
  next ha =>
    rw [h ha, orderedUnion_assoc, orderedUnion, orderedUnion, List.nil_append, distinct_append_distinct, orderedUnion]
  next => rfl

/-- The matchers that a policy shows. -/
inductive Grammar.Allows (g : Grammar κ) : Option RuleId → List (Matcher κ) → Prop
  | none : Allows g none []
  | some {p : RuleId} {e : Expectation κ} (h : g.Shows p e) : Allows g (some p) e.prefixes

/-- How a rule reports a failure under a policy. -/
inductive Grammar.Stamps (g : Grammar κ) (P : Option RuleId) (id : RuleId) (v : View) (f : Failure κ) :
    Failure κ → Prop
  | entry {e : Expectation κ} {ms : List (Matcher κ)} (h : f.offset = v.start) (he : g.Shows id e)
      (hms : e.ambient = true → g.Allows P ms) : Stamps g P id v f (f.stampedBy e (e.allowed ms))
  | deeper (h : f.offset ≠ v.start) : Stamps g P id v f f

theorem Grammar.Allows.unique {g : Grammar κ} {P : Option RuleId} {ms ms' : List (Matcher κ)} (h : g.Allows P ms)
    (h' : g.Allows P ms') : ms = ms' := by
  cases h with
  | none => cases h'; rfl
  | some h => cases h' with | some h' => rw [h.unique h']

/-- Every policy allows something. -/
theorem Grammar.exists_allows {g : Grammar κ} {P : Option RuleId} (hg : g.IsStraight)
    (hP : ∀ p, P = some p → p < g.rules.size) : ∃ ms, g.Allows P ms := by
  cases P with
  | none => exact ⟨[], .none⟩
  | some p =>
    obtain ⟨e, he⟩ := exists_shows hg (hP p rfl)
    exact ⟨e.prefixes, .some he⟩

section Stamp

variable {g : Grammar κ} {id : RuleId} {v : View} {f : Failure κ} {s : ParseState κ} {J : Derivation κ → Prop}
  {D : Prop}

/-- **Stamping does what the rule and the policy show**, if requests for them are answered with that, and changes no
context. -/
theorem exec_stamp_ensures {run : Runner κ} (hid : g.Answers J D id)
    (hpolicy : ∀ e, g.Shows id e → e.ambient = true → ∀ p, s.context.whitespace = some p → g.Answers J D p)
    (hs : J s.derivation) :
    Ensures ((Plan.stamp id v (.failed f)).exec g run) s
      (fun r t => ∃ f', r = .failed f' ∧ g.Stamps s.context.whitespace id v f f' ∧ t.context = s.context ∧
        J t.derivation)
      fun _ _ => D := by
  rw [Plan.stamp]
  by_cases ho : f.offset = v.start
  · rw [if_pos ho, Plan.exec, ensures_bind, Parse.ensures_ofDerive]
    refine (hid s.derivation hs).imp ?_ fun _ _ h => h
    rintro e d ⟨hshows, hd⟩
    cases ha : e.ambient with
    | false =>
      refine ⟨_, rfl, ?_, rfl, hd⟩
      rw [← e.allowed_of_not_ambient ha []]
      exact .entry ho hshows fun h => absurd (ha.symm.trans h) Bool.false_ne_true
    | true =>
      have allowed (ms : List (Matcher κ)) : e.allowed ms = orderedUnion e.whitespace ms := by
        rw [Expectation.allowed, ha]
        rfl
      rw [if_pos rfl, Plan.ensures_exec_policy]
      cases hP : s.context.whitespace with
      | none =>
        refine ⟨_, rfl, ?_, rfl, hd⟩
        rw [← allowed]
        exact .entry ho hshows fun _ => .none
      | some p =>
        dsimp only
        rw [Plan.exec, ensures_bind, Parse.ensures_ofDerive]
        refine (hpolicy e hshows ha p hP d hd).imp ?_ fun _ _ h => h
        rintro e' d' ⟨hshows', hd'⟩
        refine ⟨_, rfl, ?_, rfl, hd'⟩
        rw [← allowed]
        exact .entry ho hshows fun _ => .some hshows'
  · rw [if_neg ho]
    exact ⟨f, rfl, .deeper ho, rfl, hs⟩

end Stamp

/-- What a rule does with what its body came to: a failure is stamped, and offered to the record. -/
def Grammar.report (g : Grammar κ) (run : Runner κ) (id : RuleId) (v : View) (r : Result κ) : Parse κ (Result κ) := do
  let r ← (Plan.stamp id v r).exec g run
  Parse.offer r
  return r

/-- Where the rule and the policy are answered, a failure is stamped and offered to the record. -/
theorem Grammar.report_answered {g : Grammar κ} {id : RuleId} {s : ParseState κ} {J : Derivation κ → Prop}
    (hid : g.Answers J False id)
    (hpolicy : ∀ e, g.Shows id e → e.ambient = true → ∀ p, s.context.whitespace = some p → g.Answers J False p)
    (hs : J s.derivation) (v : View) (f : Failure κ) (run : Runner κ) :
    ∃ f' d, g.report run id v (.failed f) s = .ok (.failed f') ⟨d, s.context.record f'⟩ ∧
      g.Stamps s.context.whitespace id v f f' ∧ J d := by
  obtain ⟨_, t, hstamp, f', rfl, hstamps, hcontext, ht⟩ := (exec_stamp_ensures hid hpolicy hs).exists_ok
  refine ⟨f', t.derivation, ?_, hstamps, ht⟩
  rw [Grammar.report, bind_apply_of_ok hstamp, ← hcontext]
  rfl

/-- So it is where the rule and the policy are there. -/
theorem Grammar.report_stamps {g : Grammar κ} {id : RuleId} {s : ParseState κ} (hg : g.IsStraight)
    (hid : id < g.rules.size) (hs : s.derivation.Sure g)
    (hpolicy : ∀ e, g.Shows id e → e.ambient = true → ∀ p, s.context.whitespace = some p → p < g.rules.size)
    (v : View) (f : Failure κ) (run : Runner κ) :
    ∃ f' d, g.report run id v (.failed f) s = .ok (.failed f') ⟨d, s.context.record f'⟩ ∧
      g.Stamps s.context.whitespace id v f f' ∧ d.Sure g :=
  report_answered (hg.answers hid) (fun e he ha p hp => hg.answers (hpolicy e he ha p hp)) hs v f run

/-! ## 3. Recording -/

/-- A failure that names nothing twice and was taken into account is taken into account again to no effect. -/
theorem Context.deepest_deepest (furthest : Option (Failure κ)) {f : Failure κ} (hf : f.Unrepeated) :
    deepest (some (deepest furthest f)) f = deepest furthest f := by
  have self : deepest (some f) f = f := by
    rw [deepest, if_neg (Nat.lt_irrefl _), if_pos rfl, Failure.merge, orderedUnion_self hf.expected,
      orderedUnion_self hf.whitespace]
  cases furthest with
  | none => exact self
  | some best =>
    rw [deepest.eq_2 f best]
    by_cases hlt : best.offset < f.offset
    · rw [if_pos hlt]
      exact self
    · rw [if_neg hlt]
      by_cases heq : f.offset = best.offset
      · have heq' : f.offset = (best.merge f).offset := heq
        rw [if_pos heq, deepest, if_neg (heq' ▸ Nat.lt_irrefl _), if_pos heq', Failure.merge, Failure.merge,
          orderedUnion_orderedUnion_right, orderedUnion_orderedUnion_right]
      · rw [if_neg heq, deepest, if_neg hlt, if_neg heq]

theorem Context.record_record (c : Context κ) {f : Failure κ} (hf : f.Unrepeated) :
    (c.record f).record f = c.record f := by
  rw [record.eq_1 c f]
  split
  next h => rw [record, if_pos h]
  next h =>
    rw [record, if_neg h]
    exact congrArg (fun best => { c with furthest := some best }) (deepest_deepest c.furthest hf)

/-! ## 4. Reported failures -/

/-- A failure of a rule that says already what the rule would say, and has been taken into account. -/
structure Grammar.Final (g : Grammar κ) (id : RuleId) (v : View) (f : Failure κ) (c : Context κ) : Prop where
  unrepeated : f.Unrepeated
  recorded : c.record f = c
  expected : f.offset = v.start → ∀ e, g.Shows id e → orderedUnion e.prefixes f.expected = f.expected
  whitespace : f.offset = v.start → ∀ e, g.Shows id e → orderedUnion e.whitespace f.whitespace = f.whitespace

/-- One rule says at its entry, under a policy, what another one says. -/
def Grammar.Repeats (g : Grammar κ) (P : Option RuleId) (id inner : RuleId) : Prop :=
  ∀ e ms, g.Shows id e → (e.ambient = true → g.Allows P ms) → ∃ e₀, g.Shows inner e₀ ∧ e.prefixes = e₀.prefixes ∧
    ∀ others, orderedUnion (e.allowed ms) others = orderedUnion e₀.whitespace others

section Final

variable {g : Grammar κ} {id inner : RuleId} {v : View} {f f' : Failure κ} {c : Context κ} {P : Option RuleId}

/-- What a rule reports, it has said. -/
theorem Grammar.Stamps.final (h : g.Stamps P id v f f') (hf : f'.Unrepeated) (c : Context κ) :
    g.Final id v f' (c.record f') where
  unrepeated := hf
  recorded := c.record_record hf
  expected := by
    intro ho e he
    cases h with
    | entry _ he' _ =>
      cases he.unique he'
      exact orderedUnion_orderedUnion_left _ _
    | deeper ho' => exact absurd ho ho'
  whitespace := by
    intro ho e he
    cases h with
    | @entry _ ms _ he' _ =>
      cases he.unique he'
      show orderedUnion e.whitespace (orderedUnion (e.allowed ms) f.whitespace) = orderedUnion (e.allowed ms) f.whitespace
      rw [Expectation.allowed]
      split
      · rw [orderedUnion_assoc, orderedUnion_orderedUnion_left]
      · exact orderedUnion_orderedUnion_left _ _
    | deeper ho' => exact absurd ho ho'

/-- What is final stays as it is when another rule says the same again. -/
theorem Grammar.Final.stamped (h : g.Final inner v f c) (hrepeats : g.Repeats P id inner)
    (hstamps : g.Stamps P id v f f') : f' = f := by
  cases hstamps with
  | @entry e ms ho he hms =>
    obtain ⟨e₀, he₀, hprefixes, hwhitespace⟩ := hrepeats e ms he hms
    rw [Failure.stampedBy, hprefixes, hwhitespace, h.expected ho e₀ he₀, h.whitespace ho e₀ he₀]
  | deeper => rfl

/-- **A result that was reported is reported again to no effect** by a rule that says the same. -/
theorem Grammar.reported_again (hg : g.IsStraight) (hid : id < g.rules.size) (inner : RuleId) (v : View)
    (run : Runner κ) {r : Result κ}
    {s : ParseState κ} (hs : s.derivation.Sure g) (hfinal : ∀ f, r = .failed f → g.Final inner v f s.context)
    (hrepeats : g.Repeats s.context.whitespace id inner)
    (hpolicy : ∀ e, g.Shows id e → e.ambient = true → ∀ p, s.context.whitespace = some p → p < g.rules.size) :
    ∃ d, g.report run id v r s = .ok r { s with derivation := d } ∧ d.Sure g := by
  cases r with
  | parsed x w => exact ⟨s.derivation, rfl, hs⟩
  | failed f =>
    have final := hfinal f rfl
    obtain ⟨f', d, hreport, hstamps, hd⟩ := report_stamps hg hid hs hpolicy v f run
    cases final.stamped hrepeats hstamps
    exact ⟨d, by rw [hreport, final.recorded], hd⟩

variable [CustomMatcher κ]

/-- A rule that is no placeholder runs its body and reports what that comes to. -/
theorem Grammar.step_rule {run : Runner κ} {rule : Rule κ} (hr : g.rule? id = some rule)
    (hp : ∀ target, rule.body ≠ .placeholder target) :
    g.step run id v = (rule.body.plan v).exec g run >>= g.report run id v := by
  rw [Grammar.step_eq, Grammar.plan, Grammar.isPlaceholder, hr]
  obtain ⟨label, b⟩ := rule
  cases b with
  | placeholder target => exact absurd rfl (hp target)
  | _ =>
    dsimp only
    rw [Plan.exec_bind, bind_assoc]
    rfl

theorem Grammar.parse_rule {rule : Rule κ} (hr : g.rule? id = some rule)
    (hp : ∀ target, rule.body ≠ .placeholder target) (fuel : Nat) (v : View) :
    g.parse (fuel + 1) id v = rule.body.run g (g.parse fuel) v >>= g.report (g.parse fuel) id v := by
  rw [Grammar.parse, Grammar.step_rule hr hp, Body.run_eq_exec]

theorem Grammar.step_target {run : Runner κ} {label : Option String} {target : RuleId}
    (hr : g.rule? id = some ⟨label, .placeholder (some target)⟩) : g.step run id v = run target v := by
  rw [Grammar.step, hr]

/-- A run that fails has reported a failure of its body, or hands on that of the rule which it is a placeholder for. -/
theorem Grammar.parse_failed_cases {fuel : Nat} {s t : ParseState κ}
    (h : g.parse (fuel + 1) id v s = .ok (.failed f) t) :
    (∃ rule f₀ u u', g.rule? id = some rule ∧ (∀ target, rule.body ≠ .placeholder target) ∧
      (rule.body.plan v).exec g (g.parse fuel) s = .ok (.failed f₀) u ∧
      (Plan.stamp id v (.failed f₀)).exec g (g.parse fuel) u = .ok (.failed f) u' ∧
      t = { u' with context := u'.context.record f }) ∨
    ∃ label target, g.rule? id = some ⟨label, .placeholder (some target)⟩ ∧
      g.parse fuel target v s = .ok (.failed f) t := by
  rw [Grammar.parse] at h
  cases hr : g.rule? id with
  | none =>
    rw [Grammar.step, hr] at h
    cases h
  | some rule =>
    by_cases hp : ∀ target, rule.body ≠ .placeholder target
    · rw [Grammar.step_rule hr hp] at h
      obtain ⟨r, u, hbody, h⟩ := bind_eq_ok.mp h
      obtain ⟨_, u', hstamp, h⟩ := bind_eq_ok.mp h
      obtain ⟨_, _, hoffer, h⟩ := bind_eq_ok.mp h
      obtain ⟨rfl, rfl⟩ := pure_eq_ok.mp h
      cases hoffer
      cases r with
      | parsed x w => cases hstamp
      | failed f₀ => exact Or.inl ⟨rule, f₀, u, u', rfl, hp, hbody, hstamp, rfl⟩
    · obtain ⟨label, b⟩ := rule
      obtain ⟨target, hb⟩ := not_forall_not.mp hp
      cases hb
      cases target with
      | none =>
        rw [Grammar.step, hr] at h
        cases h
      | some target =>
        rw [Grammar.step_target hr] at h
        exact Or.inr ⟨label, target, rfl, h⟩

/-- The failure that a run comes to has been stamped by the rule and offered to the record. -/
theorem Grammar.parse_stamped (hg : g.IsStraight) {fuel : Nat} {s t : ParseState κ} (hs : s.derivation.Sure g)
    (h : g.parse fuel id v s = .ok (.failed f) t) :
    ∃ (f₀ : Failure κ) (c : Context κ), g.Stamps s.context.whitespace id v f₀ f ∧ t.context = c.record f := by
  induction fuel generalizing id with
  | zero => cases h
  | succ fuel ih =>
    rcases parse_failed_cases h with ⟨rule, f₀, u, u', -, -, hbody, hstamp, rfl⟩ | ⟨label, target, hr, h⟩
    · have hu : u.derivation.Sure g := (Plan.exec_bookkeeping (fun _ h => h)
        (fun id _ hd => (expectation_ensures hg id hd).imp_ok fun _ _ h => h.2)
        (g.parse_sure hg fuel) _ s hs).ok hbody
      have hpolicy := ((Plan.exec_restored (g.parse_restored fuel) _ s).ok hbody).whitespace
      have answered (p : RuleId) : g.Answers (·.Sure g) True p :=
        fun d hd => (expectation_ensures hg p hd).imp (fun _ _ h => h) fun _ _ _ => trivial
      obtain ⟨_, ⟨⟩, hstamps, -, -⟩ := (exec_stamp_ensures (answered id) (fun _ _ _ p _ => answered p) hu).ok hstamp
      exact ⟨f₀, u'.context, hpolicy ▸ hstamps, rfl⟩
    · -- a placeholder shows what its target shows, and reports what it reports
      obtain ⟨f₀, c, hstamps, ht⟩ := ih h
      refine ⟨f₀, c, ?_, ht⟩
      cases hstamps with
      | entry ho he hms => exact .entry ho (he.target hr) hms
      | deeper ho => exact .deeper ho

/-- **The failure that a run comes to is final.** -/
theorem Grammar.parse_final (hg : g.IsStraight) {fuel : Nat} {s t : ParseState κ} (hs : s.derivation.Sure g)
    (h : g.parse fuel id v s = .ok (.failed f) t) : g.Final id v f t.context := by
  have unrepeated : f.Unrepeated := ((((unrepeated_kept hg.library).parse fuel id v s).ok h).1.2 f rfl).1
  obtain ⟨f₀, c, hstamps, hc⟩ := Grammar.parse_stamped hg hs h
  rw [hc]
  exact hstamps.final unrepeated c

end Final

end Descent
