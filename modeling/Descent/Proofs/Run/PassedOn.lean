import Descent.Proofs.Derivation.Bounds
import Descent.Proofs.Run.Final

/-!
# Failures that are passed on

A rule that begins with another one, and fails where that one failed, stamps the failure a second time. What it says at
its entry is what the rule inside has said there already, so nothing is added. But the two rules have been asked for at
different times, and their answers may name the same matchers in another order: **such a failure is passed on at the
same place, with the same matchers and the same whitespace, and unless it lies at the entry it is the same failure**
(`Grammar.PassesOn`). Where derivations meet no cycle, and nothing was asked for too early, it is the same failure in
any case.

That nothing is added has two reasons. The rule outside shows no more than the rule inside
(`Grammar.Asked.le_of_handsOn`), and the policy shows what it has shown before (`Grammar.Told.again`). They also show
that there is an answer at all, even in a grammar where other requests do not end: all that is asked for has been asked
before.
-/

namespace Descent

variable {κ : Type} [DecidableEq κ] {g : Grammar κ}

/-! ## 1. What a policy is told to show -/

namespace Grammar

variable {P : Option RuleId} {ms : List (Matcher κ)} {d d' : Derivation κ} {id : RuleId} {e : Expectation κ}

/-- What a policy is told to show. -/
inductive Told (g : Grammar κ) : Option RuleId → Derivation κ → List (Matcher κ) → Derivation κ → Prop
  | none {d : Derivation κ} : Told g none d [] d
  | some {p : RuleId} {d d' : Derivation κ} {e : Expectation κ} (h : g.expectation p d = .ok e d') :
    Told g (some p) d e.prefixes d'

/-- It is told again later on. -/
theorem Told.again (hd : d.AtRest) (h : g.Told P d ms d') :
    d'.Keeps d ∧ ∀ d₁, d₁.Keeps d' → ∃ d₂, g.Told P d₁ ms d₂ ∧ d₂.known = d₁.known := by
  cases h with
  | none => exact ⟨fun _ _ h => h, fun d₁ _ => ⟨d₁, .none, rfl⟩⟩
  | some h =>
    obtain ⟨hgrows, again⟩ := expectation_again hd h
    refine ⟨hgrows.keeps, fun d₁ hd₁ => ?_⟩
    obtain ⟨d₂, h₂, -, hknown⟩ := again d₁ hd₁
    exact ⟨d₂, .some h₂, hknown⟩

end Grammar

/-! ## 2. What a rule says at its entry -/

/-- How a rule reports a failure, by the requests that are made for it. -/
inductive Grammar.StampsFrom (g : Grammar κ) (P : Option RuleId) (id : RuleId) (v : View) (f : Failure κ)
    (d : Derivation κ) : Failure κ → Derivation κ → Prop
  | entry {e : Expectation κ} {ms : List (Matcher κ)} {d₁ d₂ : Derivation κ} (h : f.offset = v.start)
    (he : g.expectation id d = .ok e d₁) (hms : if e.ambient then g.Told P d₁ ms d₂ else d₂ = d₁) :
    StampsFrom g P id v f d (f.stampedBy e (e.allowed ms)) d₂
  | deeper (h : f.offset ≠ v.start) : StampsFrom g P id v f d f d

section Stamp

variable {id first q : RuleId} {rule rule' : Rule κ} {v : View} {f₀ f f' : Failure κ} {s : ParseState κ}
  {P : Option RuleId} {d d₀ d₁ d₂ : Derivation κ}

theorem Grammar.StampsFrom.rest_eq (h : g.StampsFrom P id v f d f' d₁) : f'.rest = f.rest := by
  cases h with
  | entry => rfl
  | deeper => rfl

theorem Grammar.StampsFrom.eq_of_ne (h : g.StampsFrom P id v f d f' d₁) (ho : f.offset ≠ v.start) : f' = f := by
  cases h with
  | entry ho' => exact absurd ho' ho
  | deeper => rfl

theorem Expectation.allowed_of_ambient {e : Expectation κ} (h : e.ambient = true) (ms : List (Matcher κ)) :
    e.allowed ms = orderedUnion e.whitespace ms := by
  rw [allowed, if_pos h]

/-- Stamping is told by the requests that are made for it. -/
theorem Plan.exec_stamp_iff {run : Runner κ} {r : Result κ} {t : ParseState κ} :
    (Plan.stamp id v (.failed f)).exec g run s = .ok r t ↔
      ∃ f' d, g.StampsFrom s.context.whitespace id v f s.derivation f' d ∧ r = .failed f' ∧
        t = { s with derivation := d } := by
  rw [Plan.stamp]
  constructor
  · intro h
    by_cases ho : f.offset = v.start
    · rw [if_pos ho, Plan.exec] at h
      obtain ⟨e, _, hasked, h⟩ := bind_eq_ok.mp h
      obtain ⟨d, he, rfl⟩ := Parse.ofDerive_eq_ok.mp hasked
      cases ha : e.ambient with
      | false =>
        rw [ha] at h
        cases h
        have hstamps : g.StampsFrom s.context.whitespace id v f s.derivation (f.stampedBy e (e.allowed [])) d :=
          .entry ho he (by simp [ha])
        exact ⟨_, d, hstamps, by rw [e.allowed_of_not_ambient ha], rfl⟩
      | true =>
        rw [if_pos ha, Plan.exec_policy] at h
        cases hP : s.context.whitespace with
        | none =>
          simp only [hP] at h
          cases h
          exact ⟨_, d, .entry ho he (by rw [if_pos ha]; exact .none), by rw [e.allowed_of_ambient ha], rfl⟩
        | some p =>
          simp only [hP] at h
          obtain ⟨e', _, hasked', h⟩ := bind_eq_ok.mp h
          obtain ⟨d', he', rfl⟩ := Parse.ofDerive_eq_ok.mp hasked'
          cases h
          exact ⟨_, d', .entry ho he (by rw [if_pos ha]; exact .some he'), by rw [e.allowed_of_ambient ha], rfl⟩
    · rw [if_neg ho] at h
      cases h
      exact ⟨f, s.derivation, .deeper ho, rfl, rfl⟩
  · rintro ⟨f', d, hstamps, rfl, rfl⟩
    cases hstamps with
    | deeper ho =>
      rw [if_neg ho]
      rfl
    | @entry e ms d₁ _ ho he hms =>
      rw [if_pos ho, Plan.exec, bind_apply_of_ok (Parse.ofDerive_eq_ok.mpr ⟨d₁, he, rfl⟩)]
      cases ha : e.ambient with
      | false =>
        rw [ha] at hms
        cases hms
        rw [e.allowed_of_not_ambient ha]
        rfl
      | true =>
        rw [if_pos ha] at hms
        rw [if_pos rfl, Plan.exec_policy, e.allowed_of_ambient ha]
        generalize hP : s.context.whitespace = P at hms
        cases hms with
        | none => rfl
        | some he' =>
          dsimp only
          exact bind_apply_of_ok (Parse.ofDerive_eq_ok.mpr ⟨_, he', rfl⟩)

/-- What an expectation allows is not more under the same policy if it shows no more. -/
theorem Expectation.allowed_subset {e e' : Expectation κ} {ms : List (Matcher κ)} (h : e ≤ e') :
    e.allowed ms ⊆ e'.allowed ms := by
  intro m hm
  rw [← whitespace_withWhitespace, mem_whitespace_withWhitespace] at hm ⊢
  rcases hm with hm | ⟨ha, hm⟩
  · exact Or.inl (h.whitespace hm)
  · exact Or.inr ⟨h.ambient ha, hm⟩

theorem orderedUnion_perm {α : Type} [DecidableEq α] {l m : List α} (h : l ⊆ m) (hm : m.Nodup) :
    (orderedUnion l m).Perm m := by
  apply (List.perm_ext_iff_of_nodup (nodup_orderedUnion l m) hm).mpr
  intro a
  rw [mem_orderedUnion]
  exact ⟨fun ha => ha.elim (h ·) id, Or.inr⟩

/-- **What a rule says at its entry, a rule that begins with it says again** and adds nothing. -/
theorem Grammar.StampsFrom.passed (h : g.StampsFrom P q v f₀ d₀ f d₁) (hg : g.IsLibrary) (hr : g.Proper id rule)
    (hpasses : rule.body.passes? = some first) (hpath : Relation.ReflTransGen g.HandsOn first q)
    (hq : g.Proper q rule') (hd₀ : g.Asked d₀) (hd : g.Asked d) (hkeeps : d.Keeps d₁) :
    ∃ f' d', g.StampsFrom P id v f d f' d' ∧ f'.expected.Perm f.expected ∧ f'.whitespace.Perm f.whitespace ∧
      (g.IsStraight → d₀.Sure g → d.Sure g → f' = f) := by
  cases h with
  | deeper ho => exact ⟨_, d, .deeper ho, .refl _, .refl _, fun _ _ _ => rfl⟩
  | @entry e ms d₃ _ ho he hms =>
    have rest₃ : d₃.AtRest := (hd₀.request he).atRest hg
    have grown : d₁.Keeps d₃ := by
      cases ha : e.ambient with
      | true =>
        rw [if_pos ha] at hms
        exact (hms.again rest₃).1
      | false =>
        rw [ha] at hms
        cases hms
        exact fun _ _ h => h
    have known : d.known? q = some e := hkeeps _ _ (grown _ _ (expectation_kept (hd₀.atRest hg) hq.1 hq.2 he))
    obtain ⟨e', d', he'⟩ := expectation_of_passes hr hpasses hpath hq known
    have hd' : d'.Keeps d := (expectation_again (hd.atRest hg) he').1.keeps
    have hle : e' ≤ e := (hd.request he').le_of_handsOn hg hr.1 hpasses hpath hq
      (expectation_kept (hd.atRest hg) hr.1 hr.2 he') (hd' _ _ known)
    -- the policy is asked only if it was asked before, and is answered the same
    have policy : ∃ d'', if e'.ambient then g.Told P d' ms d'' else d'' = d' := by
      cases ha : e'.ambient with
      | false => exact ⟨d', rfl⟩
      | true =>
        rw [if_pos (hle.ambient ha)] at hms
        obtain ⟨d'', hms', -⟩ := (hms.again rest₃).2 d' (hkeeps.trans hd')
        exact ⟨d'', hms'⟩
    obtain ⟨d'', hms'⟩ := policy
    refine ⟨_, d'', .entry ho he' hms', orderedUnion_perm (fun m hm => ?_) (nodup_orderedUnion _ _),
      orderedUnion_perm (fun m hm => ?_) (nodup_orderedUnion _ _), fun hstraight hsure₀ hsure => ?_⟩
    · exact mem_orderedUnion.mpr (Or.inl (hle.prefixes hm))
    · exact mem_orderedUnion.mpr (Or.inl (Expectation.allowed_subset hle hm))
    · -- both rules show the same
      have shown : g.Shows q e := ((expectation_ensures hstraight q hsure₀).ok he).1
      have shown' : g.Shows id e' := ((expectation_ensures hstraight id hsure).ok he').1
      have first : g.Shows first e := by
        clear hpasses
        induction hpath using Relation.ReflTransGen.head_induction_on with
        | refl => exact shown
        | head hop _ ih =>
          obtain ⟨label, hop⟩ := hop
          exact ih.target hop
      obtain rfl : e = e' := (first.passed hr.1 (hg id rule hr.1) hpasses).unique shown'
      rw [Failure.stampedBy, Failure.stampedBy, orderedUnion_orderedUnion_left, orderedUnion_orderedUnion_left]

end Stamp

/-! ## 3. Runs -/

/-- What becomes of a failure when a rule that begins with the one that reported it reports it in turn. -/
structure Grammar.PassesOn (g : Grammar κ) (v : View) (d : Derivation κ) (f f' : Failure κ) : Prop where
  rest_eq : f'.rest = f.rest
  deeper : f.offset ≠ v.start → f' = f
  expected : f'.expected.Perm f.expected
  whitespace : f'.whitespace.Perm f.whitespace
  /-- where derivations meet no cycle, and what is kept is sure -/
  straight : g.IsStraight → d.Sure g → f' = f

section Run

variable [CustomMatcher κ] {id first : RuleId} {rule : Rule κ} {v : View} {f : Failure κ} {s t : ParseState κ}
  {fuel : Nat} {I : Derivation κ → Prop}

/-- **A failure was stamped by the rule that reported it**, which is what placeholders stand for in the end. -/
theorem Grammar.parse_stampsFrom (hI : ∀ id d, I d → Ensures (g.expectation id) d (fun _ => I) fun _ _ => True)
    (hs : I s.derivation) (h : g.parse fuel id v s = .ok (.failed f) t) :
    ∃ q rule f₀ d, Relation.ReflTransGen g.HandsOn id q ∧ g.Proper q rule ∧ I d ∧
      g.StampsFrom s.context.whitespace q v f₀ d f t.derivation := by
  induction fuel generalizing id with
  | zero => cases h
  | succ fuel ih =>
    rcases parse_failed_cases h with ⟨rule, f₀, u, u', hr, hp, hbody, hstamp, rfl⟩ | ⟨label, target, hr, h⟩
    · have hu : I u.derivation := (Plan.exec_bookkeeping (fun _ _ => trivial) hI
        (g.parse_bookkeeping (fun _ _ => trivial) hI fuel) _ s hs).ok hbody
      have hcontext := ((Plan.exec_restored (g.parse_restored fuel) _ s).ok hbody).whitespace
      obtain ⟨f', d, hstamps, ⟨⟩, rfl⟩ := Plan.exec_stamp_iff.mp hstamp
      exact ⟨id, rule, f₀, u.derivation, .refl, ⟨hr, hp⟩, hu, hcontext ▸ hstamps⟩
    · -- a placeholder reports what its target reports
      obtain ⟨q, rule, f₀, d, hpath, hq⟩ := ih h
      exact ⟨q, rule, f₀, d, .head ⟨label, hr⟩ hpath, hq⟩

/-- **A failure is passed on** by a rule that begins with the one that reported it. -/
theorem Grammar.report_passesOn (hg : g.IsLibrary) (hr : g.Proper id rule) (hpasses : rule.body.passes? = some first)
    (hs : g.Asked s.derivation) (h : g.parse fuel first v s = .ok (.failed f) t) (run : Runner κ) :
    ∃ f' t', g.report run id v (.failed f) t = .ok (.failed f') t' ∧ g.PassesOn v s.derivation f f' := by
  -- what requests leave, and what they leave sure
  let Left (d : Derivation κ) : Prop := g.Asked d ∧ (g.IsStraight → s.derivation.Sure g → d.Sure g)
  have hleft (id : RuleId) (d : Derivation κ) (hd : Left d) :
      Ensures (g.expectation id) d (fun _ => Left) fun _ _ => True := by
    refine (ensures_self _ d).imp (fun e d' h => ⟨hd.1.request h, fun hstraight hsure => ?_⟩) fun _ _ _ => trivial
    exact ((expectation_ensures hstraight id (hd.2 hstraight hsure)).ok h).2
  have start : Left s.derivation := ⟨hs, fun _ h => h⟩
  obtain ⟨q, rule', f₀, d, hpath, hq, hd, hstamps₀⟩ := parse_stampsFrom hleft start h
  have ht : Left t.derivation := (g.parse_bookkeeping (fun _ _ => trivial) hleft fuel first v s start).ok h
  obtain ⟨f', d', hstamps, hexpected, hwhitespace, hstraight⟩ :=
    hstamps₀.passed hg hr hpasses hpath hq hd.1 ht.1 fun _ _ h => h
  rw [← ((g.parse_restored fuel first v s).ok h).whitespace] at hstamps
  refine ⟨f', { t with derivation := d', context := t.context.record f' }, ?_, hstamps.rest_eq, hstamps.eq_of_ne,
    hexpected, hwhitespace, fun h h' => hstraight h (hd.2 h h') (ht.2 h h')⟩
  rw [Grammar.report, bind_apply_of_ok (Plan.exec_stamp_iff.mpr ⟨f', d', hstamps, rfl, rfl⟩)]
  rfl

end Run

end Descent
