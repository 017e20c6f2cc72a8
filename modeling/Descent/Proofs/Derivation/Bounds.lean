import Descent.Proofs.Derivation.Early
import Descent.Proofs.Derivation.Order

/-!
# What is asked for first

Answers to one question agree on matchers and on ambient whitespace, for both can be told by what can be reached. They
need not agree on the whitespace of rules with a policy of their own: that is shown if the rule shows ambient whitespace,
and on the way there a walk may have turned back. So there may be more than one answer, and which of them is given
depends on what was asked before.

But answers cannot be anything. The answer of a walk lies between two answers without bookkeeping, the one from what was
kept when it began and the one from what is kept when it ends (`Grammar.Least`, `Grammar.Most`). What is kept for a rule
is therefore no more than what its body would show, and giving a placeholder its target does not change that. **A rule
that hands on the expectation of another one shows no more than that one** (`Grammar.Asked.le_of_handsOn`), whichever of
the two was asked for first, whatever else was asked, and whichever placeholders got their targets in between.
-/

namespace Descent

variable {κ : Type} {g : Grammar κ} {id : RuleId} {rule : Rule κ} {d inner : Derivation κ} {e : Expectation κ}

/-! ## 1. Walks -/

/-- No rule is relied on: each of them may have been asked for early. -/
abbrev Reliance.nothing (g : Grammar κ) : Reliance g := g.reliedBut fun _ => True

theorem Reliance.not_on_nothing (p : RuleId) : ¬ (nothing g).on p := fun h => h ⟨p, .refl, trivial⟩

theorem Grammar.Resolves.proper {g' : Grammar κ} {p target : RuleId} (h : g.Resolves p target g')
    (hr : g.Proper id rule) : g'.Proper id rule :=
  ⟨h.rule?_eq hr.1 (hr.2 none), hr.2⟩

namespace Derivation

theorem Reliable.marked_eq_nil {S : Reliance g} (h : d.Reliable S) (hdepth : d.depth = 0) : d.marked = [] :=
  List.length_eq_zero_iff.mp (h.depth_eq.symm.trans hdepth)

/-- The end of a walk changes what is kept for one rule at most. -/
theorem known?_conclude_of_ne {outer : Derivation κ} {q : RuleId} (h : q ≠ id) :
    (outer.conclude inner id e).known? q = inner.known? q := by
  rw [conclude]
  split
  · rw [known?_keep, if_neg fun h' => h h'.symm]
    rfl
  · rfl

end Derivation

variable [DecidableEq κ] {marks : List RuleId} {K K' K'' : RuleId → Option (Expectation κ)}

/-- Whatever is relied on, a walk comes out with the marks that it came in with, and remembers its cuts. -/
theorem Grammar.expectationWithin_accounted (hg : g.IsLibrary) (fuel : Nat) (id : RuleId) (d : Derivation κ)
    (hd : d.Reliable (.nothing g)) :
    Ensures (g.expectationWithin fuel id) d (fun e d' => ReadsFor (.nothing g) id d e d') fun _ _ => True :=
  expectationWithin_reliable hg fuel id d hd fun _ q _ _ _ _ hon => absurd hon (Reliance.not_on_nothing q)

/-! ## 2. Answers from below -/

/-- The account of reading an expectation, from below: it is no less than the answer from a table that was kept when the
walk began, past as many marks, or past any if no cut was met. What is kept on the way is no less either. -/
structure Grammar.Least (g : Grammar κ) (marks : List RuleId) (K : RuleId → Option (Expectation κ)) (id : RuleId)
    (d : Derivation κ) (e : Expectation κ) (d' : Derivation κ) : Prop where
  outgrows : g.Outgrows marks K d'.known?
  answer_le : ∀ n M, marks ⊆ M → (d.marked ⊆ M ∨ d'.cycleMet = false) → g.answer K n M id ≤ e

/-- A marked rule answers no less than its body. -/
theorem Grammar.Least.conclude (hr : g.Proper id rule) (hd : d.Reliable (.nothing g)) (hid : K id = none)
    (hinner : g.Outgrows marks K inner.known?)
    (hbody : ∀ n M, marks ⊆ M → (id :: d.marked ⊆ M ∨ inner.cycleMet = false) →
      rule.body.shown (g.answer K n M) ≤ e) :
    g.Least marks K id d e (d.conclude inner id e) := by
  have least (n : Nat) (M : List RuleId) (hM : marks ⊆ M) (hcut : d.marked ⊆ M ∨ inner.cycleMet = false) :
      g.answer K n M id ≤ e := by
    apply Grammar.answer_le
    case target => exact fun _ label target _ hr' => absurd hr' (hr.ne_target label target)
    case known => exact fun _ _ _ h => nomatch hid.symm.trans h
    case walk =>
      intro n' rule' _ hr' _ _
      cases hr'.1.symm.trans hr.1
      exact hbody n' (id :: M) (List.subset_cons_of_subset _ hM) (hcut.imp_left (List.cons_subset_cons id))
  -- at the start of all there is no mark to be past
  have start (M : List RuleId) (hdepth : d.depth = 0) : d.marked ⊆ M := by
    rw [hd.marked_eq_nil hdepth]
    exact List.nil_subset M
  refine ⟨⟨fun q e' hq => ?_, fun q rule' e' hr' hq n M hM => ?_⟩, fun n M hM hcut => least n M hM ?_⟩
  · rw [Derivation.known?_conclude_of_ne, hinner.keeps q e' hq]
    rintro rfl
    exact nomatch hid.symm.trans hq
  · rcases Derivation.known?_conclude hq with hq | ⟨rfl, rfl, hkept⟩
    · exact hinner.above q rule' e' hr' hq n M hM
    · exact least n M hM (hkept.imp_left (start M))
  · rcases hcut with hsub | hcut
    · exact Or.inl hsub
    · rw [Derivation.cycleMet_conclude] at hcut
      split at hcut
      next hdepth => exact Or.inl (start M hdepth)
      next => exact Or.inr (Bool.or_eq_false_iff.mp hcut).2

/-- **An answer is no less than what would have been answered before.** -/
theorem Grammar.expectationWithin_least (hg : g.IsLibrary) (fuel : Nat) (id : RuleId) (d : Derivation κ)
    (hd : d.Reliable (.nothing g)) (hK : g.Outgrows marks K d.known?) :
    Ensures (g.expectationWithin fuel id) d (fun e d' => g.Least marks K id d e d') fun _ _ => True := by
  induction fuel generalizing id d with
  | zero => exact trivial
  | succ fuel ih =>
    have unknown (h : d.known? id = none) : K id = none :=
      Option.eq_none_iff_forall_ne_some.mpr fun e hq => nomatch h.symm.trans (hK.keeps id e hq)
    apply Grammar.expectationWithin_ensures
    case absent => exact fun _ => trivial
    case unresolved =>
      intro label hr
      refine ⟨hK, fun n M _ _ => ?_⟩
      cases n with
      | zero => exact le_rfl
      | succ n => rw [Grammar.answer, hr]
    case target =>
      intro label target hr
      refine (ih target d hd hK).imp_ok fun e d' h => ⟨h.outgrows, fun n M hM hcut => ?_⟩
      cases n with
      | zero => exact e.empty_le
      | succ n =>
        rw [answer_target hr]
        exact h.answer_le n M hM hcut
    case known =>
      intro rule e hr hp hknown
      exact ⟨hK, fun n M hM _ => hK.above id rule e ⟨hr, hp⟩ hknown n M hM⟩
    case mute =>
      intro rule hr hp hnone _
      exact absurd hnone (Body.derived?_ne_none (hg id rule hr) hp)
    case cut =>
      intro rule hr hp hknown hm
      refine ⟨hK, fun n M _ hcut => ?_⟩
      rcases hcut with hsub | hcut
      · exact Proper.answer_le_marked ⟨hr, hp⟩ (unknown hknown) (hsub hm)
      · cases hcut
    case walk =>
      intro rule walk hr hwalk hknown _
      have hread : ∀ q ∈ rule.body.reads g, ∀ d₁ : Derivation κ,
          d₁.Reliable (.nothing g) ∧ d₁.marked = id :: d.marked ∧ g.Outgrows marks K d₁.known? →
          Ensures (g.expectationWithin fuel q) d₁
            (fun e d₂ => ((d₁.cycleMet = true → d₂.cycleMet = true) ∧ ∀ n M, marks ⊆ M →
                (id :: d.marked ⊆ M ∨ d₂.cycleMet = false) → g.answer K n M q ≤ e) ∧
              d₂.Reliable (.nothing g) ∧ d₂.marked = id :: d.marked ∧ g.Outgrows marks K d₂.known?) fun _ _ => True := by
        rintro q _ d₁ ⟨hd₁, hmarked, hK₁⟩
        refine ((g.expectationWithin_accounted hg fuel q d₁ hd₁).and (ih q d₁ hd₁ hK₁)).imp ?_ fun _ _ _ => trivial
        rintro e d₂ ⟨reads, least⟩
        exact ⟨⟨reads.flag (by simp [hmarked]), hmarked ▸ least.answer_le⟩, reads.reliable, reads.marked.trans hmarked,
          least.outgrows⟩
      refine (Body.derived?_ensures hwalk hread ?_ ⟨hd.enter id, rfl, hK⟩).imp ?_ fun _ _ _ => trivial
      · exact fun _ _ _ _ _ => ⟨fun _ => trivial, fun _ _ _ => trivial⟩
      rintro e inner ⟨hderives, -, -, hinner⟩
      refine .conclude (.of_derived hr hwalk) hd (unknown hknown) hinner fun n M hM hcut => ?_
      -- a cut that was met on the way is still on record
      refine Body.Derives.compares Expectation.compares_le (hg id rule hr) (hderives.upTo
        (J := fun d₁ d₂ => d₁.cycleMet = true → d₂.cycleMet = true) (fun _ h => h)
        (fun h h' hcut => h' (h hcut)) And.left fun h later => h.2 n M hM (hcut.imp_right fun hcut => ?_))
      exact Bool.eq_false_iff.mpr fun h => Bool.eq_false_iff.mp hcut (later h)

/-! ## 3. Answers from above -/

/-- All that is in one table and was not in another is no more than what its rule would show by now. -/
def Grammar.Supports (g : Grammar κ) (marks : List RuleId) (K K' : RuleId → Option (Expectation κ)) : Prop :=
  ∀ id e, K' id = some e →
    K id = some e ∨ ∃ rule n, g.rule? id = some rule ∧ e ≤ rule.body.shown (g.answer K' n marks)

/-- It is still no more when the table has grown. -/
theorem Grammar.Supports.grow {marks' : List RuleId} (h : g.Supports marks K K')
    (hgrown : g.Outgrows marks K' K'') (hsub : marks' ⊆ marks) (he : K' id = some e) :
    K id = some e ∨ ∃ rule n, g.rule? id = some rule ∧ e ≤ rule.body.shown (g.answer K'' n marks') := by
  refine (h id e he).imp_right ?_
  rintro ⟨rule, n, hr, hle⟩
  refine ⟨rule, n, hr, hle.trans (rule.body.shown_le_shown fun _ => ?_)⟩
  exact hgrown.answer_mono (List.Subset.refl _) hsub le_rfl

/-- The account of reading an expectation, from above: it is no more than the answer from the table that is kept when the
walk ends. What is kept on the way is no more either, and nothing is kept for a marked rule. -/
structure Grammar.Most (g : Grammar κ) (fuel : Nat) (id : RuleId) (d : Derivation κ) (e : Expectation κ)
    (d' : Derivation κ) : Prop where
  le_answer : e ≤ g.answer d'.known? fuel d.marked id
  marked : ∀ m ∈ d.marked, d'.known? m = none
  supports : g.Supports d.marked d.known? d'.known?

/-- A marked rule answers no more than its body. -/
theorem Grammar.Most.conclude {fuel : Nat} (hr : g.Proper id rule) (hm : id ∉ d.marked)
    (hinner : ∀ m ∈ id :: d.marked, inner.known? m = none)
    (hsupports : g.Supports (id :: d.marked) d.known? inner.known?)
    (hbody : e ≤ rule.body.shown (g.answer inner.known? fuel (id :: d.marked))) :
    g.Most (fuel + 1) id d e (d.conclude inner id e) := by
  obtain ⟨hid, hothers⟩ := List.forall_mem_cons.mp hinner
  -- taking the mark off and keeping the answer only adds to what would be answered
  have hgrown : g.Outgrows (id :: d.marked) inner.known? (d.conclude inner id e).known? :=
    .keep hid fun q hq => Derivation.known?_conclude_of_ne hq
  have later {M : List RuleId} (hM : M ⊆ id :: d.marked) :
      e ≤ rule.body.shown (g.answer (d.conclude inner id e).known? fuel M) :=
    hbody.trans (rule.body.shown_le_shown fun _ => hgrown.answer_mono (List.Subset.refl _) hM le_rfl)
  have off : d.marked ⊆ id :: d.marked := List.subset_cons_self id d.marked
  refine ⟨?_, fun m hmem => ?_, fun q e' hq => ?_⟩
  · cases hkept : (d.conclude inner id e).known? id with
    | none =>
      rw [answer_walk hr hkept hm]
      exact later (List.Subset.refl _)
    | some e' =>
      rcases Derivation.known?_conclude hkept with h | ⟨-, rfl, -⟩
      · exact nomatch hid.symm.trans h
      · exact (answer_known hr hkept).ge
  · rw [Derivation.known?_conclude_of_ne (ne_of_mem_of_not_mem hmem hm)]
    exact hothers m hmem
  · rcases Derivation.known?_conclude hq with hq | ⟨rfl, rfl, -⟩
    · exact hsupports.grow hgrown off hq
    · exact Or.inr ⟨rule, fuel, hr.1, later off⟩

/-- **An answer is no more than what would be answered in the end.** -/
theorem Grammar.expectationWithin_most (hg : g.IsLibrary) (fuel : Nat) (id : RuleId) (d : Derivation κ)
    (hd : d.Reliable (.nothing g)) (hmarked : ∀ m ∈ d.marked, d.known? m = none) :
    Ensures (g.expectationWithin fuel id) d (fun e d' => g.Most fuel id d e d') fun _ _ => True := by
  induction fuel generalizing id d with
  | zero => exact trivial
  | succ fuel ih =>
    apply Grammar.expectationWithin_ensures
    case absent => exact fun _ => trivial
    case unresolved => exact fun _ _ => ⟨Expectation.empty_le _, hmarked, fun _ _ h => Or.inl h⟩
    case target =>
      intro label target hr
      refine (ih target d hd hmarked).imp_ok fun e d' h => ⟨?_, h.marked, h.supports⟩
      rw [answer_target hr]
      exact h.le_answer
    case known =>
      intro rule e hr hp hknown
      exact ⟨(answer_known ⟨hr, hp⟩ hknown).ge, hmarked, fun _ _ h => Or.inl h⟩
    case mute =>
      intro rule hr hp hnone _
      exact absurd hnone (Body.derived?_ne_none (hg id rule hr) hp)
    case cut => exact fun _ _ _ _ _ => ⟨Expectation.empty_le _, hmarked, fun _ _ h => Or.inl h⟩
    case walk =>
      intro rule walk hr hwalk hknown hm
      have self : id :: d.marked ⊆ id :: d.marked := List.Subset.refl _
      have hread : ∀ q ∈ rule.body.reads g, ∀ d₁ : Derivation κ,
          d₁.Reliable (.nothing g) ∧ d₁.marked = id :: d.marked ∧ (∀ m ∈ id :: d.marked, d₁.known? m = none) ∧
            g.Supports (id :: d.marked) d.known? d₁.known? →
          Ensures (g.expectationWithin fuel q) d₁
            (fun e d₂ => (g.Outgrows (id :: d.marked) d₁.known? d₂.known? ∧
                e ≤ g.answer d₂.known? fuel (id :: d.marked) q) ∧
              d₂.Reliable (.nothing g) ∧ d₂.marked = id :: d.marked ∧ (∀ m ∈ id :: d.marked, d₂.known? m = none) ∧
                g.Supports (id :: d.marked) d.known? d₂.known?) fun _ _ => True := by
        rintro q _ d₁ ⟨hd₁, hmarks, hmarked₁, hsupports₁⟩
        refine (((g.expectationWithin_accounted hg fuel q d₁ hd₁).and (g.expectationWithin_least hg fuel q d₁ hd₁
          (.refl g (id :: d.marked) d₁.known?))).and (ih q d₁ hd₁ (hmarks ▸ hmarked₁))).imp ?_ fun _ _ _ => trivial
        rintro e d₂ ⟨⟨reads, least⟩, hanswer, hmarked₂, hsupports₂⟩
        rw [hmarks] at hanswer hmarked₂ hsupports₂
        refine ⟨⟨least.outgrows, hanswer⟩, reads.reliable, reads.marked.trans hmarks, hmarked₂, fun p e' hp => ?_⟩
        rcases hsupports₂ p e' hp with hp | hp
        · exact hsupports₁.grow least.outgrows self hp
        · exact Or.inr hp
      refine (Body.derived?_ensures hwalk hread ?_
        ⟨hd.enter id, rfl, List.forall_mem_cons.mpr ⟨hknown, hmarked⟩, fun _ _ h => Or.inl h⟩).imp ?_ fun _ _ _ => trivial
      · exact fun _ _ _ _ _ => ⟨fun _ => trivial, fun _ _ _ => trivial⟩
      rintro e inner ⟨hderives, -, -, hinner, hsupports⟩
      refine .conclude (.of_derived hr hwalk) hm hinner hsupports ?_
      -- what was read early is no more than what would be read in the end
      exact Body.Derives.compares Expectation.compares_ge (hg id rule hr) (hderives.upTo
        (J := fun d₁ d₂ => g.Outgrows (id :: d.marked) d₁.known? d₂.known?) (fun d => .refl g _ d.known?)
        (fun h h' => h.trans h') And.left fun h later => h.2.trans (later.answer_mono self self le_rfl))

/-! ## 4. Placeholders that get their targets -/

namespace Grammar.Resolves

variable {g' : Grammar κ} {p target : RuleId}

/-- More is answered when a placeholder is given its target. -/
theorem answer_le (h : g.Resolves p target g') (n : Nat) (M : List RuleId) (id : RuleId) :
    g.answer K n M id ≤ g'.answer K n M id := by
  induction n generalizing M id with
  | zero => exact le_rfl
  | succ n ih =>
    apply Grammar.answer_le
    case target =>
      intro _ label target hn hr
      cases hn
      rw [answer_target (h.rule?_eq hr nofun)]
      exact ih M target
    case known =>
      intro rule e hr hK
      rw [answer_known (h.proper hr) hK]
    case walk =>
      intro _ rule hn hr hK hm
      cases hn
      rw [answer_walk (h.proper hr) hK hm]
      exact rule.body.shown_le_shown (ih _)

/-- What is kept is still no more than what its rule would show. A placeholder without a target shows nothing. -/
theorem supports (h : g.Resolves p target g') (hK : g.Supports marks K K') : g'.Supports marks K K' := by
  intro q e hq
  refine (hK q e hq).imp_right ?_
  rintro ⟨rule, n, hr, hle⟩
  by_cases hqp : q = p
  · subst hqp
    obtain ⟨label, hr'⟩ := h.before
    cases hr.symm.trans hr'
    obtain ⟨label', hr'⟩ := h.after
    exact ⟨_, 0, hr', hle.trans (Expectation.empty_le _)⟩
  · exact ⟨rule, n, (h.others q hqp).trans hr, hle.trans (rule.body.shown_le_shown (h.answer_le n marks))⟩

end Grammar.Resolves

/-! ## 5. Placeholders that stand for what is kept -/

namespace Grammar

variable {p q q' first : RuleId} {rule' : Rule κ} {fuel : Nat}

omit [DecidableEq κ] in
theorem HandsOn.unique (h : g.HandsOn p q) (h' : g.HandsOn p q') : q = q' := by
  obtain ⟨_, hr⟩ := h
  obtain ⟨_, hr'⟩ := h'
  cases hr.symm.trans hr'
  rfl

omit [DecidableEq κ] in
/-- Placeholders that stand for a rule in the end do not stand for one another in a circle. -/
theorem Proper.not_circular (hq : g.Proper q rule) (hpath : Relation.ReflTransGen g.HandsOn p q) :
    ¬ Relation.TransGen g.HandsOn p p := by
  induction hpath using Relation.ReflTransGen.head_induction_on with
  | refl =>
    intro h
    obtain ⟨_, ⟨label, hr⟩, -⟩ := Relation.TransGen.head'_iff.mp h
    exact hq.ne_target label _ hr
  | head hop _ ih =>
    -- there is one way to go on, so the rest of the path is in the circle too
    intro h
    obtain ⟨_, hop', hback⟩ := Relation.TransGen.head'_iff.mp h
    cases hop.unique hop'
    exact ih (Relation.TransGen.tail' hback hop)

/-- Such placeholders are answered by what is kept for the rule. -/
theorem expectationWithin_of_handsOn (hq : g.Proper q rule) (hpath : Relation.ReflTransGen g.HandsOn p q)
    (hknown : d.known? q = some e) (hfuel : g.rules.size < fuel) : g.expectationWithin fuel p d = .ok e d := by
  let ahead (p p' : RuleId) : Prop := g.HandsOn p p' ∧ Relation.ReflTransGen g.HandsOn p' q
  have no_circle (p : RuleId) : ¬ Relation.TransGen ahead p p := by
    intro hcircle
    obtain ⟨_, ⟨hop, hpath⟩, -⟩ := Relation.TransGen.head'_iff.mp hcircle
    exact hq.not_circular (.head hop hpath) (Relation.TransGen.mono (fun _ _ h => h.1) _ _ hcircle)
  obtain ⟨height, hbound, hheight⟩ := exists_height (fun _ _ ⟨⟨_, hr⟩, _⟩ => lt_size_of_rule? hr) no_circle
  replace hfuel := Nat.lt_of_le_of_lt (hbound p) hfuel
  induction hpath using Relation.ReflTransGen.head_induction_on generalizing fuel with
  | refl =>
    cases fuel with
    | zero => exact absurd hfuel (Nat.not_lt_zero _)
    | succ fuel => exact expectationWithin_of_known hq.1 hq.2 hknown
  | @head p p' hop hpath ih =>
    cases fuel with
    | zero => exact absurd hfuel (Nat.not_lt_zero _)
    | succ fuel =>
      have hlower := hheight p p' ⟨hop, hpath⟩
      obtain ⟨label, hr⟩ := hop
      rw [expectationWithin, hr]
      exact ih (by omega)

omit [DecidableEq κ] in
/-- A request may go through more rules than there are. -/
theorem exists_derivationFuel (g : Grammar κ) : ∃ fuel, g.derivationFuel = fuel + 1 ∧ g.rules.size < fuel :=
  ⟨g.rules.size * (g.rules.size + 2) + (g.rules.size + 1), by rw [derivationFuel, Nat.succ_mul]; rfl, by omega⟩

/-- A rule that hands on the expectation of one that was asked for is answered. -/
theorem expectation_of_passes (hr : g.Proper id rule) (hpasses : rule.body.passes? = some first)
    (hpath : Relation.ReflTransGen g.HandsOn first q) (hq : g.Proper q rule') (hknown : d.known? q = some e) :
    ∃ e' d', g.expectation id d = .ok e' d' := by
  obtain ⟨fuel, hfuel, hsize⟩ := g.exists_derivationFuel
  have answered : Ensures (g.expectation id) d (fun _ _ => True) fun _ _ => False := by
    rw [expectation, hfuel]
    apply Grammar.expectationWithin_ensures
    case absent => exact fun hnone => Option.some_ne_none _ (hr.1.symm.trans hnone)
    case target => exact fun label target hr' => absurd hr' (hr.ne_target label target)
    case walk =>
      intro rule₁ walk hr₁ hwalk _ _
      cases hr₁.symm.trans hr.1
      cases (Body.derived?_of_passes hpasses g _).symm.trans hwalk
      have handed := expectationWithin_of_handsOn (d := d.enter id) hq hpath hknown hsize
      rw [Ensures, handed]
      trivial
    all_goals intros; trivial
  obtain ⟨e', d', h, -⟩ := answered.exists_ok
  exact ⟨e', d', h⟩

end Grammar

/-! ## 6. Requests -/

/-- The bookkeeping that requests leave, and placeholders that are given their targets between them. -/
inductive Grammar.Asked : Grammar κ → Derivation κ → Prop
  | fresh (g : Grammar κ) : Asked g .fresh
  | request {g : Grammar κ} {d d' : Derivation κ} {id : RuleId} {e : Expectation κ} (hd : Asked g d)
    (h : g.expectation id d = .ok e d') : Asked g d'
  | resolve {g g' : Grammar κ} {d : Derivation κ} {id target : RuleId} (hd : Asked g d)
    (h : g.Resolves id target g') : Asked g' d

namespace Grammar.Asked

variable {first q : RuleId} {rule' : Rule κ} {e' : Expectation κ}

theorem reliable (hg : g.IsLibrary) (hd : g.Asked d) : d.marked = [] ∧ d.Reliable (.nothing g) := by
  induction hd with
  | fresh g => exact ⟨rfl, rfl, nofun, nofun⟩
  | request _ h ih =>
    obtain ⟨hmarked, hd⟩ := ih hg
    have reads := (expectationWithin_accounted hg _ _ _ hd).ok h
    exact ⟨reads.marked.trans hmarked, reads.reliable⟩
  | resolve _ h ih =>
    obtain ⟨hmarked, hd⟩ := ih (h.isLibrary hg)
    exact ⟨hmarked, h.reliable hd⟩

theorem atRest (hg : g.IsLibrary) (hd : g.Asked d) : d.AtRest := by
  obtain ⟨hmarked, hreliable⟩ := hd.reliable hg
  exact ⟨hmarked, by rw [hreliable.depth_eq, hmarked, List.length_nil]⟩

/-- All that is kept between requests is no more than what its rule would show. -/
theorem supports (hg : g.IsLibrary) (hd : g.Asked d) : g.Supports [] (fun _ => none) d.known? := by
  induction hd with
  | fresh => exact fun _ _ h => nomatch h
  | @request g d d' id e hd h ih =>
    obtain ⟨hmarks, hreliable⟩ := hd.reliable hg
    have hmarked : ∀ m ∈ d.marked, d.known? m = none := by simp [hmarks]
    have most := (g.expectationWithin_most hg g.derivationFuel id d hreliable hmarked).ok h
    have least := (g.expectationWithin_least hg g.derivationFuel id d hreliable (.refl g [] d.known?)).ok h
    intro q e' hq
    rcases most.supports q e' hq with hq | hq
    · exact (ih hg).grow least.outgrows (List.Subset.refl _) hq
    · exact Or.inr (hmarks ▸ hq)
  | resolve _ h ih => exact h.supports (ih (h.isLibrary hg))

/-- **A rule that hands on the expectation of another one shows no more than that one**, when both have been asked for. -/
theorem le_of_handsOn (hg : g.IsLibrary) (hd : g.Asked d) (hr : g.rule? id = some rule)
    (hpasses : rule.body.passes? = some first) (hpath : Relation.ReflTransGen g.HandsOn first q)
    (hq : g.Proper q rule') (he : d.known? id = some e) (he' : d.known? q = some e') : e ≤ e' := by
  have handed (n : Nat) : g.answer d.known? n [] first ≤ e' := by
    clear hpasses
    induction hpath using Relation.ReflTransGen.head_induction_on generalizing n with
    | refl => exact hq.answer_le_known he'
    | head hop _ ih =>
      obtain ⟨label, hop⟩ := hop
      cases n with
      | zero => exact e'.empty_le
      | succ n =>
        rw [answer_target hop]
        exact ih n
  rcases hd.supports hg id e he with h | ⟨rule₁, n, hr₁, hle⟩
  · cases h
  · cases hr.symm.trans hr₁
    rw [Body.shown_of_passes hpasses] at hle
    exact hle.trans (handed n)

end Grammar.Asked

end Descent
