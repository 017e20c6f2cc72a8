import Descent.Proofs.Counterpart.Run

/-!
# The straight part of a grammar

Laws that compare two runs matcher by matcher are about rules whose derivations meet no cycle. Whether they do is up to
the rules that can be reached from these, and to no others (`Grammar.IsStraightFrom`). Elsewhere in the grammar rules
may be read in circles, may be hand-written, or may be missing.

So such rules make a grammar of their own. In the *straight part* of a grammar each of them is in its place, and
the others have given way to a rule that does nothing. Its derivations meet no cycle at all, and **rules run there as
they do in the whole grammar** (`Grammar.parse_straightPart`): they are answered the same and come to the same. A law
that is proved of grammars without cycles is carried over by this to the straight rules of any grammar.

The bookkeeping of the two differs in what is kept for other rules. What is kept for straight rules is what they show,
whatever has been requested and run before (`Derivation.SureOfStraight`): a circle through other rules does not lead
through them, so a walk that comes from there finds none of them marked.
-/

namespace Descent

variable {κ : Type}

/-! ## 1. Straight rules -/

/-- All rules that can be reached from a rule are there and of the library, and none of them reads itself, directly or
through others. -/
structure Grammar.IsStraightFrom (g : Grammar κ) (p : RuleId) : Prop where
  library : ∀ q, Relation.ReflTransGen g.Refers p q → ∃ rule, g.rule? q = some rule ∧ rule.body.IsLibrary
  acyclic : ∀ q, Relation.ReflTransGen g.Refers p q → ¬ Relation.TransGen g.Consults q q

namespace Grammar

variable {g : Grammar κ} {p q : RuleId} {rule : Rule κ}

theorem IsStraightFrom.refers (h : g.IsStraightFrom p) (hpq : g.Refers p q) : g.IsStraightFrom q where
  library r hqr := h.library r (.head hpq hqr)
  acyclic r hqr := h.acyclic r (.head hpq hqr)

theorem IsStraightFrom.isLibrary (h : g.IsStraightFrom p) (hr : g.rule? p = some rule) : rule.body.IsLibrary := by
  obtain ⟨rule', hr', hb⟩ := h.library p .refl
  cases hr.symm.trans hr'
  exact hb

/-- What straight rules read is straight. -/
theorem IsStraightFrom.consults (h : g.IsStraightFrom p) (hpq : Relation.ReflTransGen g.Consults p q) :
    g.IsStraightFrom q := by
  induction hpq with
  | refl => exact h
  | tail _ hqr ih =>
    obtain ⟨rule, hr, hq⟩ := hqr
    exact ih.refers ⟨rule, hr, Body.reads_subset_refs (ih.isLibrary hr) g hq⟩

theorem isStraightOn_isStraightFrom (g : Grammar κ) : g.IsStraightOn g.IsStraightFrom where
  library _ _ h hr := h.isLibrary hr
  closed _ _ h hpq := h.consults (.single hpq)
  acyclic p h := h.acyclic p .refl

/-- Nothing is asked but of the rules that a rule refers to: a circle through the rule would lead through one of them.
-/
theorem IsStraightFrom.of_refs (hr : g.rule? p = some rule) (hb : rule.body.IsLibrary)
    (h : ∀ q ∈ rule.body.refs, g.IsStraightFrom q) : g.IsStraightFrom p where
  library q hpq := by
    rcases Relation.ReflTransGen.cases_head hpq with rfl | ⟨q', ⟨rule', hr', hq'⟩, hq⟩
    · exact ⟨rule, hr, hb⟩
    · cases hr.symm.trans hr'
      exact (h q' hq').library q hq
  acyclic q hpq hcircle := by
    rcases Relation.ReflTransGen.cases_head hpq with rfl | ⟨q', ⟨rule', hr', hq'⟩, hq⟩
    · obtain ⟨q, ⟨rule', hr', hread⟩, hback⟩ := Relation.TransGen.head'_iff.mp hcircle
      cases hr.symm.trans hr'
      exact (h q (Body.reads_subset_refs hb g hread)).acyclic q .refl (.tail' hback ⟨rule, hr, hread⟩)
    · cases hr.symm.trans hr'
      exact (h q' hq').acyclic q hq hcircle

/-- Rules of the library that refer to rules of a lower rank among them are straight. -/
theorem IsStraightFrom.of_rank {ids : List RuleId} (rank : RuleId → Nat)
    (h : ∀ p ∈ ids, ∃ rule ∈ g.rule? p, rule.body.IsLibrary ∧ ∀ q ∈ rule.body.refs, q ∈ ids ∧ rank q < rank p) :
    ∀ p ∈ ids, g.IsStraightFrom p := by
  intro p hp
  induction hn : rank p using Nat.strong_induction_on generalizing p with
  | h n ih =>
    subst hn
    obtain ⟨rule, hr, hb, hrefs⟩ := h p hp
    exact .of_refs hr hb fun q hq => ih (rank q) (hrefs q hq).2 q (hrefs q hq).1 rfl

/-! ## 2. The part that they make -/

open Classical in
/-- The grammar with the rules that are not straight replaced by empty sequences. -/
noncomputable def straightPart (g : Grammar κ) : Grammar κ :=
  { g with rules := g.rules.mapIdx fun p rule => if g.IsStraightFrom p then rule else ⟨none, .sequence []⟩ }

theorem rule?_straightPart (hp : g.IsStraightFrom p) : g.straightPart.rule? p = g.rule? p := by
  rw [rule?, straightPart, Array.getElem?_mapIdx, rule?]
  simp only [if_pos hp, Option.map_id']

theorem of_rule?_straightPart (hr : g.straightPart.rule? p = some rule) :
    g.IsStraightFrom p ∧ g.rule? p = some rule ∨ rule = ⟨none, .sequence []⟩ := by
  by_cases hp : g.IsStraightFrom p
  · exact Or.inl ⟨hp, rule?_straightPart hp ▸ hr⟩
  · rw [rule?, straightPart, Array.getElem?_mapIdx] at hr
    obtain ⟨rule', -, h⟩ := Option.map_eq_some_iff.mp hr
    rw [if_neg hp] at h
    exact Or.inr h.symm

theorem size_straightPart (g : Grammar κ) : g.straightPart.rules.size = g.rules.size := Array.size_mapIdx

/-- What reads anything there is straight. -/
theorem of_consults_straightPart (h : g.straightPart.Consults p q) : g.IsStraightFrom p ∧ g.Consults p q := by
  obtain ⟨rule, hr, hq⟩ := h
  rcases of_rule?_straightPart hr with ⟨hp, hr⟩ | rfl
  · exact ⟨hp, rule, hr, Body.reads_congr (hp.isLibrary hr) _ g ▸ hq⟩
  · cases hq

/-- **The derivations of the straight part meet no cycle.** -/
theorem isStraight_straightPart (g : Grammar κ) : g.straightPart.IsStraight where
  library p rule hr := by
    rcases of_rule?_straightPart hr with ⟨hp, hr⟩ | rfl
    · exact hp.isLibrary hr
    · trivial
  closed p rule hr q hq := by
    rcases of_rule?_straightPart hr with ⟨hp, hr⟩ | rfl
    · obtain ⟨rule', hr', -⟩ := hp.library q (.single ⟨rule, hr, hq⟩)
      exact g.size_straightPart ▸ lt_size_of_rule? hr'
    · cases hq
  acyclic p hcircle := by
    obtain ⟨q, hpq, -⟩ := Relation.TransGen.head'_iff.mp hcircle
    exact (of_consults_straightPart hpq).1.acyclic p .refl
      (Relation.TransGen.mono (fun _ _ h => (of_consults_straightPart h).2) p p hcircle)

/-- Straight rules and the same rules in the straight part. -/
noncomputable def sameStraight (g : Grammar κ) : Counterpart g g.straightPart :=
  .ofMirrors (ρ := fun p q => p = q ∧ g.IsStraightFrom p) fun p q hpq => by
    obtain ⟨rfl, hp⟩ := hpq
    obtain ⟨rule, hr, hb⟩ := hp.library p .refl
    exact ⟨hr, (rule?_straightPart hp).trans hr, Body.alike_self hb fun q hq => ⟨rfl, hp.refers ⟨rule, hr, hq⟩⟩,
      fun _ => rfl⟩

section Shows

variable [DecidableEq κ] {e : Expectation κ}

/-- Straight rules show in the straight part what they show. -/
theorem shows_straightPart (hp : g.IsStraightFrom p) : g.straightPart.Shows p e ↔ g.Shows p e := by
  have whole {p : RuleId} {e : Expectation κ} (hp : g.IsStraightFrom p) (h : g.straightPart.Shows p e) :
      g.Shows p e := by
    induction h with
    | rule hr hb _ ih =>
      rw [rule?_straightPart hp] at hr
      refine .rule hr hb fun q hq => ih q (Body.reads_congr hb _ g ▸ hq) ?_
      exact hp.refers ⟨_, hr, Body.reads_subset_refs hb g hq⟩
  refine ⟨whole hp, fun h => ?_⟩
  obtain ⟨rule, hr, -⟩ := hp.library p .refl
  obtain ⟨e', he'⟩ := exists_shows g.isStraight_straightPart (g.size_straightPart ▸ lt_size_of_rule? hr)
  rwa [h.unique (whole hp he')]

end Shows

end Grammar

/-! ## 3. Requests -/

/-- The bookkeeping between requests: nothing is being derived, and all that is kept for straight rules is what they
show. -/
structure Derivation.SureOfStraight (d : Derivation κ) (g : Grammar κ) [DecidableEq κ] : Prop extends d.AtRest where
  known : d.KeepsShownOn g g.IsStraightFrom

theorem Derivation.sureOfStraight_fresh [DecidableEq κ] (g : Grammar κ) :
    (fresh : Derivation κ).SureOfStraight g where
  marked := rfl
  depth := rfl
  known _ _ _ h := nomatch h

section Requests

variable [DecidableEq κ] {g : Grammar κ} {p : RuleId} {d : Derivation κ}

namespace Grammar

/-- However a request ends, and whatever rule it is for, it leaves sure what was sure, and a straight rule is answered
with what it shows. -/
theorem expectation_ensures_straight (g : Grammar κ) (id : RuleId) (hd : d.SureOfStraight g) :
    Ensures (g.expectation id) d (fun e d' => (g.IsStraightFrom id → g.Shows id e) ∧ d'.SureOfStraight g)
      fun _ d' => d'.SureOfStraight g := by
  have marks : ∀ m ∈ d.marked, g.IsStraightFrom m → Relation.TransGen g.Consults m id := by
    rw [hd.marked]
    exact nofun
  have shows := expectationWithin_shows g.isStraightOn_isStraightFrom g.derivationFuel id d hd.known marks
  have grows := expectationWithin_grows (g := g) g.derivationFuel id d
  exact (grows.and shows).imp (fun _ _ h => ⟨h.2.1, h.1.atRest hd.toAtRest, h.2.2.1⟩) fun _ _ h =>
    ⟨h.1.atRest hd.toAtRest, h.2⟩

/-- A run leaves it sure, too. -/
theorem parse_sureOfStraight [CustomMatcher κ] (g : Grammar κ) (fuel : Nat) (id : RuleId) (v : View)
    (s : ParseState κ) (hs : s.derivation.SureOfStraight g) :
    Leaves (g.parse fuel id v) s fun t => t.derivation.SureOfStraight g :=
  g.parse_bookkeeping (fun _ h => h)
    (fun id _ hd => (g.expectation_ensures_straight id hd).imp_ok fun _ _ h => h.2) fuel id v s hs

omit [DecidableEq κ] in
/-- Fuel that suffices in the straight part suffices in the grammar. -/
theorem suffices_of_straightPart {fuel : Nat} {marks : List RuleId} (hp : g.IsStraightFrom p)
    (h : g.straightPart.Suffices fuel marks p) : g.Suffices fuel marks p := by
  induction fuel generalizing marks p with
  | zero => exact h
  | succ fuel ih =>
    have same := rule?_straightPart hp
    refine ⟨fun label target hr => ih ?_ (h.1 label target (same.trans hr)), fun rule hr hm q hq => ?_⟩
    · exact hp.refers ⟨_, hr, List.mem_singleton_self target⟩
    · have hb := hp.isLibrary hr.1
      refine ih (hp.refers ⟨rule, hr.1, Body.reads_subset_refs hb g hq⟩) (h.2 rule ⟨same.trans hr.1, hr.2⟩ hm q ?_)
      exact Body.reads_congr hb _ g ▸ hq

/-- **A straight rule is answered with what it shows.** The walk has the fuel that it needs, for it meets straight rules
only. -/
theorem IsStraightFrom.answers (hp : g.IsStraightFrom p) : g.Answers (·.SureOfStraight g) False p := by
  intro d hd
  have enough : g.Suffices g.derivationFuel d.marked p := by
    have fuel : g.straightPart.derivationFuel = g.derivationFuel := by
      rw [derivationFuel, derivationFuel, size_straightPart]
    exact suffices_of_straightPart hp (fuel ▸ g.isStraight_straightPart.guarded.suffices d.marked p)
  have met (q : RuleId) (hq : Relation.ReflTransGen g.Consults p q) : q < g.rules.size ∧ ¬ g.MayRaise q := by
    obtain ⟨rule, hr, hb⟩ := (hp.consults hq).library q .refl
    exact ⟨lt_size_of_rule? hr, not_mayRaise hr hb⟩
  obtain ⟨e, d', h, -⟩ := ((expectationWithin_unraised g.derivationFuel p d (fun q hq => (met q hq).1) fun q hq =>
    (met q hq).2).imp (fun _ _ h => h) fun _ _ h => h.2 enough).exists_ok
  obtain ⟨shows, hd'⟩ := (g.expectation_ensures_straight p hd).ok h
  rw [Ensures, expectation, h]
  exact ⟨shows hp, hd'⟩

end Grammar

end Requests

/-! ## 4. Runs -/

namespace Grammar

variable [DecidableEq κ] {g : Grammar κ} {p : RuleId}

/-- States of a grammar and of its straight part that differ in bookkeeping and in how much is logged only, and have
straight policies. -/
abbrev InPart (g : Grammar κ) : ParseState κ → ParseState κ → Prop :=
  g.sameStraight.StatesWith (·.SureOfStraight g) (·.Sure g.straightPart)

theorem answers_sameStraight (p q : RuleId) (hpq : g.sameStraight.rules p q) :
    g.straightPart.Answers (·.Sure g.straightPart) False q :=
  g.isStraight_straightPart.answers (Counterpart.lt_size' hpq)

variable [CustomMatcher κ] {s s' : ParseState κ}

/-- **Straight rules run in the straight part as they do in the grammar.** -/
theorem parse_straightPart (hp : g.IsStraightFrom p) (fuel : Nat) (v : View) (hs : g.InPart s s') :
    Meets False False (g.parse fuel p v) s (g.straightPart.parse fuel p v) s' (fun r t r' t' => r = r' ∧ g.InPart t t')
      g.InPart := by
  induction fuel generalizing p v s s' with
  | zero => exact .error rfl rfl hs
  | succ fuel ih =>
    have keeps : g.sameStraight.Keeps g.InPart :=
      Counterpart.keeps_statesWith (fun _ _ h => h.2.answers) answers_sameStraight
    obtain ⟨rule, hr, hb⟩ := hp.library p .refl
    have same (q : RuleId) (hq : q ∈ rule.body.refs) : g.sameStraight.rules q q := ⟨rfl, hp.refers ⟨rule, hr, hq⟩⟩
    rw [parse, parse]
    refine keeps.step_meets (fun q q' v s s' hq hs => ?_) ⟨rfl, hp⟩ hr ((rule?_straightPart hp).trans hr)
      (Body.alike_self hb same) (fun _ => rfl) v hs
    obtain ⟨rfl, hq⟩ := hq
    exact ih hq v hs

end Grammar

end Descent
