import Descent.Proofs.Derivation.Readings
import Mathlib.Data.Finset.Card

/-!
# Derivations end

Between two marks a walk only follows placeholders, and if these do not stand for one another in a circle there is an
end to that; each mark is set on a rule that had none. So a walk needs fuel for as many marks as there are rules, and
between two of them for as many placeholders, and that is what `derivationFuel` gives it. **A derivation of a grammar
of the library ends in an answer** (`expectation_total`), from any bookkeeping whatsoever: what is kept or marked by
then can make the walk only shorter.

Of other grammars the same goes for every rule from which no rule can be reached that may refuse to be derived
(`expectationWithin_unraised`).
-/

namespace Descent

variable {κ : Type}

/-- Rules that lead to one another in no circle can be counted down. -/
theorem exists_height {r : RuleId → RuleId → Prop} {size : Nat} (hr : ∀ p q, r p q → p < size)
    (h : ∀ id, ¬ Relation.TransGen r id id) :
    ∃ height : RuleId → Nat, (∀ id, height id ≤ size) ∧ ∀ p q, r p q → height q < height p := by
  classical
  -- the rules that lie ahead
  let ahead (id : RuleId) : Finset RuleId := (Finset.range size).filter fun q => Relation.ReflTransGen r id q
  refine ⟨fun id => (ahead id).card, fun id => ?_, fun p q hpq => Finset.card_lt_card ?_⟩
  · exact (Finset.card_filter_le _ _).trans (Finset.card_range _).le
  · have here : p ∈ ahead p := Finset.mem_filter.mpr ⟨Finset.mem_range.mpr (hr p q hpq), .refl⟩
    have gone : p ∉ ahead q := fun hm => h p (.head' hpq (Finset.mem_filter.mp hm).2)
    refine Finset.ssubset_iff_subset_ne.mpr ⟨fun r hr => ?_, fun heq => gone (heq ▸ here)⟩
    obtain ⟨hr, hpath⟩ := Finset.mem_filter.mp hr
    exact Finset.mem_filter.mpr ⟨hr, .head hpq hpath⟩

/-- Placeholders that stand for no circle can be counted down. -/
theorem Grammar.IsGuarded.exists_hops {g : Grammar κ} (h : g.IsGuarded) :
    ∃ hops : RuleId → Nat, (∀ id, hops id ≤ g.rules.size) ∧ ∀ p q, g.HandsOn p q → hops q < hops p :=
  exists_height (fun _ _ ⟨_, hp⟩ => lt_size_of_rule? hp) h

/-- How many rules bear none of some marks. -/
def Grammar.unmarked (g : Grammar κ) (marks : List RuleId) : Nat :=
  ((Finset.range g.rules.size).filter (· ∉ marks)).card

theorem Grammar.unmarked_le (g : Grammar κ) (marks : List RuleId) : g.unmarked marks ≤ g.rules.size :=
  (Finset.card_filter_le _ _).trans (Finset.card_range _).le

theorem Grammar.unmarked_cons_lt {g : Grammar κ} {marks : List RuleId} {id : RuleId} (hid : id < g.rules.size)
    (h : id ∉ marks) : g.unmarked (id :: marks) < g.unmarked marks := by
  refine Finset.card_lt_card (Finset.ssubset_iff_subset_ne.mpr ⟨fun p hp => ?_, fun heq => ?_⟩)
  · obtain ⟨hp, hm⟩ := Finset.mem_filter.mp hp
    exact Finset.mem_filter.mpr ⟨hp, fun hmem => hm (List.mem_cons_of_mem _ hmem)⟩
  · have hm : id ∈ (Finset.range g.rules.size).filter (· ∉ marks) :=
      Finset.mem_filter.mpr ⟨Finset.mem_range.mpr hid, h⟩
    rw [← heq] at hm
    exact (Finset.mem_filter.mp hm).2 List.mem_cons_self

theorem Body.reads_subset_refs {b : Body κ} (hb : b.IsLibrary) (g : Grammar κ) : b.reads g ⊆ b.refs := by
  unfold reads
  split
  · simp [refs]
  · exact hb.elim
  · exact b.entries_subset_refs

/-- Fuel suffices for reading the expectation of a rule past some marks, if it does for what is read for it. -/
def Grammar.Suffices (g : Grammar κ) : Nat → List RuleId → RuleId → Prop
  | 0, _, _ => False
  | fuel + 1, marks, id =>
    (∀ label target, g.rule? id = some ⟨label, .placeholder (some target)⟩ → g.Suffices fuel marks target) ∧
      ∀ rule, g.Proper id rule → id ∉ marks → ∀ q ∈ rule.body.reads g, g.Suffices fuel (id :: marks) q

/-- Fuel for the marks and placeholders that are left suffices. -/
theorem Grammar.suffices_of_lt {g : Grammar κ} {fuel : Nat} {id : RuleId} {hops : RuleId → Nat}
    (hbound : ∀ id, hops id ≤ g.rules.size) (hhops : ∀ p q, g.HandsOn p q → hops q < hops p) {marks : List RuleId}
    (hfuel : g.unmarked marks * (g.rules.size + 2) + hops id < fuel) : g.Suffices fuel marks id := by
  induction fuel generalizing marks id with
  | zero => exact Nat.not_lt_zero _ hfuel
  | succ fuel ih =>
    refine ⟨fun label target hr => ih ?_, fun rule hr hm q _ => ih ?_⟩
    · have := hhops id target ⟨label, hr⟩
      omega
    · -- one mark more outweighs all the placeholders that may follow
      have hmark : (g.unmarked (id :: marks) + 1) * (g.rules.size + 2) ≤ g.unmarked marks * (g.rules.size + 2) :=
        Nat.mul_le_mul_right _ (unmarked_cons_lt (lt_size_of_rule? hr.1) hm)
      rw [Nat.succ_mul] at hmark
      have := hbound q
      omega

/-- Whatever is marked, the fuel of a derivation suffices if no placeholders stand for one another in a circle. -/
theorem Grammar.IsGuarded.suffices {g : Grammar κ} (hguarded : g.IsGuarded) (marks : List RuleId) (id : RuleId) :
    g.Suffices g.derivationFuel marks id := by
  obtain ⟨hops, hbound, hhops⟩ := hguarded.exists_hops
  refine suffices_of_lt hbound hhops ?_
  have hmarks := Nat.mul_le_mul_right (g.rules.size + 2) (g.unmarked_le marks)
  have := hbound id
  rw [derivationFuel, Nat.succ_mul]
  omega

section Total

variable [DecidableEq κ] {g : Grammar κ} {id : RuleId} {rule : Rule κ}

namespace Grammar

/-- Rules read rules of the grammar, also by name. -/
def IsSelfContained (g : Grammar κ) : Prop :=
  ∀ id rule, g.rule? id = some rule → ∀ q ∈ rule.body.reads g, q < g.rules.size

instance (g : Grammar κ) : Decidable g.IsSelfContained :=
  decidable_of_iff (∀ rule ∈ g.rules, ∀ q ∈ rule.body.reads g, q < g.rules.size) forall_rule?_iff.symm

/-- The derivation of a rule may end in a fault of its own: something that its body asks for is not there, or the body
may refuse to conclude from what it has read. -/
def MayRaise (g : Grammar κ) (id : RuleId) : Prop :=
  ∃ rule, g.rule? id = some rule ∧
    ((∃ fault, .error fault ∈ rule.body.asks g) ∨ ∃ es fault, rule.body.concluded es = .error fault)

/-- No rule of the library does. -/
theorem not_mayRaise (hr : g.rule? id = some rule) (hb : rule.body.IsLibrary) : ¬ g.MayRaise id := by
  rintro ⟨rule', hr', h⟩
  cases hr.symm.trans hr'
  rcases h with ⟨fault, hlost⟩ | ⟨es, fault, hfault⟩
  · rw [Body.finds_of_library g hb] at hlost
    simp at hlost
  · obtain ⟨e, he⟩ := Body.concluded_of_library hb es
    cases he.symm.trans hfault

omit [DecidableEq κ] in
/-- What can be reached in such a grammar is there. -/
theorem IsSelfContained.lt_size (hg : g.IsSelfContained) (hid : id < g.rules.size) (p : RuleId)
    (hp : Relation.ReflTransGen g.Consults id p) : p < g.rules.size := by
  induction hp with
  | refl => exact hid
  | tail _ hpq _ =>
    obtain ⟨rule, hr, hq⟩ := hpq
    exact hg _ rule hr _ hq

/-- **Where no such rule can be reached, a walk ends in an answer** if its fuel suffices. -/
theorem expectationWithin_unraised (fuel : Nat) (id : RuleId) (d : Derivation κ)
    (hthere : ∀ p, Relation.ReflTransGen g.Consults id p → p < g.rules.size)
    (hquiet : ∀ p, Relation.ReflTransGen g.Consults id p → ¬ g.MayRaise p) :
    Ensures (g.expectationWithin fuel id) d (fun _ d' => d'.marked = d.marked)
      fun fault _ => fault = .endlessDerivation ∧ ¬ g.Suffices fuel d.marked id := by
  induction fuel generalizing id d with
  | zero => exact ⟨rfl, fun h => h⟩
  | succ fuel ih =>
    have further {rule : Rule κ} (hr : g.rule? id = some rule) {q : RuleId} (hq : q ∈ rule.body.reads g)
        (d : Derivation κ) : Ensures (g.expectationWithin fuel q) d (fun _ d' => d'.marked = d.marked)
          fun fault _ => fault = .endlessDerivation ∧ ¬ g.Suffices fuel d.marked q :=
      ih q d (fun p hp => hthere p (hp.head ⟨rule, hr, hq⟩)) fun p hp => hquiet p (hp.head ⟨rule, hr, hq⟩)
    apply Grammar.expectationWithin_ensures
    case absent => exact fun hr => absurd hr (rule?_ne_none (hthere id .refl))
    case unresolved => exact fun _ _ => rfl
    case target =>
      intro label target hr
      have hmem : target ∈ (Body.placeholder (κ := κ) (some target)).reads g := List.mem_singleton_self target
      refine (further hr hmem d).imp (fun _ _ h => h) fun fault d' h => ?_
      exact ⟨h.1, fun hfuel => h.2 (hfuel.1 label target hr)⟩
    case known => exact fun _ _ _ _ _ => rfl
    case mute => exact fun _ _ _ _ _ => rfl
    case cut => exact fun _ _ _ _ _ => rfl
    case walk =>
      intro rule walk hr hwalk _ hm
      have hnot : ¬ g.MayRaise id := hquiet id .refl
      rw [Body.derived?_eq_walk hwalk]
      refine (Body.walk_ensures (I := fun d₁ => d₁.marked = id :: d.marked) (J := fun _ => True) (R := fun _ _ => True)
        (fun q hq d₁ hd₁ => ?_) ?_ ?_ rfl).imp_ok ?_
      · refine (further hr hq d₁).imp ?_ fun fault d' h => ?_
        · exact fun _ _ h => ⟨h.trans hd₁, fun _ => ⟨trivial, trivial⟩⟩
        · exact ⟨h.1, fun hfuel => h.2 (hd₁ ▸ hfuel.2 rule (.of_derived hr hwalk) hm q hq)⟩
      · exact fun fault hlost _ _ => absurd ⟨rule, hr, Or.inl ⟨fault, hlost⟩⟩ hnot
      · exact fun es fault _ _ _ hfault => absurd ⟨rule, hr, Or.inr ⟨es, fault, hfault⟩⟩ hnot
      · rintro e inner ⟨hinner, -⟩
        rw [Derivation.marked_conclude, hinner, List.erase_cons_head]

/-- A walk over a grammar of the library ends in an answer if its fuel suffices. -/
theorem expectationWithin_library (hg : g.IsLibrary) (hclosed : g.IsClosed) (hid : id < g.rules.size) (fuel : Nat)
    (d : Derivation κ) :
    Ensures (g.expectationWithin fuel id) d (fun _ _ => True)
      fun fault _ => fault = .endlessDerivation ∧ ¬ g.Suffices fuel d.marked id := by
  have contained : g.IsSelfContained :=
    fun id rule hr q hq => hclosed id rule hr q (Body.reads_subset_refs (hg id rule hr) g hq)
  have quiet : ∀ p, ¬ g.MayRaise p := by
    rintro p ⟨rule, hr, hraise⟩
    exact not_mayRaise hr (hg p rule hr) ⟨rule, hr, hraise⟩
  exact (expectationWithin_unraised fuel id d (contained.lt_size hid) fun p _ => quiet p).imp_ok fun _ _ _ => trivial

/-- **A derivation of a grammar of the library ends in an answer.** -/
theorem expectation_total (hg : g.IsLibrary) (hclosed : g.IsClosed) (hguarded : g.IsGuarded) (hid : id < g.rules.size)
    (d : Derivation κ) : ∃ e d', g.expectation id d = .ok e d' := by
  obtain ⟨e, d', h, -⟩ := ((expectationWithin_library hg hclosed hid g.derivationFuel d).imp (fun _ _ h => h)
    fun _ _ h => h.2 (hguarded.suffices d.marked id)).exists_ok
  exact ⟨e, d', h⟩

/-- Whatever the placeholders stand for, a derivation of a grammar of the library meets no fault but that it does not
end. -/
theorem expectation_fault (hg : g.IsLibrary) (hclosed : g.IsClosed) (hid : id < g.rules.size) (d : Derivation κ) :
    Ensures (g.expectation id) d (fun _ _ => True) fun e _ => e = .endlessDerivation :=
  (expectationWithin_library hg hclosed hid g.derivationFuel d).imp (fun _ _ h => h) fun _ _ h => h.1

end Grammar

end Total

end Descent
