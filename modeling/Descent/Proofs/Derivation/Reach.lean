import Descent.Proofs.Derivation.Walk

/-!
# What can be reached from the entry of a rule

An expectation shows two kinds of things: matchers, and that ambient whitespace is skipped. Each is borne by some rules
and is handed on along entry edges, from the rules that a rule begins with to the rule itself; ambient whitespace stops
where a rule runs under a policy of its own. A `Trait` is either of these things, so that everything is said once.

What a walk sees from a rule depends on the marks: it turns back at every marked rule. `Trait.Avoids` is reaching
without passing a mark, and `Avoids.next` is the one fact about graphs that derivations rest on: **what can be reached
from a rule past some marks is borne by the rule, or can be reached from one of its entries past these marks and the
rule itself**. A path that comes back to where it began can be cut short.
-/

namespace Descent

variable {κ : Type}

/-- One rule begins with another. -/
def Grammar.Entry (g : Grammar κ) (p q : RuleId) : Prop := ∃ rule, g.rule? p = some rule ∧ q ∈ rule.body.entries

/-- One rule begins with another, under the policy that it has itself. -/
def Grammar.OpenEntry (g : Grammar κ) (p q : RuleId) : Prop :=
  ∃ rule, g.rule? p = some rule ∧ q ∈ rule.body.entries ∧ ∀ inner policy, rule.body ≠ .within inner policy

/-- Something that an expectation may show. -/
inductive Trait (κ : Type) where
  /-- the matcher could be tried -/
  | matcher (m : Matcher κ)
  /-- whatever whitespace is allowed where the rule runs may come first -/
  | ambient

namespace Trait

/-- Whether an expectation shows it. -/
def Shown : Trait κ → Expectation κ → Prop
  | .matcher m, e => m ∈ e.prefixes
  | .ambient, e => e.ambient = true

/-- Whether a body bears it by itself. -/
def Borne : Trait κ → Body κ → Prop
  | .matcher m, b => m ∈ b.leaves
  | .ambient, b => ∃ inner, b = .skipping inner

/-- Whether a body hands it on from the rules that it begins with. -/
def Passes : Trait κ → Body κ → Prop
  | .matcher _, _ => True
  | .ambient, b => ∀ inner policy, b ≠ .within inner policy

/-- Along which edges it is handed on. -/
def Edge (T : Trait κ) (g : Grammar κ) (p q : RuleId) : Prop :=
  ∃ rule, g.rule? p = some rule ∧ T.Passes rule.body ∧ q ∈ rule.body.entries

/-- Whether it can be reached from a rule. -/
def Reached (T : Trait κ) (g : Grammar κ) (p : RuleId) : Prop :=
  ∃ q rule, Relation.ReflTransGen (T.Edge g) p q ∧ g.rule? q = some rule ∧ T.Borne rule.body

/-- Whether it can be reached from a rule without passing any of some marks. -/
def Avoids (T : Trait κ) (g : Grammar κ) (marks : List RuleId) (p : RuleId) : Prop :=
  p ∉ marks ∧ ∃ q rule, Relation.ReflTransGen (fun a b => T.Edge g a b ∧ b ∉ marks) p q ∧
    g.rule? q = some rule ∧ T.Borne rule.body

variable {T : Trait κ} {g : Grammar κ} {marks : List RuleId} {p q : RuleId} {rule : Rule κ}

theorem Avoids.reached (h : T.Avoids g marks p) : T.Reached g p := by
  obtain ⟨-, q, rule, hpath, hr, hb⟩ := h
  exact ⟨q, rule, hpath.lift id fun _ _ h => h.1, hr, hb⟩

/-- Without marks, what is reached is reached past them. -/
theorem Reached.avoids (h : T.Reached g p) : T.Avoids g [] p := by
  obtain ⟨q, rule, hpath, hr, hb⟩ := h
  exact ⟨by simp, q, rule, hpath.lift id fun _ _ h => ⟨h, by simp⟩, hr, hb⟩

theorem Reached.of_borne (hr : g.rule? p = some rule) (hb : T.Borne rule.body) : T.Reached g p :=
  ⟨p, rule, .refl, hr, hb⟩

theorem Reached.of_entry (hr : g.rule? p = some rule) (hp : T.Passes rule.body) (hq : q ∈ rule.body.entries)
    (h : T.Reached g q) : T.Reached g p := by
  obtain ⟨q', rule', hpath, hr', hb⟩ := h
  exact ⟨q', rule', .head ⟨rule, hr, hp, hq⟩ hpath, hr', hb⟩

/-- What is reached from a rule is borne by it, or reached from one of its entries. -/
theorem Reached.next (hr : g.rule? p = some rule) (h : T.Reached g p) :
    T.Borne rule.body ∨ T.Passes rule.body ∧ ∃ q ∈ rule.body.entries, T.Reached g q := by
  obtain ⟨q, rule', hpath, hr', hb⟩ := h
  rcases hpath.cases_head with rfl | ⟨c, ⟨rule₁, hr₁, hp, hc⟩, hpath⟩
  · cases hr.symm.trans hr'
    exact Or.inl hb
  · cases hr.symm.trans hr₁
    exact Or.inr ⟨hp, c, hc, q, rule', hpath, hr', hb⟩

/-- A path past some marks stays where it began, or goes on past the marks and its beginning. -/
theorem path_next (h : Relation.ReflTransGen (fun a b => T.Edge g a b ∧ b ∉ marks) p q) :
    q = p ∨ ∃ c, T.Edge g p c ∧ c ∉ p :: marks ∧
      Relation.ReflTransGen (fun a b => T.Edge g a b ∧ b ∉ p :: marks) c q := by
  induction h with
  | refl => exact Or.inl rfl
  | tail _ hbc ih =>
    obtain ⟨hedge, hc⟩ := hbc
    rename_i b c _
    by_cases hcp : c = p
    · exact Or.inl hcp
    · have fresh : c ∉ p :: marks := by simp [hcp, hc]
      rcases ih with rfl | ⟨c', hc', hfresh, hpath⟩
      · exact Or.inr ⟨c, hedge, fresh, .refl⟩
      · exact Or.inr ⟨c', hc', hfresh, hpath.tail ⟨hedge, fresh⟩⟩

/-- **What is reached from a rule past some marks** is borne by the rule, or reached from one of its entries past these
marks and the rule itself. -/
theorem Avoids.next (hr : g.rule? p = some rule) (h : T.Avoids g marks p) :
    T.Borne rule.body ∨ T.Passes rule.body ∧ ∃ q ∈ rule.body.entries, T.Avoids g (p :: marks) q := by
  obtain ⟨-, q, rule', hpath, hr', hb⟩ := h
  rcases path_next hpath with rfl | ⟨c, ⟨rule₁, hr₁, hp, hc⟩, hfresh, hpath⟩
  · cases hr.symm.trans hr'
    exact Or.inl hb
  · cases hr.symm.trans hr₁
    exact Or.inr ⟨hp, c, hc, hfresh, q, rule', hpath, hr', hb⟩

/-- A placeholder bears nothing, and stands for its target. -/
theorem Avoids.target {label : Option String} {t : RuleId} (hr : g.rule? p = some ⟨label, .placeholder (some t)⟩)
    (h : T.Avoids g marks p) : T.Avoids g marks t := by
  obtain ⟨-, q, rule', hpath, hr', hb⟩ := h
  rcases hpath.cases_head with rfl | ⟨c, ⟨⟨rule₁, hr₁, -, hc⟩, hfresh⟩, hpath⟩
  · cases hr.symm.trans hr'
    cases T with
    | matcher m => simp [Borne, Body.leaves] at hb
    | ambient => simp [Borne] at hb
  · cases hr.symm.trans hr₁
    cases List.mem_singleton.mp hc
    exact ⟨hfresh, q, rule', hpath, hr', hb⟩

/-- Matchers are handed on along all entry edges. -/
theorem reached_matcher_iff {m : Matcher κ} : (matcher m).Reached g p ↔
    ∃ q rule, Relation.ReflTransGen g.Entry p q ∧ g.rule? q = some rule ∧ m ∈ rule.body.leaves := by
  have hedge : (matcher m).Edge g = g.Entry := by
    funext a b
    simp [Edge, Grammar.Entry, Passes]
  simp only [Reached, hedge, Borne]

/-- Ambient whitespace is handed on where no policy of a rule's own is in between. -/
theorem reached_ambient_iff : (ambient : Trait κ).Reached g p ↔
    ∃ q label inner, Relation.ReflTransGen g.OpenEntry p q ∧ g.rule? q = some ⟨label, .skipping inner⟩ := by
  have hedge : (ambient : Trait κ).Edge g = g.OpenEntry := by
    funext a b
    simp only [Edge, Grammar.OpenEntry, Passes, eq_iff_iff]
    exact exists_congr fun rule => and_congr_right fun _ => and_comm
  constructor
  · rintro ⟨q, ⟨label, body⟩, hpath, hr, inner, rfl⟩
    exact ⟨q, label, inner, hedge ▸ hpath, hr⟩
  · rintro ⟨q, label, inner, hpath, hr⟩
    exact ⟨q, ⟨label, .skipping inner⟩, hedge ▸ hpath, hr, inner, rfl⟩

end Trait

end Descent
