import Descent.Grammar.Basic
import Mathlib.Logic.Relation

/-!
# What bodies and grammars are made of

The parts of a body that laws speak of: the matchers that it tries by itself, the transform that it applies, and the
rules that it refers to. And the conditions under which laws hold. A grammar made by the library's combinators alone
has no hand-written rule, and refers to rules that it has; whether its placeholders do not just hand on
to one another is up to who built it.
-/

namespace Descent

variable {κ : Type}

namespace Body

/-- The matchers of a body that matches by itself. -/
def leaves : Body κ → List (Matcher κ)
  | .token m _ => [m]
  | .capture m => [m]
  | .oneOf ms => ms
  | _ => []

/-- The transform that a body applies to a value. -/
def transform? : Body κ → Option (Transform κ)
  | .token _ f => f
  | .map _ f => some f
  | _ => none

/-- The rules that a body begins with. -/
def entries : Body κ → List RuleId
  | .sequence (first :: _) => [first]
  | .either branches => branches
  | .optional inner _ => [inner]
  | .repeated first _ _ => [first]
  | .map inner _ => [inner]
  | .skipping inner => [inner]
  | .skippingAfter inner => [inner]
  | .within inner _ => [inner]
  | .placeholder (some target) => [target]
  | _ => []

/-- The rules that a body refers to. -/
def refs : Body κ → List RuleId
  | .sequence parts => parts
  | .either branches => branches
  | .optional inner _ => [inner]
  | .repeated first _ attempt => [first, attempt]
  | .map inner _ => [inner]
  | .skipping inner => [inner]
  | .skippingAfter inner => [inner]
  | .within inner policy => inner :: policy.toList
  | .placeholder target => target.toList
  | _ => []

theorem entries_subset_refs (b : Body κ) : b.entries ⊆ b.refs := by
  cases b with
  | sequence parts => cases parts <;> simp [entries, refs]
  | placeholder target => cases target <;> simp [entries, refs]
  | _ => simp [entries, refs]

/-- A body that a combinator of the library makes. -/
def IsLibrary : Body κ → Prop
  | .handWritten _ _ => False
  | _ => True

instance : DecidablePred (IsLibrary (κ := κ))
  | .handWritten _ _ => isFalse id
  | .token _ _ | .capture _ | .sequence _ | .either _ | .oneOf _ | .optional _ _ | .repeated _ _ _ | .map _ _
  | .skipping _ | .skippingAfter _ | .within _ _ | .placeholder _ => isTrue trivial

end Body

/-- A rule that neither kind of placeholder is, as a case split on rules leaves it. -/
theorem Rule.body_ne_placeholder {rule : Rule κ} (hnone : ∀ label, rule = ⟨label, .placeholder none⟩ → False)
    (hsome : ∀ label target, rule = ⟨label, .placeholder (some target)⟩ → False) (target : Option RuleId) :
    rule.body ≠ .placeholder target := by
  intro h
  cases target with
  | none => exact hnone rule.label (by rw [← h])
  | some target => exact hsome rule.label target (by rw [← h])

namespace Grammar

/-- No rule is hand-written. -/
def IsLibrary (g : Grammar κ) : Prop := ∀ id rule, g.rule? id = some rule → rule.body.IsLibrary

/-- One rule refers to another. -/
def Refers (g : Grammar κ) (p q : RuleId) : Prop := ∃ rule, g.rule? p = some rule ∧ q ∈ rule.body.refs

/-- Rules refer to rules of the grammar. -/
def IsClosed (g : Grammar κ) : Prop :=
  ∀ id rule, g.rule? id = some rule → ∀ ref ∈ rule.body.refs, ref < g.rules.size

/-- A rule that stands for itself. -/
def Proper (g : Grammar κ) (id : RuleId) (rule : Rule κ) : Prop :=
  g.rule? id = some rule ∧ ∀ target, rule.body ≠ .placeholder target

theorem Proper.ne_target {g : Grammar κ} {id : RuleId} {rule : Rule κ} (h : g.Proper id rule) (label : Option String)
    (target : RuleId) : g.rule? id ≠ some ⟨label, .placeholder (some target)⟩ := by
  intro h'
  cases h'.symm.trans h.1
  exact h.2 _ rfl

/-- One rule is a placeholder for another. -/
def HandsOn (g : Grammar κ) (p q : RuleId) : Prop := ∃ label, g.rule? p = some ⟨label, .placeholder (some q)⟩

/-- No placeholders stand for one another in a circle: every cycle passes through a rule that is none. -/
def IsGuarded (g : Grammar κ) : Prop := ∀ id, ¬ Relation.TransGen g.HandsOn id id

theorem isGuarded_empty : (empty : Grammar κ).IsGuarded := by
  intro id h
  obtain ⟨q, ⟨label, hr⟩, -⟩ := Relation.TransGen.head'_iff.mp h
  cases hr

theorem lt_size_of_rule? {g : Grammar κ} {id : RuleId} {rule : Rule κ} (h : g.rule? id = some rule) :
    id < g.rules.size :=
  (Array.getElem?_eq_some_iff.mp h).1

theorem exists_rule?_iff {g : Grammar κ} {rule : Rule κ} : (∃ id, g.rule? id = some rule) ↔ rule ∈ g.rules :=
  Array.mem_iff_getElem?.symm

/-- What holds of every rule can be checked on the table. -/
theorem forall_rule?_iff {g : Grammar κ} {p : Rule κ → Prop} :
    (∀ id rule, g.rule? id = some rule → p rule) ↔ ∀ rule ∈ g.rules, p rule := by
  simp only [← exists_rule?_iff, forall_exists_index]
  exact forall_comm

instance (g : Grammar κ) : Decidable g.IsLibrary :=
  decidable_of_iff (∀ rule ∈ g.rules, rule.body.IsLibrary) forall_rule?_iff.symm

instance (g : Grammar κ) : Decidable g.IsClosed :=
  decidable_of_iff (∀ rule ∈ g.rules, ∀ ref ∈ rule.body.refs, ref < g.rules.size) forall_rule?_iff.symm

theorem rule?_ne_none {g : Grammar κ} {id : RuleId} (h : id < g.rules.size) : g.rule? id ≠ none := by
  rw [rule?, Array.getElem?_eq_getElem h]
  exact nofun

end Grammar

end Descent
