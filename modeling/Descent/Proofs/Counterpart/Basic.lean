import Descent.Proofs.Run.Final
import Mathlib.Data.List.Forall2

/-!
# Rules that do the same

Two grammars may hold rules that do the same: one was built as the other was, or is the other with rules added that
nobody refers to, or without some that make no difference. A `Counterpart` says which rules correspond. Mostly they are
of one kind, with corresponding rules in the same places (`Body.Alike`); which rules these are by number, and what they
are labelled, has no part in it.

A rule of the first grammar may also be a *layer* around another (`Body.layer?`) that the second grammar does without:
one that would skip whitespace if there were a policy. This is allowed where no policy is ever active. Layers are not
put around each other without end, and `lag` counts them down.

What corresponding rules show, and what they ask for, corresponds. Both are read off the bodies, one case for each
combinator, with no run in them.
-/

namespace Descent

variable {κ α β : Type}

/-! ## 1. Counterparts -/

/-- Bodies of one kind, whose rules correspond as `ρ` says and whose policies as `U` says. -/
inductive Body.Alike (ρ : RuleId → RuleId → Prop) (U : Option RuleId → Option RuleId → Prop) :
    Body κ → Body κ → Prop
  | token (m : Matcher κ) (f : Option (Transform κ)) : Alike ρ U (.token m f) (.token m f)
  | capture (m : Matcher κ) : Alike ρ U (.capture m) (.capture m)
  | oneOf (ms : List (Matcher κ)) : Alike ρ U (.oneOf ms) (.oneOf ms)
  | sequence {parts parts' : List RuleId} (h : List.Forall₂ ρ parts parts') :
    Alike ρ U (.sequence parts) (.sequence parts')
  | either {branches branches' : List RuleId} (h : List.Forall₂ ρ branches branches') :
    Alike ρ U (.either branches) (.either branches')
  | optional {inner inner' : RuleId} (h : ρ inner inner') (default : Value κ) :
    Alike ρ U (.optional inner default) (.optional inner' default)
  | repeated {first first' attempt attempt' : RuleId} (h : ρ first first') (minimum : Int) (h' : ρ attempt attempt') :
    Alike ρ U (.repeated first minimum attempt) (.repeated first' minimum attempt')
  | map {inner inner' : RuleId} (h : ρ inner inner') (f : Transform κ) : Alike ρ U (.map inner f) (.map inner' f)
  | skipping {inner inner' : RuleId} (h : ρ inner inner') : Alike ρ U (.skipping inner) (.skipping inner')
  | skippingAfter {inner inner' : RuleId} (h : ρ inner inner') :
    Alike ρ U (.skippingAfter inner) (.skippingAfter inner')
  | within {inner inner' : RuleId} {policy policy' : Option RuleId} (h : ρ inner inner') (hpolicy : U policy policy') :
    Alike ρ U (.within inner policy) (.within inner' policy')
  | placeholder {target target' : Option RuleId} (h : Option.Rel ρ target target') :
    Alike ρ U (.placeholder target) (.placeholder target')

section Alike

variable {ρ ρ' : RuleId → RuleId → Prop} {U U' : Option RuleId → Option RuleId → Prop} {b b' : Body κ}

theorem Body.Alike.isLibrary (h : b.Alike ρ U b') : b.IsLibrary := by
  cases h <;> trivial

theorem Body.Alike.isLibrary' (h : b.Alike ρ U b') : b'.IsLibrary := by
  cases h <;> trivial

/-- A body with other rules in the places of those that it refers to. -/
def Body.renamed (f : RuleId → RuleId) : Body κ → Body κ
  | .sequence parts => .sequence (parts.map f)
  | .either branches => .either (branches.map f)
  | .optional inner default => .optional (f inner) default
  | .repeated first minimum attempt => .repeated (f first) minimum (f attempt)
  | .map inner transform => .map (f inner) transform
  | .skipping inner => .skipping (f inner)
  | .skippingAfter inner => .skippingAfter (f inner)
  | .within inner policy => .within (f inner) (policy.map f)
  | .placeholder target => .placeholder (target.map f)
  | b => b

theorem Body.renamed_id (b : Body κ) : b.renamed id = b := by
  cases b <;> simp [renamed]

/-- The policy that a body sets. -/
def Body.policy? : Body κ → Option (Option RuleId)
  | .within _ policy => some policy
  | _ => none

theorem Body.policy_subset_refs {P : Option RuleId} (h : b.policy? = some P) : P.toList ⊆ b.refs := by
  cases b with
  | within inner policy =>
    cases h
    exact List.subset_cons_self inner _
  | _ => cases h

/-- A body of the library is of one kind with those that have corresponding rules in the places of its own. -/
theorem Body.alike_renamed (hb : b.IsLibrary) {f : RuleId → RuleId} (h : ∀ p ∈ b.refs, ρ p (f p))
    (hU : ∀ P, b.policy? = some P → U P (P.map f)) : b.Alike ρ U (b.renamed f) := by
  have each {ids : List RuleId} (h : ∀ p ∈ ids, ρ p (f p)) : List.Forall₂ ρ ids (ids.map f) :=
    List.forall₂_map_right_iff.mpr (List.forall₂_same.mpr h)
  cases b with
  | token m transform => exact .token m transform
  | capture m => exact .capture m
  | oneOf ms => exact .oneOf ms
  | sequence parts => exact .sequence (each h)
  | either branches => exact .either (each h)
  | optional inner default => exact .optional (h inner List.mem_cons_self) default
  | repeated first minimum attempt =>
    exact .repeated (h first List.mem_cons_self) minimum (h attempt (List.mem_cons_of_mem _ List.mem_cons_self))
  | map inner transform => exact .map (h inner List.mem_cons_self) transform
  | skipping inner => exact .skipping (h inner List.mem_cons_self)
  | skippingAfter inner => exact .skippingAfter (h inner List.mem_cons_self)
  | within inner policy => exact .within (h inner List.mem_cons_self) (hU policy rfl)
  | placeholder target =>
    cases target with
    | none => exact .placeholder .none
    | some target => exact .placeholder (.some (h target List.mem_cons_self))
  | handWritten run derivative => exact hb.elim

/-- A body of the library is of one kind with itself. -/
theorem Body.alike_self (hb : b.IsLibrary) (hρ : ∀ q ∈ b.refs, ρ q q) : b.Alike ρ (Option.Rel ρ) b := by
  have h : b.Alike ρ (Option.Rel ρ) (b.renamed id) := by
    refine alike_renamed hb hρ fun P hP => ?_
    cases b with
    | within inner policy =>
      cases hP
      cases P with
      | none => exact .none
      | some q => exact .some (hρ q (List.mem_cons_of_mem _ List.mem_cons_self))
    | _ => cases hP
  rwa [renamed_id] at h

theorem forall₂_imp_mem {ids ids' : List RuleId} (h : List.Forall₂ ρ ids ids')
    (hρ : ∀ p ∈ ids, ∀ q ∈ ids', ρ p q → ρ' p q) : List.Forall₂ ρ' ids ids' := by
  induction h with
  | nil => exact .nil
  | cons hpq _ ih =>
    refine .cons (hρ _ List.mem_cons_self _ List.mem_cons_self hpq) (ih fun p hp q hq => ?_)
    exact hρ p (List.mem_cons_of_mem _ hp) q (List.mem_cons_of_mem _ hq)

theorem rel_imp_mem {P P' : Option RuleId} (h : Option.Rel ρ P P')
    (hρ : ∀ p ∈ P.toList, ∀ q ∈ P'.toList, ρ p q → ρ' p q) : Option.Rel ρ' P P' := by
  cases h with
  | none => exact .none
  | some h => exact .some (hρ _ List.mem_cons_self _ List.mem_cons_self h)

theorem rel_mono (hρ : ∀ p q, ρ p q → ρ' p q) (P P' : Option RuleId) (h : Option.Rel ρ P P') : Option.Rel ρ' P P' :=
  rel_imp_mem h fun p _ q _ => hρ p q

/-- Bodies of one kind stay so where more of what they refer to corresponds. -/
theorem Body.Alike.mono_refs (h : b.Alike ρ U b') (hρ : ∀ p ∈ b.refs, ∀ q ∈ b'.refs, ρ p q → ρ' p q)
    (hU : ∀ P P', b.policy? = some P → b'.policy? = some P' → U P P' → U' P P') : b.Alike ρ' U' b' := by
  have first {p q : RuleId} {ids ids' : List RuleId} (h : ρ p q) (hb : b.refs = p :: ids) (hb' : b'.refs = q :: ids') :
      ρ' p q := hρ p (hb ▸ List.mem_cons_self) q (hb' ▸ List.mem_cons_self) h
  cases h with
  | token m f => exact .token m f
  | capture m => exact .capture m
  | oneOf ms => exact .oneOf ms
  | sequence h => exact .sequence (forall₂_imp_mem h hρ)
  | either h => exact .either (forall₂_imp_mem h hρ)
  | optional h default => exact .optional (first h rfl rfl) default
  | repeated h minimum h' =>
    exact .repeated (first h rfl rfl) minimum
      (hρ _ (List.mem_cons_of_mem _ List.mem_cons_self) _ (List.mem_cons_of_mem _ List.mem_cons_self) h')
  | map h f => exact .map (first h rfl rfl) f
  | skipping h => exact .skipping (first h rfl rfl)
  | skippingAfter h => exact .skippingAfter (first h rfl rfl)
  | within h hpolicy => exact .within (first h rfl rfl) (hU _ _ rfl rfl hpolicy)
  | placeholder h => exact .placeholder (rel_imp_mem h hρ)

theorem Body.Alike.mono (h : b.Alike ρ U b') (hρ : ∀ p q, ρ p q → ρ' p q) (hU : ∀ P P', U P P' → U' P P') :
    b.Alike ρ' U' b' :=
  h.mono_refs (fun p _ q _ => hρ p q) fun P P' _ _ => hU P P'

/-- What the one refers to corresponds to what the other refers to, in order. -/
theorem Body.Alike.refs (h : b.Alike ρ U b') (hU : ∀ {P P'}, U P P' → Option.Rel ρ P P') :
    List.Forall₂ ρ b.refs b'.refs := by
  cases h with
  | token | capture | oneOf => exact .nil
  | sequence h => exact h
  | either h => exact h
  | optional h => exact .cons h .nil
  | repeated h _ h' => exact .cons h (.cons h' .nil)
  | map h => exact .cons h .nil
  | skipping h => exact .cons h .nil
  | skippingAfter h => exact .cons h .nil
  | within h hpolicy =>
    cases hU hpolicy with
    | none => exact .cons h .nil
    | some hP => exact .cons h (.cons hP .nil)
  | placeholder h =>
    cases h with
    | none => exact .nil
    | some h => exact .cons h .nil

/-- And so does what they read. -/
theorem Body.Alike.reads (h : b.Alike ρ U b') (hU : ∀ {P P'}, U P P' → Option.Rel ρ P P') (g g' : Grammar κ) :
    List.Forall₂ ρ (b.reads g) (b'.reads g') := by
  cases h with
  | token | capture | oneOf => exact .nil
  | sequence h =>
    cases h with
    | nil => exact .nil
    | cons h _ => exact .cons h .nil
  | either h => exact h
  | optional h => exact .cons h .nil
  | repeated h => exact .cons h .nil
  | map h => exact .cons h .nil
  | skipping h => exact .cons h .nil
  | skippingAfter h => exact .cons h .nil
  | within h hpolicy =>
    cases hU hpolicy with
    | none => exact .cons h .nil
    | some hP => exact .cons hP (.cons h .nil)
  | placeholder h =>
    cases h with
    | none => exact .nil
    | some h => exact .cons h .nil

theorem exists_of_forall₂_right {ids ids' : List RuleId} (h : List.Forall₂ ρ ids ids') {q : RuleId} (hq : q ∈ ids') :
    ∃ p ∈ ids, ρ p q := by
  induction h with
  | nil => cases hq
  | cons hpq _ ih =>
    rcases List.mem_cons.mp hq with rfl | hq
    · exact ⟨_, List.mem_cons_self, hpq⟩
    · obtain ⟨p, hp, hpq⟩ := ih hq
      exact ⟨p, List.mem_cons_of_mem _ hp, hpq⟩

end Alike

/-- The rule that a body is only a layer around, as long as there is no policy. -/
def Body.layer? : Body κ → Option RuleId
  | .skipping inner => some inner
  | .skippingAfter inner => some inner
  | .within inner none => some inner
  | _ => none

/-- Why a rule of one grammar corresponds to one of another. -/
inductive Grammar.Corresponds (g g' : Grammar κ) (ρ : RuleId → RuleId → Prop)
    (U : Option RuleId → Option RuleId → Prop) (lag : RuleId → Nat) (p q : RuleId) : Prop
  /-- they are of one kind; placeholders for nothing are told apart by their labels -/
  | alike {rule rule' : Rule κ} (hr : g.rule? p = some rule) (hr' : g'.rule? q = some rule')
      (h : rule.body.Alike ρ U rule'.body) (hlabel : rule.body = .placeholder none → rule.label = rule'.label) :
      Corresponds g g' ρ U lag p q
  /-- the first is a layer around one that corresponds to the second, and there are no policies -/
  | layer {rule : Rule κ} {inner : RuleId} (hr : g.rule? p = some rule) (hlayer : rule.body.layer? = some inner)
      (h : ρ inner q) (hlag : lag inner < lag p) (hbare : ∀ P P', U P P' → P = none ∧ P' = none) :
      Corresponds g g' ρ U lag p q

/-- Which rules and policies of two grammars correspond. -/
structure Counterpart (g g' : Grammar κ) where
  rules : RuleId → RuleId → Prop
  policies : Option RuleId → Option RuleId → Prop
  /-- how many layers there are around a rule at most -/
  lag : RuleId → Nat
  depth : Nat
  lag_le : ∀ p, lag p ≤ depth
  rel : ∀ {P P'}, policies P P' → Option.Rel rules P P'
  corresponds : ∀ {p q}, rules p q → g.Corresponds g' rules policies lag p q

/-- Rules of one kind, with related rules in the same places. Placeholders for nothing are told apart by their labels.
-/
inductive Grammar.Mirrors (g g' : Grammar κ) (ρ : RuleId → RuleId → Prop) (p q : RuleId) : Prop
  | intro {rule rule' : Rule κ} (hr : g.rule? p = some rule) (hr' : g'.rule? q = some rule')
      (h : rule.body.Alike ρ (Option.Rel ρ) rule'.body)
      (hlabel : rule.body = .placeholder none → rule.label = rule'.label) : Mirrors g g' ρ p q

/-- Rules that mirror one another correspond, and none is a layer. -/
def Counterpart.ofMirrors {g g' : Grammar κ} {ρ : RuleId → RuleId → Prop} (h : ∀ p q, ρ p q → g.Mirrors g' ρ p q) :
    Counterpart g g' where
  rules := ρ
  policies := Option.Rel ρ
  lag _ := 0
  depth := 0
  lag_le _ := Nat.le_refl 0
  rel hP := hP
  corresponds hpq := by
    obtain ⟨hr, hr', halike, hlabel⟩ := h _ _ hpq
    exact .alike hr hr' halike hlabel

theorem Grammar.mirrors_self {g : Grammar κ} (hg : g.IsLibrary) (hclosed : g.IsClosed) (p q : RuleId)
    (hpq : p = q ∧ p < g.rules.size) : g.Mirrors g (fun p q => p = q ∧ p < g.rules.size) p q := by
  obtain ⟨rfl, hp⟩ := hpq
  obtain ⟨rule, hr⟩ := Option.ne_none_iff_exists'.mp (rule?_ne_none hp)
  exact ⟨hr, hr, Body.alike_self (hg p rule hr) fun q hq => ⟨rfl, hclosed p rule hr q hq⟩, fun _ => rfl⟩

/-- Every rule of a grammar corresponds to itself. -/
def Counterpart.self {g : Grammar κ} (hg : g.IsLibrary) (hclosed : g.IsClosed) : Counterpart g g :=
  .ofMirrors (Grammar.mirrors_self hg hclosed)

section Self

variable {g : Grammar κ} {P P' : Option RuleId} (hg : g.IsLibrary) (hclosed : g.IsClosed)

theorem Counterpart.policies_self (hP : ∀ p, P = some p → p < g.rules.size) :
    (Counterpart.self hg hclosed).policies P P := by
  cases P with
  | none => exact .none
  | some p => exact .some ⟨rfl, hP p rfl⟩

theorem Counterpart.eq_of_policies_self (h : (Counterpart.self hg hclosed).policies P P') : P = P' := by
  cases h with
  | none => rfl
  | some h => rw [h.1]

end Self

namespace Counterpart

variable {g g' : Grammar κ} (K : Counterpart g g')

/-- There are no policies. -/
def Bare : Prop := ∀ P P', K.policies P P' → P = none ∧ P' = none

variable {K} {p q : RuleId}

theorem lt_size (h : K.rules p q) : p < g.rules.size := by
  cases K.corresponds h with
  | alike hr => exact Grammar.lt_size_of_rule? hr
  | layer hr => exact Grammar.lt_size_of_rule? hr

theorem lt_size' (h : K.rules p q) : q < g'.rules.size := by
  induction hn : K.lag p using Nat.strong_induction_on generalizing p with
  | h n ih =>
    cases K.corresponds h with
    | alike _ hr' => exact Grammar.lt_size_of_rule? hr'
    | layer _ _ h hlag => exact ih _ (hn ▸ hlag) h rfl

/-- Policies that correspond are corresponding rules, if they are any. -/
theorem exists_rules_of_policies {P P' : Option RuleId} (h : K.policies P P') :
    (∀ p, P = some p → ∃ q, K.rules p q) ∧ ∀ q, P' = some q → ∃ p, K.rules p q := by
  cases K.rel h with
  | none => exact ⟨nofun, nofun⟩
  | some hpq => exact ⟨fun p hp => ⟨_, Option.some.inj hp ▸ hpq⟩, fun q hq => ⟨_, Option.some.inj hq ▸ hpq⟩⟩

theorem policy_lt_size {P P' : Option RuleId} (h : K.policies P P') :
    (∀ i, P = some i → i < g.rules.size) ∧ ∀ i, P' = some i → i < g'.rules.size := by
  obtain ⟨first, second⟩ := exists_rules_of_policies h
  refine ⟨fun i hi => ?_, fun i hi => ?_⟩
  · obtain ⟨q, hq⟩ := first i hi
    exact lt_size hq
  · obtain ⟨p, hp⟩ := second i hi
    exact lt_size' hp

/-! ## 2. What corresponding rules show -/

theorem mem_reads_of_layer {b : Body κ} {inner : RuleId} (h : b.layer? = some inner) (g : Grammar κ) :
    inner ∈ b.reads g := by
  cases b with
  | skipping inner => cases h; exact List.mem_cons_self
  | skippingAfter inner => cases h; exact List.mem_cons_self
  | within inner policy =>
    cases policy with
    | none => cases h; exact List.mem_cons_self
    | some P => cases h
  | _ => cases h

variable (K) in
/-- Expectations that name the same. Where there are no policies, no whitespace is named, and whether ambient whitespace
is skipped is no matter. -/
structure Expectations (e e' : Expectation κ) : Prop where
  prefixes : e.prefixes = e'.prefixes
  whitespace : e.whitespace = e'.whitespace
  ambient : e.ambient = e'.ambient ∨ K.Bare
  blank : K.Bare → e.whitespace = []

namespace Expectations

variable {e e' : Expectation κ}

theorem same (h : K.Bare → e.whitespace = []) : K.Expectations e e := ⟨rfl, rfl, Or.inl rfl, h⟩

theorem blank' (h : K.Expectations e e') (hbare : K.Bare) : e'.whitespace = [] := h.whitespace ▸ h.blank hbare

theorem withAmbient (h : K.Expectations e e') : K.Expectations e.withAmbient e'.withAmbient where
  prefixes := h.prefixes
  whitespace := h.whitespace
  ambient := Or.inl rfl
  blank := h.blank

end Expectations

section Shows

variable [DecidableEq κ]

theorem orderedUnion_nil_nil : orderedUnion [] [] = ([] : List (Matcher κ)) := rfl

theorem allowed_eq_nil {e : Expectation κ} {ms : List (Matcher κ)} (he : e.whitespace = [])
    (hms : e.ambient = true → ms = []) : e.allowed ms = [] := by
  rw [Expectation.allowed, he]
  split
  next ha => rw [hms ha, orderedUnion_nil_nil]
  next => rfl

namespace Expectations

variable {e e' u u' : Expectation κ} {ms ms' : List (Matcher κ)}

theorem union (h : K.Expectations e e') (hu : K.Expectations u u') : K.Expectations (e.union u) (e'.union u') where
  prefixes := congrArg₂ orderedUnion h.prefixes hu.prefixes
  whitespace := congrArg₂ orderedUnion h.whitespace hu.whitespace
  ambient := by
    rcases h.ambient with ha | hbare
    · exact hu.ambient.imp_left fun hb => congrArg₂ (· || ·) ha hb
    · exact Or.inr hbare
  blank hbare := by
    show orderedUnion e.whitespace u.whitespace = []
    rw [h.blank hbare, hu.blank hbare, orderedUnion_nil_nil]

/-- Before corresponding rules the same whitespace is allowed. -/
theorem allowed_eq (h : K.Expectations e e') (hms : e.ambient = true → e'.ambient = true → ms = ms')
    (hbare : K.Bare → (e.ambient = true → ms = []) ∧ (e'.ambient = true → ms' = [])) :
    e.allowed ms = e'.allowed ms' := by
  rcases h.ambient with ha | hb
  · rw [Expectation.allowed, Expectation.allowed, ← ha, h.whitespace]
    split
    next hambient => rw [hms hambient (ha ▸ hambient)]
    next => rfl
  · rw [allowed_eq_nil (h.blank hb) (hbare hb).1, allowed_eq_nil (h.blank' hb) (hbare hb).2]

theorem withWhitespace (h : K.Expectations e e') (hms : K.Bare → ms = []) :
    K.Expectations (e.withWhitespace ms) (e'.withWhitespace ms) where
  prefixes := by
    rw [Expectation.prefixes_withWhitespace, Expectation.prefixes_withWhitespace]
    exact h.prefixes
  whitespace := by
    rw [Expectation.whitespace_withWhitespace, Expectation.whitespace_withWhitespace]
    exact h.allowed_eq (fun _ _ => rfl) fun hbare => ⟨fun _ => hms hbare, fun _ => hms hbare⟩
  ambient := by
    rw [Expectation.ambient_withWhitespace, Expectation.ambient_withWhitespace]
    exact Or.inl rfl
  blank hbare := by
    rw [Expectation.whitespace_withWhitespace]
    exact allowed_eq_nil (h.blank hbare) fun _ => hms hbare

end Expectations

section Shown

variable {S S' : RuleId → Expectation κ}

theorem foldl_expectations {ids ids' : List RuleId} {e e' : Expectation κ} (h : List.Forall₂ K.rules ids ids')
    (hS : ∀ p ∈ ids, ∀ q ∈ ids', K.rules p q → K.Expectations (S p) (S' q)) (he : K.Expectations e e') :
    K.Expectations (ids.foldl (fun e p => e.union (S p)) e) (ids'.foldl (fun e q => e.union (S' q)) e') := by
  induction h generalizing e e' with
  | nil => exact he
  | cons hpq _ ih =>
    refine ih (fun p hp q hq => hS p (List.mem_cons_of_mem _ hp) q (List.mem_cons_of_mem _ hq)) (he.union ?_)
    exact hS _ List.mem_cons_self _ List.mem_cons_self hpq

/-- Bodies of one kind show what corresponds, if the rules that they read do. -/
theorem shown_alike {b b' : Body κ} (h : b.Alike K.rules K.policies b')
    (hS : ∀ p ∈ b.reads g, ∀ q ∈ b'.reads g', K.rules p q → K.Expectations (S p) (S' q)) :
    K.Expectations (b.shown S) (b'.shown S') := by
  cases h with
  | token m f => exact .same fun _ => rfl
  | capture m => exact .same fun _ => rfl
  | oneOf ms => exact .same fun _ => rfl
  | sequence h =>
    cases h with
    | nil => exact .same fun _ => rfl
    | cons h _ => exact hS _ List.mem_cons_self _ List.mem_cons_self h
  | either h => exact foldl_expectations h hS (.same fun _ => rfl)
  | optional h default => exact hS _ List.mem_cons_self _ List.mem_cons_self h
  | repeated h minimum h' => exact hS _ List.mem_cons_self _ List.mem_cons_self h
  | map h f => exact hS _ List.mem_cons_self _ List.mem_cons_self h
  | skipping h => exact (hS _ List.mem_cons_self _ List.mem_cons_self h).withAmbient
  | skippingAfter h => exact hS _ List.mem_cons_self _ List.mem_cons_self h
  | @within inner inner' policy policy' h hpolicy =>
    cases policy with
    | none =>
      cases K.rel hpolicy
      exact (hS _ List.mem_cons_self _ List.mem_cons_self h).withWhitespace fun _ => rfl
    | some P =>
      cases K.rel hpolicy with
      | @some _ P' hP =>
        have inners := hS inner (List.mem_cons_of_mem _ List.mem_cons_self) inner'
          (List.mem_cons_of_mem _ List.mem_cons_self) h
        rw [Body.shown, Body.shown, (hS P List.mem_cons_self P' List.mem_cons_self hP).prefixes]
        refine inners.withWhitespace fun hbare => ?_
        cases (hbare _ _ hpolicy).1
  | placeholder h =>
    cases h with
    | none => exact .same fun _ => rfl
    | some h => exact hS _ List.mem_cons_self _ List.mem_cons_self h

/-- A layer shows what the inner rule shows, but for whether ambient whitespace is skipped. -/
theorem shown_layer {b : Body κ} {inner : RuleId} (hlayer : b.layer? = some inner) (hbare : K.Bare)
    {e' : Expectation κ} (h : K.Expectations (S inner) e') : K.Expectations (b.shown S) e' := by
  cases b with
  | skipping inner =>
    cases hlayer
    exact ⟨h.prefixes, h.whitespace, Or.inr hbare, h.blank⟩
  | skippingAfter inner =>
    cases hlayer
    exact h
  | within inner policy =>
    cases policy with
    | none =>
      cases hlayer
      have blank : ((S inner).withWhitespace []).whitespace = [] := by
        rw [Expectation.whitespace_withWhitespace]
        exact allowed_eq_nil (h.blank hbare) fun _ => rfl
      refine ⟨?_, blank.trans (h.blank' hbare).symm, Or.inr hbare, fun _ => blank⟩
      exact (Expectation.prefixes_withWhitespace []).trans h.prefixes
    | some P => cases hlayer
  | _ => cases hlayer

end Shown

/-- **Corresponding rules show what corresponds.** -/
theorem shows_alike {e e' : Expectation κ} (h : g.Shows p e) (h' : g'.Shows q e') (hpq : K.rules p q) :
    K.Expectations e e' := by
  induction h generalizing q e' with
  | rule hr hb hshows ih =>
    cases K.corresponds hpq with
    | alike hr₁ hr₁' halike _ =>
      cases hr.symm.trans hr₁
      cases h' with
      | rule hr' hb' hshows' =>
        cases hr'.symm.trans hr₁'
        exact shown_alike halike fun p hp q hq hpq => ih p hp (hshows' q hq) hpq
    | layer hr₁ hlayer hinner _ hbare =>
      cases hr.symm.trans hr₁
      exact shown_layer hlayer hbare (ih _ (mem_reads_of_layer hlayer g) h' hinner)

/-- Policies that correspond allow the same. -/
theorem allows_alike {P P' : Option RuleId} {ms ms' : List (Matcher κ)} (hP : K.policies P P') (h : g.Allows P ms)
    (h' : g'.Allows P' ms') : ms = ms' := by
  have hrel := K.rel hP
  cases h with
  | none =>
    cases hrel
    cases h'
    rfl
  | some h =>
    cases hrel with
    | some hpq => cases h' with | some h' => exact (shows_alike h h' hpq).prefixes

/-- **Corresponding rules report a failure alike.** -/
theorem stamps_alike {P P' : Option RuleId} {v : View} {f f₁ f₁' : Failure κ} (hpq : K.rules p q)
    (hP : K.policies P P') (h : g.Stamps P p v f f₁) (h' : g'.Stamps P' q v f f₁') : f₁ = f₁' := by
  cases h with
  | @entry e ms ho he hms =>
    cases h' with
    | @entry e' ms' _ he' hms' =>
      have hee := shows_alike he he' hpq
      have whitespace : e.allowed ms = e'.allowed ms' := by
        refine hee.allowed_eq (fun ha ha' => allows_alike hP (hms ha) (hms' ha')) fun hbare => ?_
        obtain ⟨rfl, rfl⟩ := hbare P P' hP
        exact ⟨fun ha => (hms ha).unique .none, fun ha => (hms' ha).unique .none⟩
      rw [Failure.stampedBy, Failure.stampedBy, hee.prefixes, whitespace]
    | deeper ho' => exact absurd ho ho'
  | deeper ho =>
    cases h' with
    | entry ho' => exact absurd ho' ho
    | deeper => rfl

end Shows

/-! ## 3. What corresponding rules ask for -/

variable (K) in
/-- Ways to call a rule that correspond. -/
inductive Scopes : Scope → Scope → Prop
  | plain : Scopes .plain .plain
  | under {P P' : Option RuleId} (h : K.policies P P') : Scopes (.under P) (.under P')
  | quiet : Scopes .quiet .quiet

variable (K) in
/-- Plans that ask corresponding rules for the same, as long as they are answered the same. -/
inductive Plans : Plan κ α → Plan κ α → Prop
  | done (a : α) : Plans (.done a) (.done a)
  | stop (why : Stop) : Plans (.stop why) (.stop why)
  | policy {next next' : Option RuleId → Plan κ α} (h : ∀ P P', K.policies P P' → Plans (next P) (next' P')) :
    Plans (.policy next) (.policy next')
  | expect {p q : RuleId} (hpq : K.rules p q) {next next' : Expectation κ → Plan κ α}
      (h : ∀ e e', e.prefixes = e'.prefixes → Plans (next e) (next' e')) : Plans (.expect p next) (.expect q next')
  | call {scope scope' : Scope} (hscope : K.Scopes scope scope') {p q : RuleId} (hpq : K.rules p q) (v : View)
      {next next' : Result κ → Plan κ α} (h : ∀ r, Plans (next r) (next' r)) :
      Plans (.call scope p v next) (.call scope' q v next')

namespace Plans

theorem bind {p q : Plan κ α} {f f' : α → Plan κ β} (hpq : K.Plans p q) (hf : ∀ a, K.Plans (f a) (f' a)) :
    K.Plans (p.bind f) (q.bind f') := by
  induction hpq with
  | done a => exact hf a
  | stop why => exact .stop why
  | policy _ ih => exact .policy ih
  | expect hpq _ ih => exact .expect hpq ih
  | call hscope hpq v _ ih => exact .call hscope hpq v ih

theorem ofExcept (x : Except Fault α) : K.Plans (Plan.ofExcept x) (Plan.ofExcept x) := by
  cases x with
  | ok a => exact .done a
  | error e => exact .stop _

/-- A rule that is run as it is, and what is done with its results. -/
theorem run (hpq : K.rules p q) (v : View) {next next' : Result κ → Plan κ α}
    (hparsed : ∀ x w, K.Plans (next (.parsed x w)) (next' (.parsed x w)))
    (hfailed : ∀ f, K.Plans (next (.failed f)) (next' (.failed f))) :
    K.Plans (.call .plain p v next) (.call .plain q v next') := by
  refine .call .plain hpq v fun r => ?_
  cases r with
  | parsed x w => exact hparsed x w
  | failed f => exact hfailed f

end Plans

theorem skip_alike (v : View) : K.Plans (Plan.skip v) (Plan.skip v) := by
  refine .policy fun P P' hP => ?_
  cases K.rel hP with
  | none => exact .done v
  | some hpq =>
    refine .call .quiet hpq v fun r => ?_
    cases r with
    | parsed x w => exact .done w
    | failed f => exact .done v

theorem allow_alike [DecidableEq κ] (f : Failure κ) : K.Plans (Plan.allow f) (Plan.allow f) := by
  refine .policy fun P P' hP => ?_
  cases K.rel hP with
  | none => exact .done f
  | some hpq =>
    refine .expect hpq fun e e' he => ?_
    rw [he]
    exact .done _

theorem sequencePlan_alike {parts parts' : List RuleId} (h : List.Forall₂ K.rules parts parts')
    (values : List (Value κ)) (v : View) : K.Plans (sequencePlan parts values v) (sequencePlan parts' values v) := by
  induction h generalizing values v with
  | nil => exact .done _
  | cons hpq _ ih => exact .run hpq v (fun x w => ih _ w) fun f => .done _

theorem eitherPlan_alike {branches branches' : List RuleId} (h : List.Forall₂ K.rules branches branches') (v : View)
    (last : Result κ) : K.Plans (eitherPlan v branches last) (eitherPlan v branches' last) := by
  induction h generalizing last with
  | nil => exact .done _
  | cons hpq _ ih => exact .run hpq v (fun x w => .done _) fun f => ih _

theorem roundsPlan_alike (hpq : K.rules p q) (minimum : Int) (fuel : Nat) (values : List (Value κ)) (v : View)
    (r : Result κ) : K.Plans (roundsPlan p minimum fuel values v r) (roundsPlan q minimum fuel values v r) := by
  induction fuel generalizing values v r with
  | zero => exact .stop _
  | succ fuel ih =>
    cases r with
    | failed f => exact .done _
    | parsed x w =>
      rw [roundsPlan, roundsPlan]
      split
      · exact .done _
      · exact .call .plain hpq w fun r => ih _ _ r

variable [DecidableEq κ] [CustomMatcher κ]

/-- **Bodies of one kind ask for the same**, one case for each combinator. -/
theorem plan_alike {b b' : Body κ} (h : b.Alike K.rules K.policies b') (v : View) : K.Plans (b.plan v) (b'.plan v) := by
  cases h with
  | token m f => cases f <;> exact .ofExcept _
  | capture m => exact .ofExcept _
  | oneOf ms => exact .ofExcept _
  | sequence h => exact sequencePlan_alike h [] v
  | either h => exact eitherPlan_alike h v _
  | optional h default => exact .run h v (fun x w => .done _) fun f => .done _
  | repeated h minimum h' => exact .call .plain h v fun r => roundsPlan_alike h' minimum _ [] v r
  | map h f => exact .run h v (fun x w => .ofExcept _) fun f => .done _
  | skipping h =>
    refine (skip_alike v).bind fun start => .run h start (fun x w => .done _) fun f => ?_
    dsimp only
    split
    · exact (allow_alike f).bind fun f => .done _
    · exact .done _
  | skippingAfter h => exact .run h v (fun x w => (skip_alike w).bind fun u => .done _) fun f => .done _
  | within h hpolicy => exact .call (.under hpolicy) h v fun r => .done r
  | placeholder h => exact .stop _

end Counterpart

end Descent
