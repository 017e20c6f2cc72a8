import Mathlib.Order.Lattice.Nat
import Descent.Matcher.Fixed
import Descent.Grammar.Build
import Descent.Proofs.Counterpart.Run

/-!
# Skipping without a policy

Combinators that skip ambient whitespace are made of the others and of layers that do the skipping: a rule that skips
before another, one that skips after another, and one that takes the policy away. Without a policy there is nothing to
be skipped, and **a grammar comes to the same as the bare one**, which has the inner rules in the places of the layers
(`Grammar.skipping_vanishes`): to the same values, faults and failures, with the same record.

What a run comes to is said without fuel here (`Grammar.ComesTo`). Layers cost fuel, so the two runs need different
amounts of it; but there is an end to layers around layers, and so enough for the one gives enough for the other.

The bare grammar is any grammar whose rules replace those of the first as `Grammar.Bared` says, however they are
numbered. Every grammar that sets no policy has one (`Grammar.bares_bare`). That its derivations meet no cycle either
need not be asked for.
-/

namespace Descent

variable {κ : Type}

/-! ## 1. Bare grammars -/

/-- What a rule may be replaced by: a layer by what its inner rule is replaced by, any rule by one of its kind that has
in the places of rules what these are replaced by. A rule that sets a policy is replaced by nothing. -/
inductive Grammar.Bared (g g' : Grammar κ) (ρ : RuleId → RuleId → Prop) (p q : RuleId) : Prop
  | layer {rule : Rule κ} {inner : RuleId} (hr : g.rule? p = some rule) (hlayer : rule.body.layer? = some inner)
      (h : ρ inner q) : Bared g g' ρ p q
  | kept {rule rule' : Rule κ} (hr : g.rule? p = some rule) (hr' : g'.rule? q = some rule')
      (h : rule.body.Alike ρ (fun P P' => P = none ∧ P' = none) rule'.body)
      (hlabel : rule.body = .placeholder none → rule.label = rule'.label) : Bared g g' ρ p q

/-- A grammar and the bare one: `ρ` tells what rules are replaced by, and the bare one has no other rules. -/
structure Grammar.Bares (g g' : Grammar κ) (ρ : RuleId → RuleId → Prop) : Prop where
  bared : ∀ p q, ρ p q → g.Bared g' ρ p q
  covers : ∀ q < g'.rules.size, ∃ p, ρ p q

variable {g g' : Grammar κ} {ρ : RuleId → RuleId → Prop}

/-- The rules of a grammar and of the bare one correspond, and layers can be counted down. -/
theorem Grammar.Bares.exists_counterpart (hg : g.IsStraight) (h : g.Bares g' ρ) :
    ∃ K : Counterpart g g', K.rules = ρ ∧ K.policies none none := by
  obtain ⟨rank, hbound, hrank⟩ := hg.exists_rank
  refine ⟨⟨ρ, fun P P' => P = none ∧ P' = none, rank, g.rules.size, hbound, ?_, ?_⟩, rfl, rfl, rfl⟩
  · rintro P P' ⟨rfl, rfl⟩
    exact .none
  · intro p q hpq
    cases h.bared p q hpq with
    | layer hr hlayer hinner =>
      have hread := hrank p _ ⟨_, hr, Counterpart.mem_reads_of_layer hlayer g⟩
      exact .layer hr hlayer hinner hread fun _ _ hP => hP
    | kept hr hr' halike hlabel => exact .alike hr hr' halike hlabel

/-! ## 2. Every grammar has one -/

/-- It sets no whitespace policy. -/
def Body.SetsNoPolicy (b : Body κ) : Prop := ∀ P, b.policy? = some P → P = none

theorem Body.layer?_renamed (f : RuleId → RuleId) (b : Body κ) : (b.renamed f).layer? = b.layer?.map f := by
  cases b with
  | within inner policy => cases policy <;> rfl
  | _ => rfl

/-- The rule behind at most so many layers. -/
def Grammar.behind (g : Grammar κ) : Nat → RuleId → RuleId
  | 0, p => p
  | depth + 1, p =>
    match (g.rule? p).bind (·.body.layer?) with
    | some inner => g.behind depth inner
    | none => p

/-- A grammar without its layers: in the place of each there is a copy of the rule behind it, and rules refer to rules
behind layers only. -/
def Grammar.bare (g : Grammar κ) : Grammar κ :=
  let behind := g.behind g.rules.size
  { g with
    rules := g.rules.mapIdx fun p rule =>
      let rule := (g.rule? (behind p)).getD rule
      { rule with body := rule.body.renamed behind } }

section Behind

variable {p : RuleId} {rule : Rule κ}

/-- As many layers as are read one behind the other are enough. -/
theorem Grammar.behind_succ {rank : RuleId → Nat} (hrank : ∀ p q, g.Consults p q → rank q < rank p) {n : Nat}
    (hn : rank p ≤ n) : g.behind (n + 1) p = g.behind n p := by
  induction n generalizing p with
  | zero =>
    rw [behind, behind]
    cases hlayer : (g.rule? p).bind (·.body.layer?) with
    | none => rfl
    | some inner =>
      obtain ⟨rule, hr, hlayer⟩ := Option.bind_eq_some_iff.mp hlayer
      have hread := hrank p inner ⟨rule, hr, Counterpart.mem_reads_of_layer hlayer g⟩
      omega
  | succ n ih =>
    rw [behind, behind]
    cases hlayer : (g.rule? p).bind (·.body.layer?) with
    | none => rfl
    | some inner =>
      obtain ⟨rule, hr, hlayer⟩ := Option.bind_eq_some_iff.mp hlayer
      have hread := hrank p inner ⟨rule, hr, Counterpart.mem_reads_of_layer hlayer g⟩
      exact ih (Nat.le_of_lt_succ (Nat.lt_of_lt_of_le hread hn))

/-- Behind a layer is what is behind the rule in it. -/
theorem Grammar.behind_of_layer (hg : g.IsStraight) (hr : g.rule? p = some rule) {inner : RuleId}
    (hlayer : rule.body.layer? = some inner) : g.behind g.rules.size p = g.behind g.rules.size inner := by
  obtain ⟨rank, hbound, hrank⟩ := hg.exists_rank
  have hread := hrank p inner ⟨rule, hr, Counterpart.mem_reads_of_layer hlayer g⟩
  calc g.behind g.rules.size p = g.behind (g.rules.size + 1) p :=
        (behind_succ hrank (hbound p)).symm
    _ = g.behind g.rules.size inner := by rw [behind, hr, Option.bind_some, hlayer]

/-- Behind any other rule is the rule itself. -/
theorem Grammar.behind_of_not_layer (hr : g.rule? p = some rule) (hlayer : rule.body.layer? = none) (n : Nat) :
    g.behind n p = p := by
  cases n with
  | zero => rfl
  | succ n => rw [behind, hr, Option.bind_some, hlayer]

/-- What is behind a rule is a rule, and no layer. -/
theorem Grammar.exists_behind (hg : g.IsStraight) (hp : p < g.rules.size) :
    ∃ rule, g.rule? (g.behind g.rules.size p) = some rule ∧ rule.body.layer? = none := by
  obtain ⟨rank, -, hrank⟩ := hg.exists_rank
  induction hn : rank p using Nat.strong_induction_on generalizing p with
  | h n ih =>
    subst hn
    obtain ⟨rule, hr⟩ := Option.ne_none_iff_exists'.mp (rule?_ne_none hp)
    cases hlayer : rule.body.layer? with
    | none => exact ⟨rule, by rw [behind_of_not_layer hr hlayer]; exact hr, hlayer⟩
    | some inner =>
      have hmem := Counterpart.mem_reads_of_layer hlayer g
      have hinner := hg.closed p rule hr inner (Body.reads_subset_refs (hg.library p rule hr) g hmem)
      rw [behind_of_layer hg hr hlayer]
      exact ih _ (hrank p inner ⟨rule, hr, hmem⟩) hinner rfl

theorem Grammar.behind_behind (hg : g.IsStraight) (hp : p < g.rules.size) :
    g.behind g.rules.size (g.behind g.rules.size p) = g.behind g.rules.size p := by
  obtain ⟨rule, hr, hlayer⟩ := exists_behind hg hp
  exact behind_of_not_layer hr hlayer _

theorem Grammar.rule?_bare (hr : g.rule? (g.behind g.rules.size p) = some rule) (hp : p < g.rules.size) :
    g.bare.rule? p = some ⟨rule.label, rule.body.renamed (g.behind g.rules.size)⟩ := by
  rw [rule?, bare, Array.getElem?_mapIdx, Array.getElem?_eq_getElem hp, Option.map_some]
  simp only [hr, Option.getD_some]

/-- **Every grammar that sets no policy has a bare one**, with its rules in the places where they were. -/
theorem Grammar.bares_bare (hg : g.IsStraight)
    (hfree : ∀ p rule, g.rule? p = some rule → rule.body.SetsNoPolicy) :
    g.Bares g.bare fun p q =>
      p < g.rules.size ∧ q < g.rules.size ∧ g.behind g.rules.size p = g.behind g.rules.size q where
  bared p q := by
    rintro ⟨hp, hq, hpq⟩
    obtain ⟨rule, hr⟩ := Option.ne_none_iff_exists'.mp (rule?_ne_none hp)
    cases hlayer : rule.body.layer? with
    | some inner =>
      have hmem := Body.reads_subset_refs (hg.library p rule hr) g (Counterpart.mem_reads_of_layer hlayer g)
      refine .layer hr hlayer ⟨hg.closed p rule hr inner hmem, hq, ?_⟩
      rw [← behind_of_layer hg hr hlayer, hpq]
    | none =>
      rw [behind_of_not_layer hr hlayer] at hpq
      refine .kept hr (rule?_bare (hpq ▸ hr) hq) ?_ fun _ => rfl
      refine Body.alike_renamed (hg.library p rule hr) (fun p₁ hp₁ => ?_) fun P hP => ?_
      · have hsize := hg.closed p rule hr p₁ hp₁
        obtain ⟨rule₁, hr₁, -⟩ := exists_behind hg hsize
        exact ⟨hsize, lt_size_of_rule? hr₁, (behind_behind hg hsize).symm⟩
      · cases hfree p rule hr P hP
        exact ⟨rfl, rfl⟩
  covers q hq := by
    have hsize : g.bare.rules.size = g.rules.size := Array.size_mapIdx
    exact ⟨q, hsize ▸ hq, hsize ▸ hq, rfl⟩

/-- And that has no layers. -/
theorem Grammar.layer?_bare (hg : g.IsStraight) (hr : g.bare.rule? p = some rule) : rule.body.layer? = none := by
  have hsize : g.bare.rules.size = g.rules.size := Array.size_mapIdx
  have hp : p < g.rules.size := hsize ▸ lt_size_of_rule? hr
  obtain ⟨rule₀, hr₀, hlayer⟩ := exists_behind hg hp
  cases (rule?_bare hr₀ hp).symm.trans hr
  rw [Body.layer?_renamed, hlayer, Option.map_none]

end Behind

/-! ## 3. Bare grammars are straight -/

/-- Behind all the layers that a rule replaces there is one that it is of a kind with. -/
theorem Counterpart.exists_alike (K : Counterpart g g') {rank : RuleId → Nat}
    (hrank : ∀ p q, g.Consults p q → rank q < rank p) {p q : RuleId} (hpq : K.rules p q) :
    ∃ p₀ rule rule', rank p₀ ≤ rank p ∧ g.rule? p₀ = some rule ∧ g'.rule? q = some rule' ∧
      rule.body.Alike K.rules K.policies rule'.body := by
  induction hn : rank p using Nat.strong_induction_on generalizing p with
  | h n ih =>
    subst hn
    cases K.corresponds hpq with
    | alike hr hr' halike _ => exact ⟨p, _, _, Nat.le_refl _, hr, hr', halike⟩
    | layer hr hlayer hinner =>
      have hless := hrank p _ ⟨_, hr, mem_reads_of_layer hlayer g⟩
      obtain ⟨p₀, rule, rule', hle, h⟩ := ih _ hless hinner rfl
      exact ⟨p₀, rule, rule', Nat.le_trans hle (Nat.le_of_lt hless), h⟩

/-- **The derivations of a bare grammar meet no cycle.** A rule of it is ranked as the lowest that it replaces. -/
theorem Grammar.Bares.isStraight (hg : g.IsStraight) (h : g.Bares g' ρ) : g'.IsStraight := by
  classical
  obtain ⟨K, rfl, -⟩ := h.exists_counterpart hg
  obtain ⟨rank, -, hrank⟩ := hg.exists_rank
  have replaced {q : RuleId} {rule' : Rule κ} (hr' : g'.rule? q = some rule') :
      ∃ p, K.rules p q := h.covers q (lt_size_of_rule? hr')
  refine .of_rank (fun q rule' hr' => ?_) (fun q rule' hr' q₁ hq₁ => ?_)
    (fun q => sInf { n | ∃ p, K.rules p q ∧ rank p = n }) fun q _ rule' hr' q₁ hq₁ => ?_
  · obtain ⟨p, hp⟩ := replaced hr'
    obtain ⟨p₀, rule, rule'', -, -, hr'', halike⟩ := K.exists_alike hrank hp
    cases hr'.symm.trans hr''
    exact halike.isLibrary'
  · obtain ⟨p, hp⟩ := replaced hr'
    obtain ⟨p₀, rule, rule'', -, -, hr'', halike⟩ := K.exists_alike hrank hp
    cases hr'.symm.trans hr''
    obtain ⟨p₁, -, hp₁⟩ := exists_of_forall₂_right (halike.refs K.rel) hq₁
    exact Counterpart.lt_size' hp₁
  · obtain ⟨p, hp⟩ := replaced hr'
    obtain ⟨p, hp, hlowest⟩ := Nat.sInf_mem (s := { n | ∃ p, K.rules p q ∧ rank p = n }) ⟨_, p, hp, rfl⟩
    obtain ⟨p₀, rule, rule'', hle, hr, hr'', halike⟩ := K.exists_alike hrank hp
    cases hr'.symm.trans hr''
    obtain ⟨p₁, hread, hp₁⟩ := exists_of_forall₂_right (halike.reads K.rel g g') hq₁
    rw [← hlowest]
    calc sInf { n | ∃ p, K.rules p q₁ ∧ rank p = n } ≤ rank p₁ := Nat.sInf_le ⟨p₁, hp₁, rfl⟩
      _ < rank p₀ := hrank p₀ p₁ ⟨rule, hr, hread⟩
      _ ≤ rank p := hle

/-! ## 4. What runs come to -/

variable [DecidableEq κ] [CustomMatcher κ]

/-- With some amount of fuel, a run ends in a result or in a fault, and with a record. -/
def Grammar.ComesTo (g : Grammar κ) (id : RuleId) (v : View) (s : ParseState κ) (out : Except Fault (Result κ))
    (furthest : Option (Failure κ)) : Prop :=
  ∃ fuel t, t.context.furthest = furthest ∧ match out with
    | .ok r => g.parse fuel id v s = .ok r t
    | .error e => g.parse fuel id v s = .error (.fault e) t

/-- Enough fuel for a rule is enough for what replaces it, and the other way round, with a bit more for the layers. -/
theorem Grammar.Bares.comesTo_iff (hg : g.IsStraight) (hbare : g.Bares g' ρ) {p q : RuleId} (hpq : ρ p q) (v : View)
    {c : Context κ} (hc : c.whitespace = none) {d d' : Derivation κ} (hd : d.Sure g) (hd' : d'.Sure g')
    (out : Except Fault (Result κ)) (furthest : Option (Failure κ)) :
    g.ComesTo p v ⟨d, c⟩ out furthest ↔ g'.ComesTo q v ⟨d', c⟩ out furthest := by
  have hg' := hbare.isStraight hg
  obtain ⟨K, rfl, hnone⟩ := hbare.exists_counterpart hg
  have states : K.States ⟨d, c⟩ ⟨d', c⟩ := ⟨hd, hd', by rw [hc]; exact hnone, rfl, rfl⟩
  have meets (fuel fuel' : Nat) := Counterpart.parse_meets hg hg' fuel fuel' v hpq states
  constructor
  · rintro ⟨fuel, t, rfl, hout⟩
    have meets := meets fuel fuel
    cases out with
    | ok r =>
      cases meets with
      | @ok _ _ _ t' hx hy h =>
        cases hx.symm.trans hout
        exact ⟨fuel, t', h.2.context.furthest.symm, h.1 ▸ hy⟩
      | error hx => cases hx.symm.trans hout
      | left hx => cases hx.symm.trans hout
      | right _ h => exact absurd (Nat.le_refl fuel) h
    | error e =>
      cases meets with
      | ok hx => cases hx.symm.trans hout
      | @error _ _ t' hx hy h =>
        cases hx.symm.trans hout
        exact ⟨fuel, t', h.context.furthest.symm, hy⟩
      | left hx => cases hx.symm.trans hout
      | right _ h => exact absurd (Nat.le_refl fuel) h
  · -- enough fuel for as many layers around each rule as there may be
    rintro ⟨fuel, t', rfl, hout⟩
    have meets := meets (fuel * (K.depth + 1) + K.lag p) fuel
    cases out with
    | ok r =>
      cases meets with
      | @ok _ t _ _ hx hy h =>
        cases hy.symm.trans hout
        exact ⟨_, t, h.2.context.furthest, h.1 ▸ hx⟩
      | error _ hy => cases hy.symm.trans hout
      | left _ h => exact absurd (Nat.le_refl _) h
      | right hy => cases hy.symm.trans hout
    | error e =>
      cases meets with
      | ok _ hy => cases hy.symm.trans hout
      | @error _ t _ hx hy h =>
        cases hy.symm.trans hout
        exact ⟨_, t, h.context.furthest, hx⟩
      | left _ h => exact absurd (Nat.le_refl _) h
      | right hy => cases hy.symm.trans hout

/-- **Skipping vanishes without a policy.** A rule of a grammar whose derivations meet no cycle, and the rule that
replaces it in the bare one, come to the same in a context without a policy, whatever has been requested of either
grammar before. And where no rule of the grammar sets a policy there is a bare one, which has no layer left and each
rule in its old place. -/
theorem Grammar.skipping_vanishes (hg : g.IsStraight) (hbare : g.Bares g' ρ) {p q : RuleId} (hpq : ρ p q) (v : View)
    (c : Context κ) (hc : c.whitespace = none) (d d' : Derivation κ) (hd : d.Sure g) (hd' : d'.Sure g')
    (out : Except Fault (Result κ)) (furthest : Option (Failure κ)) :
    (g.ComesTo p v ⟨d, c⟩ out furthest ↔ g'.ComesTo q v ⟨d', c⟩ out furthest) ∧
      ((∀ p rule, g.rule? p = some rule → rule.body.SetsNoPolicy) →
        ∃ (bare : Grammar κ) (places : RuleId → RuleId → Prop), g.Bares bare places ∧
          (∀ p < g.rules.size, places p p) ∧ ∀ p rule, bare.rule? p = some rule → rule.body.layer? = none) :=
  ⟨hbare.comesTo_iff hg hpq v hc hd hd' out furthest, fun hfree =>
    ⟨g.bare, _, bares_bare hg hfree, fun _ hp => ⟨hp, hp, rfl⟩, fun _ _ hr => layer?_bare hg hr⟩⟩

/-- Letters with commas between them, and ambient whitespace around those. -/
def spacedLetters : Grammar FixedMatcher where
  rules := #[⟨some "[b]", .token (.charClass ⟨.set (.between 'b' 'b'), "b", false⟩) none⟩, ⟨some "[b]", .skipping 0⟩,
    ⟨some "^\",\"", .token (.literal "," true) none⟩, ⟨none, .sequence [2, 1]⟩, ⟨none, .map 3 (Value.element 1)⟩,
    ⟨none, .skipping 4⟩, ⟨none, .repeated 5 0 5⟩, ⟨none, .sequence [0, 6]⟩, ⟨none, .map 7 Value.consed⟩]
  names := []
  customs := 0

example : Build.separated (.matcher (.charClass ⟨.set (.between 'b' 'b'), "b", false⟩)) (.text ",") Grammar.empty =
    .ok 8 spacedLetters := rfl

/-- The same without whitespace. -/
def plainLetters : Grammar FixedMatcher where
  rules := #[⟨none, .token (.charClass ⟨.set (.between 'b' 'b'), "b", false⟩) none⟩,
    ⟨none, .token (.literal "," true) none⟩, ⟨none, .sequence [1, 0]⟩, ⟨none, .map 2 (Value.element 1)⟩,
    ⟨none, .repeated 3 0 3⟩, ⟨none, .sequence [0, 4]⟩, ⟨none, .map 5 Value.consed⟩]
  names := []
  customs := 0

/-- What the rules of the one are replaced by in the other. -/
def plainFor (p q : RuleId) : Prop :=
  (p, q) ∈ [(0, 0), (1, 0), (2, 1), (3, 2), (4, 3), (5, 3), (6, 4), (7, 5), (8, 6)]

instance (p q : RuleId) : Decidable (plainFor p q) := inferInstanceAs (Decidable (_ ∈ _))

theorem spacedLetters_bares : spacedLetters.Bares plainLetters plainFor where
  bared p q h := by
    simp only [plainFor, List.mem_cons, Prod.mk.injEq, List.not_mem_nil, or_false] at h
    rcases h with ⟨rfl, rfl⟩ | ⟨rfl, rfl⟩ | ⟨rfl, rfl⟩ | ⟨rfl, rfl⟩ | ⟨rfl, rfl⟩ | ⟨rfl, rfl⟩ | ⟨rfl, rfl⟩ | ⟨rfl, rfl⟩ |
      ⟨rfl, rfl⟩
    · exact .kept rfl rfl (.token _ _) nofun
    · exact .layer rfl rfl (by decide)
    · exact .kept rfl rfl (.token _ _) nofun
    · exact .kept rfl rfl (.sequence (.cons (by decide) (.cons (by decide) .nil))) nofun
    · exact .kept rfl rfl (.map (by decide) _) nofun
    · exact .layer rfl rfl (by decide)
    · exact .kept rfl rfl (.repeated (by decide) _ (by decide)) nofun
    · exact .kept rfl rfl (.sequence (.cons (by decide) (.cons (by decide) .nil))) nofun
    · exact .kept rfl rfl (.map (by decide) _) nofun
  covers q hq := by
    have covered : ∀ q < 7, ∃ p < 9, plainFor p q := by decide
    obtain ⟨p, -, h⟩ := covered q hq
    exact ⟨p, h⟩

theorem spacedLetters_setsNoPolicy (p : RuleId) (rule : Rule FixedMatcher) (hr : spacedLetters.rule? p = some rule) :
    rule.body.SetsNoPolicy := by
  have hfree : ∀ rule ∈ spacedLetters.rules.toList, rule.body.policy? = none := by
    simp [spacedLetters, Body.policy?]
  intro P hP
  cases (hfree rule (Array.mem_def.mp (Array.mem_of_getElem? hr))).symm.trans hP

/-- On a comma that no letter follows, the two come to the same value before the comma, and to the same record of what
was expected behind it. There is one that has all nine rules, too. -/
theorem skipping_vanishes_separated :
    let v := View.ofSource ⟨0, ['b', ',', 'c']⟩
    let c : Context FixedMatcher := .fresh none 0
    let b : Matcher FixedMatcher := .charClass ⟨.set (.between 'b' 'b'), "b", false⟩
    spacedLetters.IsStraight ∧ spacedLetters.Bares plainLetters plainFor ∧ plainFor 8 6 ∧ c.whitespace = none ∧
      ∃ d₀ r f, d₀ = .fresh ∧ r.view.start = 1 ∧ f.offset = 2 ∧ f.expected = [b] ∧
        spacedLetters.ComesTo 8 v ⟨d₀, c⟩ (.ok r) (some f) ∧ plainLetters.ComesTo 6 v ⟨d₀, c⟩ (.ok r) (some f) ∧
        ∃ (bare : Grammar FixedMatcher) (places : RuleId → RuleId → Prop), spacedLetters.Bares bare places ∧
          (∀ p < 9, places p p) ∧ ∀ p rule, bare.rule? p = some rule → rule.body.layer? = none := by
  intro v c b
  have hg : spacedLetters.IsStraight := .of_rank (by decide) (by decide) (fun id => id) (by decide)
  obtain ⟨r, t, hrun, hr, hrecord⟩ := Ensures.exists_ok (x := spacedLetters.parse 9 8 v) (s := ⟨.fresh, c⟩)
    (Q := fun r t => r.view.start = 1 ∧ t.context.furthest.map (fun f => (f.offset, f.expected)) = some (2, [b]))
    (by decide +kernel)
  obtain ⟨f, ht, hf⟩ := Option.map_eq_some_iff.mp hrecord
  obtain ⟨hoffset, hexpected⟩ := Prod.mk.inj hf
  obtain ⟨d₀, hd₀⟩ : ∃ d₀ : Derivation FixedMatcher, d₀ = .fresh := ⟨_, rfl⟩
  have hsure {g : Grammar FixedMatcher} : d₀.Sure g := hd₀ ▸ Derivation.sure_fresh _
  have spaced : spacedLetters.ComesTo 8 v ⟨d₀, c⟩ (.ok r) (some f) := ⟨9, t, ht, hd₀ ▸ hrun⟩
  obtain ⟨same, bare⟩ := Grammar.skipping_vanishes hg spacedLetters_bares (show plainFor 8 6 by decide) v c rfl d₀ d₀
    hsure hsure (.ok r) (some f)
  exact ⟨hg, spacedLetters_bares, by decide, rfl, d₀, r, f, hd₀, hr, hoffset, hexpected, spaced, same.mp spaced,
    bare spacedLetters_setsNoPolicy⟩

end Descent
