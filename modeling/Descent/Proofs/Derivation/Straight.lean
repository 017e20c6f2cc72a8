import Descent.Proofs.Derivation.Kept
import Descent.Proofs.Derivation.Total

/-!
# Grammars whose derivations meet no cycle

If the rules of a grammar read one another in no circle, then the expectation of a rule needs no account of walks and
cuts. It is put together from those of the rules that it reads, and these are there first: `Grammar.Shows` says what a
rule shows by recursion on the grammar, with no bookkeeping in it. **Requests are answered by what rules show**
(`Grammar.expectation_sure`), whatever was requested before; and what is kept for later requests is that again
(`Derivation.Sure`).

The answers are the same lists, not just lists of the same matchers, as they are where cycles are met
(`Grammar.expectations_reached`). The order in which matchers are expected is part of what a parse reports, so laws that
compare two runs matcher by matcher are about such grammars, or about rules of which all that can be reached makes one
(`Grammar.IsStraightOn`).
-/

namespace Descent

variable {κ : Type}

/-! ## 1. What rules show -/

/-- A grammar of the library whose derivations meet no cycle. -/
structure Grammar.IsStraight (g : Grammar κ) : Prop where
  library : g.IsLibrary
  closed : g.IsClosed
  acyclic : ∀ id, ¬ Relation.TransGen g.Consults id id

/-- Placeholders stand for no circle where nothing is read in one. -/
theorem Grammar.IsStraight.guarded {g : Grammar κ} (hg : g.IsStraight) : g.IsGuarded := by
  intro id h
  refine hg.acyclic id (Relation.TransGen.mono ?_ id id h)
  rintro p q ⟨label, hr⟩
  exact ⟨_, hr, List.mem_singleton_self q⟩

/-- Rules can be ranked by what they read. -/
theorem Grammar.IsStraight.exists_rank {g : Grammar κ} (hg : g.IsStraight) :
    ∃ rank : RuleId → Nat, (∀ id, rank id ≤ g.rules.size) ∧ ∀ p q, g.Consults p q → rank q < rank p :=
  exists_height (fun _ _ ⟨_, hr, _⟩ => lt_size_of_rule? hr) hg.acyclic

/-- No circle is read in if every rule reads rules of a lower rank only. -/
theorem Grammar.IsStraight.of_rank {g : Grammar κ} (hg : g.IsLibrary) (hclosed : g.IsClosed) (rank : RuleId → Nat)
    (h : ∀ id < g.rules.size, ∀ rule ∈ g.rule? id, ∀ q ∈ rule.body.reads g, rank q < rank id) : g.IsStraight where
  library := hg
  closed := hclosed
  acyclic := by
    have step (p q : RuleId) (hpq : g.Consults p q) : rank q < rank p := by
      obtain ⟨rule, hr, hq⟩ := hpq
      exact h p (lt_size_of_rule? hr) rule hr q hq
    have path {p q : RuleId} (hpq : Relation.TransGen g.Consults p q) : rank q < rank p := by
      induction hpq with
      | single hpq => exact step _ _ hpq
      | tail _ hqr ih => exact Nat.lt_trans (step _ _ hqr) ih
    exact fun id hid => Nat.lt_irrefl _ (path hid)

/-- Rules of the library that read one another only, and meet no cycle in this. -/
structure Grammar.IsStraightOn (g : Grammar κ) (R : RuleId → Prop) : Prop where
  library : ∀ p rule, R p → g.rule? p = some rule → rule.body.IsLibrary
  closed : ∀ p q, R p → g.Consults p q → R q
  acyclic : ∀ p, R p → ¬ Relation.TransGen g.Consults p p

theorem Grammar.IsStraight.isStraightOn {g : Grammar κ} (hg : g.IsStraight) : g.IsStraightOn fun _ => True :=
  ⟨fun p rule _ => hg.library p rule, fun _ _ _ _ => trivial, fun p _ => hg.acyclic p⟩

variable [DecidableEq κ]

/-- The expectation that a body shows, if the rules that it reads show what `S` says. -/
def Body.shown (S : RuleId → Expectation κ) : Body κ → Expectation κ
  | .token m _ => .ofMatcher m
  | .capture m => .ofMatcher m
  | .sequence [] => .empty
  | .sequence (first :: _) => S first
  | .either branches => branches.foldl (fun e branch => e.union (S branch)) .empty
  | .oneOf ms => ⟨ms, [], false⟩
  | .optional inner _ => S inner
  | .repeated first _ _ => S first
  | .map inner _ => S inner
  | .skipping inner => (S inner).withAmbient
  | .skippingAfter inner => S inner
  | .within inner none => (S inner).withWhitespace []
  | .within inner (some policy) => (S inner).withWhitespace (S policy).prefixes
  | .placeholder none => .empty
  | .placeholder (some target) => S target
  | .handWritten _ _ => .empty

/-- What a rule of the library shows. -/
inductive Grammar.Shows (g : Grammar κ) : RuleId → Expectation κ → Prop
  | rule {id : RuleId} {rule : Rule κ} {S : RuleId → Expectation κ} (hr : g.rule? id = some rule)
      (hb : rule.body.IsLibrary) (h : ∀ q ∈ rule.body.reads g, Shows g q (S q)) : Shows g id (rule.body.shown S)

/-- A body shows no more than what the rules show that it reads. -/
theorem Body.shown_congr {g : Grammar κ} {b : Body κ} {S S' : RuleId → Expectation κ}
    (h : ∀ q ∈ b.reads g, S q = S' q) : b.shown S = b.shown S' := by
  have only {q : RuleId} (hq : q ∈ b.reads g) : S q = S' q := h q hq
  cases b with
  | token m f => rfl
  | capture m => rfl
  | oneOf ms => rfl
  | handWritten answer derivative => rfl
  | sequence parts =>
    cases parts with
    | nil => rfl
    | cons first parts => exact only List.mem_cons_self
  | either branches =>
    refine List.foldl_ext _ _ _ fun e q hq => ?_
    rw [only hq]
  | optional inner default => exact only List.mem_cons_self
  | repeated first minimum attempt => exact only List.mem_cons_self
  | map inner f => exact only List.mem_cons_self
  | skipping inner => exact congrArg Expectation.withAmbient (only List.mem_cons_self)
  | skippingAfter inner => exact only List.mem_cons_self
  | within inner policy =>
    cases policy with
    | none => exact congrArg (Expectation.withWhitespace · []) (only List.mem_cons_self)
    | some policy =>
      rw [shown, shown, only (q := policy) List.mem_cons_self,
        only (q := inner) (List.mem_cons_of_mem _ List.mem_cons_self)]
  | placeholder target =>
    cases target with
    | none => rfl
    | some target => exact only List.mem_cons_self

theorem Body.shown_of_own {b : Body κ} {S : RuleId → Expectation κ} {e : Expectation κ} (h : b.own? = some e) :
    b.shown S = e := by
  cases b with
  | sequence parts =>
    cases parts with
    | nil => cases h; rfl
    | cons first parts => cases h
  | token m f => cases h; rfl
  | capture m => cases h; rfl
  | oneOf ms => cases h; rfl
  | _ => cases h

/-- A body that only hands on the expectation of a rule shows what that rule shows. -/
theorem Body.shown_of_passes {b : Body κ} {id : RuleId} (h : b.passes? = some id) (S : RuleId → Expectation κ) :
    b.shown S = S id := by
  cases b with
  | sequence parts =>
    cases parts with
    | nil => cases h
    | cons first parts => cases h; rfl
  | optional inner default => cases h; rfl
  | repeated first minimum attempt => cases h; rfl
  | map inner f => cases h; rfl
  | skippingAfter inner => cases h; rfl
  | _ => cases h

namespace Grammar

variable {g : Grammar κ} {id : RuleId} {e e' : Expectation κ}

theorem Shows.unique (h : g.Shows id e) (h' : g.Shows id e') : e = e' := by
  induction h generalizing e' with
  | rule hr _ _ ih =>
    cases h' with
    | rule hr' _ h' =>
      cases hr.symm.trans hr'
      exact Body.shown_congr fun q hq => ih q hq (h' q hq)

theorem Shows.lt_size (h : g.Shows id e) : id < g.rules.size := by
  cases h with
  | rule hr => exact lt_size_of_rule? hr

/-- All that rules show, as a function. -/
theorem exists_shown (g : Grammar κ) : ∃ S : RuleId → Expectation κ, ∀ q e, g.Shows q e → S q = e := by
  classical
  refine ⟨fun q => if h : ∃ e, g.Shows q e then h.choose else .empty, fun q e he => ?_⟩
  have h : ∃ e, g.Shows q e := ⟨e, he⟩
  dsimp only
  rw [dif_pos h]
  exact h.choose_spec.unique he

/-- A rule shows what its body shows. -/
theorem Shows.eq_shown {rule : Rule κ} {S : RuleId → Expectation κ} (h : g.Shows id e) (hr : g.rule? id = some rule)
    (hS : ∀ q < g.rules.size, g.Shows q (S q)) : e = rule.body.shown S := by
  cases h with
  | rule hr' _ hshows =>
    cases hr.symm.trans hr'
    exact Body.shown_congr fun q hq => (hshows q hq).unique (hS q (hshows q hq).lt_size)

/-- A placeholder shows what its target shows. -/
theorem Shows.target {label : Option String} {target : RuleId}
    (hr : g.rule? id = some ⟨label, .placeholder (some target)⟩) (h : g.Shows target e) : g.Shows id e := by
  refine .rule (S := fun _ => e) hr trivial fun q hq => ?_
  cases List.mem_singleton.mp hq
  exact h

/-- A rule that hands on what another one shows shows that. -/
theorem Shows.passed {rule : Rule κ} {first : RuleId} (hr : g.rule? id = some rule) (hb : rule.body.IsLibrary)
    (hpasses : rule.body.passes? = some first) (h : g.Shows first e) : g.Shows id e := by
  have hshown := Grammar.Shows.rule (S := fun _ => e) hr hb (by simpa [Body.reads_of_passes hpasses g] using h)
  rwa [Body.shown_of_passes hpasses] at hshown

/-! ## 2. Walks -/

/-- What is added up from rules that show it is what the body of a choice shows. -/
theorem shown_of_adds {S : RuleId → Expectation κ} (hS : ∀ q e, g.Shows q e → S q = e) {ids : List RuleId}
    {d d' : Derivation κ} (h : Account.Adds (fun q _ e _ => g.Shows q e) ids e d e' d') :
    (∀ q ∈ ids, g.Shows q (S q)) ∧ e' = ids.foldl (fun e q => e.union (S q)) e := by
  induction h with
  | nil => exact ⟨nofun, rfl⟩
  | @cons q qs e e₁ e' d d₁ d' head tail ih =>
    have here := hS q e₁ head
    refine ⟨List.forall_mem_cons.mpr ⟨here ▸ head, ih.1⟩, ?_⟩
    rw [List.foldl_cons, here]
    exact ih.2

/-- **A walk over a body comes to what the rule shows**, if reading a rule comes to what that one shows. -/
theorem shows_of_derives {rule : Rule κ} (hr : g.rule? id = some rule) (hb : rule.body.IsLibrary)
    {d d' : Derivation κ} (h : rule.body.Derives (fun q _ e _ => g.Shows q e) d e d') : g.Shows id e := by
  obtain ⟨S, hS⟩ := g.exists_shown
  have shown {q : RuleId} {e : Expectation κ} (h : g.Shows q e) : g.Shows q (S q) := by
    rw [hS q e h]
    exact h
  suffices hread : (∀ q ∈ rule.body.reads g, g.Shows q (S q)) ∧ e = rule.body.shown S by
    rw [hread.2]
    exact .rule hr hb hread.1
  obtain ⟨label, b⟩ := rule
  dsimp only at h hb ⊢
  cases h with
  | own hown =>
    rw [Body.reads_of_own hown, Body.shown_of_own hown]
    exact ⟨nofun, rfl⟩
  | passed hpassed hread =>
    rw [Body.reads_of_passes hpassed, Body.shown_of_passes hpassed, hS _ _ hread]
    exact ⟨List.forall_mem_singleton.mpr (shown hread), rfl⟩
  | either hadds => exact shown_of_adds hS hadds
  | skipping hread =>
    rw [Body.shown, hS _ _ hread]
    refine ⟨fun q hq => ?_, rfl⟩
    cases List.mem_singleton.mp hq
    exact shown hread
  | without hread =>
    rw [Body.shown, hS _ _ hread]
    refine ⟨fun q hq => ?_, rfl⟩
    cases List.mem_singleton.mp hq
    exact shown hread
  | under hpolicy hread =>
    rw [Body.shown, hS _ _ hread, hS _ _ hpolicy]
    exact ⟨List.forall_mem_cons.mpr ⟨shown hpolicy, List.forall_mem_singleton.mpr (shown hread)⟩, rfl⟩
  | handWritten => exact hb.elim

end Grammar

/-! ## 3. Requests -/

/-- All that is kept for some rules is what they show. -/
def Derivation.KeepsShownOn (d : Derivation κ) (g : Grammar κ) (R : RuleId → Prop) : Prop :=
  ∀ id e, R id → d.known? id = some e → g.Shows id e

/-- All that is kept is what rules show. -/
def Derivation.KeepsShown (d : Derivation κ) (g : Grammar κ) : Prop := ∀ id e, d.known? id = some e → g.Shows id e

/-- The bookkeeping between requests to such a grammar: nothing is being derived, and all that is kept is what rules
show. -/
structure Derivation.Sure (d : Derivation κ) (g : Grammar κ) : Prop extends d.AtRest where
  known : d.KeepsShown g

theorem Derivation.sure_fresh (g : Grammar κ) : (fresh : Derivation κ).Sure g where
  marked := rfl
  depth := rfl
  known _ _ h := nomatch h

namespace Grammar

variable {g : Grammar κ} {id : RuleId} {d : Derivation κ}

/-- A walk that is inside of such rules only from which it has come here meets no mark in them, and comes to what the
rule shows. Of other rules nothing is said: they may be hand-written, and read one another in circles. -/
theorem expectationWithin_shows {R : RuleId → Prop} (hR : g.IsStraightOn R) (fuel : Nat) (id : RuleId)
    (d : Derivation κ) (hd : d.KeepsShownOn g R)
    (hmarks : ∀ m ∈ d.marked, R m → Relation.TransGen g.Consults m id) :
    Ensures (g.expectationWithin fuel id) d
      (fun e d' => (R id → g.Shows id e) ∧ d'.KeepsShownOn g R ∧ d'.marked = d.marked)
      fun _ d' => d'.KeepsShownOn g R := by
  induction fuel generalizing id d with
  | zero => exact hd
  | succ fuel ih =>
    apply Grammar.expectationWithin_ensures
    case absent => exact fun _ => hd
    case unresolved => exact fun label hr => ⟨fun _ => .rule (S := fun _ => .empty) hr trivial nofun, hd, rfl⟩
    case target =>
      intro label target hr
      have hedge : g.Consults id target := ⟨_, hr, List.mem_singleton_self target⟩
      refine (ih target d hd fun m hm hRm => (hmarks m hm hRm).tail hedge).imp_ok fun e d' h => ⟨fun hid => ?_, h.2⟩
      exact (h.1 (hR.closed id target hid hedge)).target hr
    case known => exact fun rule e hr hp hknown => ⟨fun hid => hd id e hid hknown, hd, rfl⟩
    case mute =>
      intro rule hr hp hnone _
      have hid : ¬ R id := fun hid => absurd hnone (Body.derived?_ne_none (hR.library id rule hid hr) hp)
      refine ⟨fun h => absurd h hid, fun q e hq hknown => ?_, rfl⟩
      rw [Derivation.known?_keep, if_neg fun (h : id = q) => hid (h ▸ hq)] at hknown
      exact hd q e hq hknown
    case cut => exact fun _ _ _ _ hm => ⟨fun hid => absurd (hmarks id hm hid) (hR.acyclic id hid), hd, rfl⟩
    case walk =>
      intro rule walk hr hwalk _ _
      have hread : ∀ q ∈ rule.body.reads g, ∀ d' : Derivation κ, d'.KeepsShownOn g R ∧ d'.marked = id :: d.marked →
          Ensures (g.expectationWithin fuel q) d' (fun e d'' => (R id → g.Shows q e) ∧
            d''.KeepsShownOn g R ∧ d''.marked = id :: d.marked) fun _ d'' => d''.KeepsShownOn g R := by
        rintro q hq d' ⟨hd', hmarked⟩
        have hedge : g.Consults id q := ⟨rule, hr, hq⟩
        refine (ih q d' hd' fun m hm hRm => ?_).imp_ok fun e d'' h =>
          ⟨fun hid => h.1 (hR.closed id q hid hedge), h.2.1, h.2.2.trans hmarked⟩
        rw [hmarked] at hm
        rcases List.mem_cons.mp hm with rfl | hm
        · exact .single hedge
        · exact (hmarks m hm hRm).tail hedge
      refine (Body.derived?_ensures (R := fun q _ e _ => R id → g.Shows q e) (d := d.enter id) hwalk hread ?_
        ⟨hd, rfl⟩).imp ?_ fun _ _ h => h
      · exact fun _ _ _ d' hd' => ⟨fun _ => hd'.1, fun _ _ _ => hd'.1⟩
      · rintro e inner ⟨hderives, hinner, hmarked⟩
        have shows (hid : R id) : g.Shows id e :=
          shows_of_derives hr (hR.library id rule hid hr) (hderives.mono fun _ _ _ _ h => h hid)
        refine ⟨shows, fun q e' hq hknown => ?_, ?_⟩
        · rcases Derivation.known?_conclude hknown with hknown | ⟨rfl, rfl, -⟩
          · exact hinner q e' hq hknown
          · exact shows hq
        · rw [Derivation.marked_conclude, hmarked, List.erase_cons_head]

/-- **A request is answered by what the rule shows**, and leaves the bookkeeping as sure as it was. -/
theorem expectation_sure (hg : g.IsStraight) (hid : id < g.rules.size) (hd : d.Sure g) :
    ∃ e d', g.expectation id d = .ok e d' ∧ g.Shows id e ∧ d'.Sure g := by
  obtain ⟨e, d', h⟩ := expectation_total hg.library hg.closed hg.guarded hid d
  have marks : ∀ m ∈ d.marked, True → Relation.TransGen g.Consults m id := by
    rw [hd.marked]
    exact nofun
  obtain ⟨shows, hknown, -⟩ := (expectationWithin_shows hg.isStraightOn g.derivationFuel id d
    (fun q e _ => hd.known q e) marks).ok h
  exact ⟨e, d', h, shows trivial, ((expectationWithin_grows g.derivationFuel id d).ok h).atRest hd.toAtRest,
    fun q e => hknown q e trivial⟩

/-- Requests for a rule are answered with what it shows, from any bookkeeping of a kind, unless `D`. -/
def Answers (g : Grammar κ) (J : Derivation κ → Prop) (D : Prop) (id : RuleId) : Prop :=
  ∀ d, J d → Ensures (g.expectation id) d (fun e d' => g.Shows id e ∧ J d') fun _ _ => D

theorem IsStraight.answers (hg : g.IsStraight) (hid : id < g.rules.size) : g.Answers (·.Sure g) False id := by
  intro d hd
  obtain ⟨e, d', h, hshows⟩ := expectation_sure hg hid hd
  rw [Ensures, h]
  exact hshows

/-- Every rule shows something. -/
theorem exists_shows (hg : g.IsStraight) (hid : id < g.rules.size) : ∃ e, g.Shows id e := by
  obtain ⟨e, -, -, h, -⟩ := expectation_sure hg hid (Derivation.sure_fresh g)
  exact ⟨e, h⟩

theorem exists_all_shown (hg : g.IsStraight) : ∃ S : RuleId → Expectation κ, ∀ q < g.rules.size, g.Shows q (S q) := by
  obtain ⟨S, hS⟩ := g.exists_shown
  refine ⟨S, fun q hq => ?_⟩
  obtain ⟨e, he⟩ := exists_shows hg hq
  exact hS q e he ▸ he

/-- Where there is no rule, the bookkeeping is left alone. -/
theorem expectation_absent (hid : g.rule? id = none) (d : Derivation κ) :
    g.expectation id d = .error (.unresolved none) d := by
  have fuel : g.derivationFuel = (g.derivationFuel - 1) + 1 := by
    exact (Nat.sub_add_cancel (Nat.mul_pos (Nat.succ_pos _) (Nat.succ_pos _))).symm
  rw [expectation, fuel, expectationWithin, hid]
  rfl

/-- However a request ends, what it leaves is sure, and what it answers is what the rule shows. -/
theorem expectation_ensures (hg : g.IsStraight) (id : RuleId) (hd : d.Sure g) :
    Ensures (g.expectation id) d (fun e d' => g.Shows id e ∧ d'.Sure g) fun _ d' => d'.Sure g := by
  cases hr : g.rule? id with
  | none =>
    rw [Ensures, expectation_absent hr]
    exact hd
  | some rule =>
    obtain ⟨e, d', h, hshows⟩ := expectation_sure hg (lt_size_of_rule? hr) hd
    rw [Ensures, h]
    exact hshows

end Grammar

end Descent
