import Descent.Grammar.Build
import Descent.Proofs.Derivation.Answers
import Descent.Proofs.Derivation.Straight

/-!
# Requests before all placeholders are resolved

Expectations may be asked for while placeholders still wait for their targets. Such a placeholder counts as a cut, so
that what was derived from it is not kept. But the answer that a request itself comes to is kept whatever was cut on
the way. That is right about circles, which have been gone around by then, and wrong about a placeholder that is given
its target later: the rule stays with what it could show at the time.

`Asking` is a history of requests and resolutions, and takes down which rules were *asked for early*, that is, while
there was a placeholder without a target that they may begin with. **What does not begin with a rule that was asked for
early comes to no harm** (`Grammar.early_requests`): what is kept for it is right, and was derived from nothing that
was missing; and once all placeholders are resolved, a request is answered as if nothing had been asked before. The
other rules show nothing that they should not, but they may show less than they should: `deferredLetter_stale`.
-/

namespace Descent

variable {κ : Type}

/-! ## 1. Rules that wait for a target -/

namespace Grammar

variable {g : Grammar κ} {P : RuleId → Prop} {p q : RuleId}

/-- The rule is, or may begin with, one of some rules. -/
def LeadsTo (g : Grammar κ) (P : RuleId → Prop) (p : RuleId) : Prop := ∃ q, Relation.ReflTransGen g.Entry p q ∧ P q

/-- A placeholder that has no target yet. -/
def Unresolved (g : Grammar κ) (id : RuleId) : Prop := ∃ label, g.rule? id = some ⟨label, .placeholder none⟩

/-- The rule is, or may begin with, a placeholder that has no target yet. -/
def Awaits (g : Grammar κ) (p : RuleId) : Prop := g.LeadsTo g.Unresolved p

theorem LeadsTo.head (hpq : g.Entry p q) (h : g.LeadsTo P q) : g.LeadsTo P p := by
  obtain ⟨r, hpath, hr⟩ := h
  exact ⟨r, .head hpq hpath, hr⟩

theorem LeadsTo.next (h : g.LeadsTo P p) : P p ∨ ∃ q, g.Entry p q ∧ g.LeadsTo P q := by
  obtain ⟨r, hpath, hr⟩ := h
  rcases hpath.cases_head with rfl | ⟨q, hpq, hpath⟩
  · exact Or.inl hr
  · exact Or.inr ⟨q, hpq, r, hpath, hr⟩

/-- All rules are relied on but those that may begin with one of some rules. -/
def reliedBut (g : Grammar κ) (early : RuleId → Prop) : Reliance g where
  on p := ¬ g.LeadsTo early p
  waits := g.Awaits
  on_entry hp hpq h := hp (h.head hpq)
  waits_next := by
    intro p rule hr hp
    rcases hp.next with ⟨label, hr'⟩ | ⟨q, ⟨rule', hr', hq⟩, h⟩
    · cases hr.symm.trans hr'
      exact Or.inl rfl
    · cases hr.symm.trans hr'
      exact Or.inr ⟨q, hq, h⟩

end Grammar

/-! ## 2. Giving a placeholder its target -/

/-- A placeholder of one grammar has its target in the other, and that is all the difference. -/
structure Grammar.Resolves (g : Grammar κ) (id target : RuleId) (g' : Grammar κ) : Prop where
  before : g.Unresolved id
  after : ∃ label, g'.rule? id = some ⟨label, .placeholder (some target)⟩
  others : ∀ q, q ≠ id → g'.rule? q = g.rule? q

theorem Build.resolve_resolves {g g' : Grammar κ} {id target : RuleId} (h : resolve id target g = .ok () g') :
    g.Resolves id target g' := by
  rw [resolve, bind_apply_of_ok (x := get) (a := g) (t := g) rfl] at h
  cases hr : g.rule? id with
  | none =>
    rw [hr] at h
    cases h
  | some rule =>
    rw [hr] at h
    obtain ⟨label, body⟩ := rule
    cases body with
    | placeholder previous =>
      cases previous with
      | none =>
        cases h
        have hr : g.rules[id]? = some ⟨label, .placeholder none⟩ := hr
        refine ⟨⟨label, hr⟩, ⟨label, ?_⟩, fun q hq => ?_⟩
        · rw [Grammar.rule?, Array.getElem?_modify, if_pos rfl, hr, Option.map_some]
        · rw [Grammar.rule?, Array.getElem?_modify, if_neg (Ne.symm hq), Grammar.rule?]
      | some previous => cases h
    | _ => cases h

namespace Grammar.Resolves

variable {g g' : Grammar κ} {id target p q : RuleId} {P : RuleId → Prop} {T : Trait κ}

theorem rule?_eq (h : g.Resolves id target g') {rule : Rule κ} (hr : g.rule? p = some rule)
    (hb : rule.body ≠ .placeholder none) : g'.rule? p = some rule := by
  rw [h.others p, hr]
  rintro rfl
  obtain ⟨label, hr'⟩ := h.before
  cases hr.symm.trans hr'
  exact hb rfl

/-- A rule that begins with another is no placeholder without a target. -/
theorem rule?_of_mem_entries (h : g.Resolves id target g') {rule : Rule κ} (hr : g.rule? p = some rule)
    (hq : q ∈ rule.body.entries) : g'.rule? p = some rule := by
  refine h.rule?_eq hr fun hb => ?_
  rw [hb] at hq
  exact absurd hq List.not_mem_nil

theorem isLibrary (h : g.Resolves id target g') (hg : g'.IsLibrary) : g.IsLibrary := by
  intro p rule hr
  by_cases hb : rule.body = .placeholder none
  · rw [hb]
    trivial
  · exact hg p rule (h.rule?_eq hr hb)

/-- What there was to be reached is still there: a placeholder without a target led nowhere. -/
theorem entry (h : g.Resolves id target g') (hpq : g.Entry p q) : g'.Entry p q := by
  obtain ⟨rule, hr, hq⟩ := hpq
  exact ⟨rule, h.rule?_of_mem_entries hr hq, hq⟩

theorem leadsTo (h : g.Resolves id target g') (hp : g.LeadsTo P p) : g'.LeadsTo P p := by
  obtain ⟨q, hpath, hq⟩ := hp
  exact ⟨q, Relation.ReflTransGen.mono (fun _ _ => h.entry) p q hpath, hq⟩

theorem reached (h : g.Resolves id target g') (hp : T.Reached g p) : T.Reached g' p := by
  obtain ⟨q, rule, hpath, hr, hb⟩ := hp
  refine ⟨q, rule, Relation.ReflTransGen.mono ?_ p q hpath, h.rule?_eq hr fun hb' => ?_, hb⟩
  · rintro a b ⟨rule, hr, hpasses, hq⟩
    exact ⟨rule, h.rule?_of_mem_entries hr hq, hpasses, hq⟩
  · rw [hb'] at hb
    exact Trait.not_borne (b := .placeholder none) rfl (by simp) hb

/-- A rule that waits for nothing is left as it was, and so is all that it begins with. -/
theorem rule?_of_not_awaits (h : g.Resolves id target g') (hp : ¬ g.Awaits p) : g'.rule? p = g.rule? p := by
  refine h.others p ?_
  rintro rfl
  exact hp ⟨p, .refl, h.before⟩

theorem not_awaits (h : g.Resolves id target g') (hp : ¬ g.Awaits p) : ¬ g'.Awaits p := by
  rintro ⟨q, hpath, label, hq⟩
  revert hp
  induction hpath using Relation.ReflTransGen.head_induction_on with
  | refl =>
    intro hp
    rw [h.rule?_of_not_awaits hp] at hq
    exact hp ⟨q, .refl, label, hq⟩
  | head hpc _ ih =>
    intro hp
    obtain ⟨rule, hr, hc⟩ := hpc
    rw [h.rule?_of_not_awaits hp] at hr
    exact ih fun hwaits => hp (hwaits.head ⟨rule, hr, hc⟩)

theorem reached_of_not_awaits (h : g.Resolves id target g') (hp : ¬ g.Awaits p) (hT : T.Reached g' p) :
    T.Reached g p := by
  obtain ⟨q, rule, hpath, hq, hb⟩ := hT
  revert hp
  induction hpath using Relation.ReflTransGen.head_induction_on with
  | refl =>
    intro hp
    rw [h.rule?_of_not_awaits hp] at hq
    exact .of_borne hq hb
  | head hpc _ ih =>
    intro hp
    obtain ⟨rule, hr, hpasses, hc⟩ := hpc
    rw [h.rule?_of_not_awaits hp] at hr
    exact .of_entry hr hpasses hc (ih fun hwaits => hp (hwaits.head ⟨rule, hr, hc⟩))

/-- **What is kept stays right when a placeholder is given its target.** -/
theorem reliable (h : g.Resolves id target g') {d : Derivation κ} {early : RuleId → Prop}
    (hd : d.Reliable (g.reliedBut early)) : d.Reliable (g'.reliedBut early) where
  depth_eq := hd.depth_eq
  sound q e hknown T hT := h.reached (hd.sound q e hknown T hT)
  full q e hknown hon := by
    obtain ⟨hwaits, hfull⟩ := hd.full q e hknown fun hearly => hon (h.leadsTo hearly)
    exact ⟨h.not_awaits hwaits, fun T hT => hfull T (h.reached_of_not_awaits hwaits hT)⟩

end Grammar.Resolves

/-! ## 3. Histories -/

/-- The walk of a request begins at this rule, while there is a placeholder without a target that it may begin with. A
placeholder that is asked for itself hands the request on, and is not what anything is kept for. -/
structure Grammar.AskedEarly (g : Grammar κ) (id q : RuleId) : Prop where
  path : Relation.ReflTransGen g.HandsOn id q
  walked : ∀ label target, g.rule? q ≠ some ⟨label, .placeholder target⟩
  awaits : g.Awaits q

section Asking

variable [DecidableEq κ]

/-- Requests for expectations and resolutions of placeholders, in any order: the grammar and the bookkeeping that they
come to, and which rules were asked for early. Every request for a rule ends in an answer (`Grammar.expectation_total`),
and a resolution that is refused changes nothing. -/
inductive Asking : Grammar κ → Derivation κ → (RuleId → Prop) → Prop
  | start (g : Grammar κ) : Asking g .fresh fun _ => False
  | ask {g : Grammar κ} {d d' : Derivation κ} {early : RuleId → Prop} {id : RuleId} {e : Expectation κ}
      (h : Asking g d early) (hask : g.expectation id d = .ok e d') :
      Asking g d' fun q => early q ∨ g.AskedEarly id q
  | resolve {g g' : Grammar κ} {d : Derivation κ} {early : RuleId → Prop} {id target : RuleId}
      (h : Asking g d early) (hresolve : Build.resolve id target g = .ok () g') : Asking g' d early

variable {g : Grammar κ} {d d' : Derivation κ} {early : RuleId → Prop} {id : RuleId} {e : Expectation κ}

/-- One request: it keeps its account, the rule that it is early for put aside. -/
theorem Grammar.expectation_asked (hg : g.IsLibrary) (hd : d.Reliable (g.reliedBut early))
    (hask : g.expectation id d = .ok e d') :
    ReadsFor (g.reliedBut fun q => early q ∨ g.AskedEarly id q) id d e d' := by
  have enlarged : d.Reliable (g.reliedBut fun q => early q ∨ g.AskedEarly id q) := by
    refine ⟨hd.depth_eq, hd.sound, fun q e hknown hon => hd.full q e hknown ?_⟩
    rintro ⟨r, hpath, hr⟩
    exact hon ⟨r, hpath, Or.inl hr⟩
  refine (expectationWithin_reliable hg g.derivationFuel id d enlarged ?_).ok hask
  intro _ q rule hpath hr hp hon hwaits
  refine hon ⟨q, .refl, Or.inr ⟨hpath, fun label target hr' => ?_, hwaits⟩⟩
  cases hr.symm.trans hr'
  exact hp target rfl

/-- **What a history leaves can be relied on**, but for what begins with a rule that was asked for early. -/
theorem Asking.reliable (h : Asking g d early) (hg : g.IsLibrary) :
    d.marked = [] ∧ d.Reliable (g.reliedBut early) := by
  induction h with
  | start g => exact ⟨rfl, rfl, nofun, nofun⟩
  | ask _ hask ih =>
    obtain ⟨hmarked, hd⟩ := ih hg
    have reads := Grammar.expectation_asked hg hd hask
    exact ⟨reads.marked.trans hmarked, reads.reliable⟩
  | resolve _ hresolve ih =>
    have resolves := Build.resolve_resolves hresolve
    obtain ⟨hmarked, hd⟩ := ih (resolves.isLibrary hg)
    exact ⟨hmarked, resolves.reliable hd⟩

/-- **Asking early does no harm but to what begins with a rule that was asked for early.** At any time, what is kept
for another rule is right, and was derived from resolved placeholders. And once all placeholders are resolved, every
request is answered: with nothing that would not be answered if none had been made before, and, for a rule that
begins with none that was asked for early, with all of that. -/
theorem Grammar.early_requests (hg : g.IsLibrary) (hclosed : g.IsClosed) (hguarded : g.IsGuarded)
    (h : Asking g d early) :
    (∀ q e, d.known? q = some e → g.LeadsTo early q ∨ ¬ g.Awaits q ∧ e.IsOf g q) ∧
      ((∀ q, ¬ g.Unresolved q) → ∀ id < g.rules.size, ∃ e d' e₀ d₀,
        g.expectation id d = .ok e d' ∧ g.expectation id .fresh = .ok e₀ d₀ ∧ e.prefixes ⊆ e₀.prefixes ∧
          (¬ g.LeadsTo early id → e₀.prefixes ⊆ e.prefixes)) := by
  obtain ⟨hmarked, hd⟩ := h.reliable hg
  refine ⟨fun q e hknown => ?_, fun hresolved id hid => ?_⟩
  · by_cases hearly : g.LeadsTo early q
    · exact Or.inl hearly
    · obtain ⟨hwaits, hfull⟩ := hd.full q e hknown hearly
      exact Or.inr ⟨hwaits, fun T => ⟨hd.sound q e hknown T, hfull T⟩⟩
  · obtain ⟨e, d', hask⟩ := expectation_total hg hclosed hguarded hid d
    obtain ⟨e₀, d₀, hfresh, hof, -⟩ := expectation_settled hg hclosed hguarded hid (Derivation.settled_fresh g)
    have reads := expectation_asked hg hd hask
    refine ⟨e, d', e₀, d₀, hask, hfresh, fun m hm => ?_, fun hearly m hm => ?_⟩
    · exact (hof (.matcher m)).mpr (reads.sound (.matcher m) hm)
    · -- with all placeholders resolved, no request is early
      refine reads.due ?_ (.matcher m) (Or.inl (hmarked ▸ ((hof (.matcher m)).mp hm).avoids))
      rintro ⟨q, hpath, hq | ⟨-, -, r, -, hr⟩⟩
      · exact hearly ⟨q, hpath, hq⟩
      · exact hresolved r hr

end Asking

/-- A letter, a placeholder that stands for it or is going to, and two rules that begin with the placeholder. -/
def deferredLetter (target : Option RuleId) : Grammar FixedMatcher where
  rules := #[⟨none, .token (.literal "a" true) none⟩, ⟨none, .placeholder target⟩, ⟨none, .sequence [1, 0]⟩,
    ⟨none, .optional 1 .none⟩]
  names := []
  customs := 0

theorem deferredLetter_resolved (q : RuleId) : ¬ (deferredLetter (some 0)).Unresolved q := by
  rintro ⟨label, hr⟩
  match q, hr with
  | 0, hr | 1, hr | 2, hr | 3, hr => cases hr

/-- The optional rule begins with the placeholder and the letter. -/
theorem deferredLetter_path {q : RuleId} (h : Relation.ReflTransGen (deferredLetter (some 0)).Entry 3 q) :
    q ∈ [3, 1, 0] := by
  induction h with
  | refl => decide
  | @tail p q _ hpq ih =>
    obtain ⟨rule, hr, hq⟩ := hpq
    simp only [List.mem_cons, List.not_mem_nil, or_false] at ih
    rcases ih with rfl | rfl | rfl <;> cases hr
    · cases List.mem_singleton.mp hq
      decide
    · cases List.mem_singleton.mp hq
      decide
    · cases hq

/-- The sequence is asked for early, and the optional rule, which does not begin with it, shows all that it should. -/
theorem early_requests_deferredLetter : ∃ d early,
    Asking (deferredLetter (some 0)) d early ∧ early 2 ∧ (∀ q, ¬ (deferredLetter (some 0)).Unresolved q) ∧
      ¬ (deferredLetter (some 0)).LeadsTo early 3 ∧
      ∃ e d', (deferredLetter (some 0)).expectation 3 d = .ok e d' ∧ .literal "a" true ∈ e.prefixes := by
  have early {q : RuleId} (h : False ∨ (deferredLetter none).AskedEarly 2 q) : q = 2 := by
    obtain ⟨hpath, -, -⟩ := h.resolve_left not_false
    -- the sequence is no placeholder
    rcases hpath.cases_head with rfl | ⟨p, ⟨label, hr⟩, -⟩
    · rfl
    · cases hr
  have asked : Asking (deferredLetter none) _ _ := .ask (.start _) (rfl : (deferredLetter none).expectation 2 _ = _)
  have history : Asking (deferredLetter (some 0)) _ _ :=
    asked.resolve (rfl : Build.resolve 1 0 (deferredLetter none) = .ok () (deferredLetter (some 0)))
  have straight : (deferredLetter (some 0)).IsStraight := .of_rank (by decide) (by decide) id (by decide)
  have relied : ¬ (deferredLetter (some 0)).LeadsTo (fun q => False ∨ (deferredLetter none).AskedEarly 2 q) 3 := by
    rintro ⟨q, hpath, hq⟩
    cases early hq
    exact absurd (deferredLetter_path hpath) (by decide)
  obtain ⟨e, d', e₀, d₀, hask, hfresh, -, hall⟩ :=
    (Grammar.early_requests straight.library straight.closed straight.guarded history).2 deferredLetter_resolved 3
      (by decide)
  refine ⟨_, _, history, Or.inr ⟨.refl, ?_, 1, ?_, none, rfl⟩, deferredLetter_resolved, relied, e, d', hask,
    hall relied ?_⟩
  · rintro label target hr
    cases hr
  · exact .single ⟨_, rfl, List.mem_cons_self⟩
  · cases hfresh
    exact List.mem_cons_self

/-- **An early request spoils the later ones**: the answer from before the placeholder had its target is kept and given
again, where a first request would be answered by the letter. -/
theorem deferredLetter_stale : ∃ e d e' d' e₀ d₀,
    (deferredLetter none).expectation 2 .fresh = .ok e d ∧ d.known? 2 = some e ∧
      Build.resolve 1 0 (deferredLetter none) = .ok () (deferredLetter (some 0)) ∧
      (∀ q, ¬ (deferredLetter (some 0)).Unresolved q) ∧
      (deferredLetter (some 0)).expectation 2 d = .ok e' d' ∧ e'.prefixes = [] ∧
      (deferredLetter (some 0)).expectation 2 .fresh = .ok e₀ d₀ ∧ e₀.prefixes = [.literal "a" true] :=
  ⟨_, _, _, _, _, _, rfl, rfl, rfl, deferredLetter_resolved, rfl, rfl, rfl, rfl⟩

end Descent
