import Descent.Matcher.Fixed
import Descent.Proofs.Derivation.Early

/-!
# Which expectations name a matcher twice

Where expectations are joined, matchers stay in order and each is named once. But not every expectation is joined from
others. A choice of matchers shows the matchers that it was given, as it was given them, and rules that begin with one
other rule hand the matchers of that rule on as they are (`Grammar.Copies`). So a matcher that is listed twice is shown
twice, by the choice and by every rule that copies it; the first `either` on the way puts an end to it.

**There is no other way to repeat a matcher** (`Grammar.expectations_repeat_iff`): expectations name whitespace once,
and they name matchers once unless they copy a list that does not. This is read off the table of kept answers. What is
kept for a rule is nothing, a list of its own without repeats, or a copy (`Grammar.Presents`), and it stays so when a
placeholder is given its target, since a placeholder without one presents nothing.
-/

namespace Descent

variable {κ : Type}

/-! ## 1. Lists that are copied -/

/-- The rule whose matchers a body shows as they are. -/
def Body.copies? : Body κ → Option RuleId
  | .skipping inner => some inner
  | .within inner _ => some inner
  | .placeholder target => target
  | b => b.passes?

theorem Body.copies?_of_passes {b : Body κ} {id : RuleId} (h : b.passes? = some id) : b.copies? = some id := by
  cases b with
  | skipping inner => cases h
  | within inner policy => cases h
  | placeholder target => cases h
  | _ => exact h

/-- A body begins with the rule whose matchers it shows. -/
theorem Body.mem_entries_of_copies {b : Body κ} {id : RuleId} (h : b.copies? = some id) : id ∈ b.entries := by
  unfold copies? at h
  split at h
  next => cases h; exact List.mem_singleton_self id
  next => cases h; exact List.mem_singleton_self id
  next => cases h; exact List.mem_singleton_self id
  next =>
    obtain ⟨hentries, -⟩ := passes?_eq_some h
    exact hentries ▸ List.mem_singleton_self id

namespace Grammar

variable {g g' : Grammar κ} {id p q target : RuleId} {ms ms' : List (Matcher κ)}

/-- One rule shows the matchers of another as they are. -/
def Copies (g : Grammar κ) (p q : RuleId) : Prop := ∃ rule, g.rule? p = some rule ∧ rule.body.copies? = some q

/-- A rule is a choice of these matchers, or copies one. -/
def Lists (g : Grammar κ) (id : RuleId) (ms : List (Matcher κ)) : Prop :=
  ∃ q label, Relation.ReflTransGen g.Copies id q ∧ g.rule? q = some ⟨label, .oneOf ms⟩

/-- The matchers that a rule may be shown with: none, those of a choice or of the rule that it copies, or else no
matcher twice. -/
inductive Presents (g : Grammar κ) : RuleId → List (Matcher κ) → Prop
  | nothing {id : RuleId} : Presents g id []
  | listed {id : RuleId} {label : Option String} {ms : List (Matcher κ)} (hr : g.rule? id = some ⟨label, .oneOf ms⟩) :
    Presents g id ms
  | copied {id q : RuleId} {ms : List (Matcher κ)} (hq : g.Copies id q) (h : Presents g q ms) : Presents g id ms
  | joined {id : RuleId} {rule : Rule κ} {ms : List (Matcher κ)} (hr : g.Proper id rule)
    (hcopies : rule.body.copies? = none) (hown : ∀ own, rule.body ≠ .oneOf own) (hms : ms.Nodup) : Presents g id ms

/-- A list that repeats a matcher is a copy of one that does. -/
theorem Presents.nodup_or_lists (h : g.Presents id ms) : ms.Nodup ∨ g.Lists id ms := by
  induction h with
  | nothing => exact Or.inl .nil
  | @listed id label ms hr => exact Or.inr ⟨id, label, .refl, hr⟩
  | copied hq _ ih =>
    refine ih.imp_right ?_
    rintro ⟨r, label, hpath, hr⟩
    exact ⟨r, label, .head hq hpath, hr⟩
  | joined _ _ _ hms => exact Or.inl hms

/-- A rule that copies a list is shown with that list or with nothing. -/
theorem Lists.eq_of_presents (h : g.Lists id ms) (hp : g.Presents id ms') : ms' = [] ∨ ms' = ms := by
  obtain ⟨q, label, hpath, hq⟩ := h
  induction hpath using Relation.ReflTransGen.head_induction_on with
  | refl =>
    cases hp with
    | nothing => exact Or.inl rfl
    | listed hr =>
      cases hr.symm.trans hq
      exact Or.inr rfl
    | copied hcopies =>
      obtain ⟨rule, hr, hc⟩ := hcopies
      cases hr.symm.trans hq
      cases hc
    | joined hr _ hown =>
      cases hr.1.symm.trans hq
      exact absurd rfl (hown ms)
  | @head p r hpr _ ih =>
    obtain ⟨rule, hr, hc⟩ := hpr
    cases hp with
    | nothing => exact Or.inl rfl
    | listed hr' =>
      cases hr'.symm.trans hr
      cases hc
    | copied hcopies h =>
      -- there is one rule to copy at most
      obtain ⟨rule', hr', hc'⟩ := hcopies
      cases hr'.symm.trans hr
      cases hc'.symm.trans hc
      exact ih h
    | joined hr' hnone =>
      cases hr'.1.symm.trans hr
      cases hnone.symm.trans hc

/-- The matchers of a list can be reached from the rules that copy it. -/
theorem Lists.reached (h : g.Lists id ms) {m : Matcher κ} (hm : m ∈ ms) : (Trait.matcher m).Reached g id := by
  obtain ⟨q, label, hpath, hq⟩ := h
  refine Trait.reached_matcher_iff.mpr ⟨q, ⟨label, .oneOf ms⟩, hpath.lift (fun p => p) ?_, hq, hm⟩
  rintro a b ⟨rule, hr, hc⟩
  exact ⟨rule, hr, Body.mem_entries_of_copies hc⟩

/-- What a rule may be shown with, it may be shown with when a placeholder has its target. -/
theorem Resolves.presents (h : g.Resolves p target g') (hp : g.Presents id ms) : g'.Presents id ms := by
  induction hp with
  | nothing => exact .nothing
  | listed hr => exact .listed (h.rule?_eq hr nofun)
  | copied hq _ ih =>
    obtain ⟨rule, hr, hc⟩ := hq
    exact .copied ⟨rule, h.rule?_of_mem_entries hr (Body.mem_entries_of_copies hc), hc⟩ ih
  | joined hr hcopies hown hms => exact .joined ⟨h.rule?_eq hr.1 (hr.2 none), hr.2⟩ hcopies hown hms

end Grammar

/-! ## 2. Answers -/

/-- An expectation that repeats no whitespace, and no matcher unless it copies a list. -/
structure Expectation.Tidy (e : Expectation κ) (g : Grammar κ) (id : RuleId) : Prop where
  whitespace : e.whitespace.Nodup
  prefixes : g.Presents id e.prefixes

/-- All that is kept is tidy. -/
def Derivation.Tidy (d : Derivation κ) (g : Grammar κ) : Prop := ∀ id e, d.known? id = some e → e.Tidy g id

variable {g : Grammar κ} {id : RuleId} {e : Expectation κ} {d inner : Derivation κ}

theorem Expectation.Tidy.empty (g : Grammar κ) (id : RuleId) : (Expectation.empty : Expectation κ).Tidy g id :=
  ⟨.nil, .nothing⟩

theorem Derivation.Tidy.keep (hd : d.Tidy g) (he : e.Tidy g id) : (d.keep id e).Tidy g := by
  intro q e' hq
  rw [Derivation.known?_keep] at hq
  split at hq
  next hid =>
    cases hq
    exact hid ▸ he
  next => exact hd q e' hq

theorem Derivation.Tidy.conclude {outer : Derivation κ} (hinner : inner.Tidy g) (he : e.Tidy g id) :
    (outer.conclude inner id e).Tidy g := by
  intro q e' hq
  rcases Derivation.known?_conclude hq with hq | ⟨rfl, rfl, -⟩
  · exact hinner q e' hq
  · exact he

variable [DecidableEq κ]

theorem Expectation.whitespace_withWhitespace_nodup (h : e.whitespace.Nodup) (ms : List (Matcher κ)) :
    (e.withWhitespace ms).whitespace.Nodup := by
  rw [withWhitespace]
  split
  · exact nodup_orderedUnion _ _
  · exact h

/-- Joined expectations repeat nothing. -/
theorem Account.Adds.nodup {R : Account κ} {ids : List RuleId} {e e' : Expectation κ} {d d' : Derivation κ}
    (h : R.Adds ids e d e' d') (he : e.prefixes.Nodup ∧ e.whitespace.Nodup) :
    e'.prefixes.Nodup ∧ e'.whitespace.Nodup := by
  induction h with
  | nil => exact he
  | cons _ _ ih => exact ih ⟨nodup_orderedUnion _ _, nodup_orderedUnion _ _⟩

/-- **Bodies keep expectations tidy**, one case for each way to put an expectation together. -/
theorem Body.Derives.tidy {rule : Rule κ} {d' : Derivation κ} (hr : g.Proper id rule) (hb : rule.body.IsLibrary)
    (h : rule.body.Derives (fun q _ e _ => e.Tidy g q) d e d') : e.Tidy g id := by
  obtain ⟨label, body⟩ := rule
  cases h with
  | own hown =>
    cases body with
    | token m f =>
      cases hown
      exact ⟨.nil, .joined hr rfl nofun (List.nodup_singleton m)⟩
    | capture m =>
      cases hown
      exact ⟨.nil, .joined hr rfl nofun (List.nodup_singleton m)⟩
    | oneOf ms =>
      cases hown
      exact ⟨.nil, .listed hr.1⟩
    | sequence parts =>
      cases parts with
      | nil =>
        cases hown
        exact .empty g id
      | cons first parts => cases hown
    | _ => cases hown
  | passed hpasses hread => exact ⟨hread.whitespace, .copied ⟨_, hr.1, copies?_of_passes hpasses⟩ hread.prefixes⟩
  | either hadds =>
    obtain ⟨hprefixes, hwhitespace⟩ := hadds.nodup ⟨.nil, .nil⟩
    exact ⟨hwhitespace, .joined hr rfl nofun hprefixes⟩
  | skipping hread => exact ⟨hread.whitespace, .copied ⟨_, hr.1, rfl⟩ hread.prefixes⟩
  | without hread =>
    refine ⟨Expectation.whitespace_withWhitespace_nodup hread.whitespace _, ?_⟩
    rw [Expectation.prefixes_withWhitespace]
    exact .copied ⟨_, hr.1, rfl⟩ hread.prefixes
  | under _ hread =>
    refine ⟨Expectation.whitespace_withWhitespace_nodup hread.whitespace _, ?_⟩
    rw [Expectation.prefixes_withWhitespace]
    exact .copied ⟨_, hr.1, rfl⟩ hread.prefixes
  | handWritten => exact hb.elim

/-- **Answers are tidy**, and so is what is kept for them. -/
theorem Grammar.expectationWithin_tidy (hg : g.IsLibrary) (fuel : Nat) (id : RuleId) (d : Derivation κ)
    (hd : d.Tidy g) :
    Ensures (g.expectationWithin fuel id) d (fun e d' => e.Tidy g id ∧ d'.Tidy g) fun _ d' => d'.Tidy g := by
  induction fuel generalizing id d with
  | zero => exact hd
  | succ fuel ih =>
    apply Grammar.expectationWithin_ensures
    case absent => exact fun _ => hd
    case unresolved => exact fun _ _ => ⟨.empty g id, hd⟩
    case target =>
      intro label target hr
      refine (ih target d hd).imp_ok fun e d' h => ⟨⟨h.1.whitespace, ?_⟩, h.2⟩
      exact .copied ⟨_, hr, rfl⟩ h.1.prefixes
    case known => exact fun _ e _ _ hknown => ⟨hd id e hknown, hd⟩
    case mute => exact fun _ _ _ _ _ => ⟨.empty g id, hd.keep (.empty g id)⟩
    case cut => exact fun _ _ _ _ _ => ⟨.empty g id, hd⟩
    case walk =>
      intro rule walk hr hwalk _ _
      refine (Body.derived?_ensures (R := fun q _ e _ => e.Tidy g q) (P := fun d₁ => d₁.Tidy g)
        (E := fun _ d₁ => d₁.Tidy g) hwalk (fun q _ d₁ hd₁ => ih q d₁ hd₁) ?_
        (d := d.enter id) hd).imp ?_ fun _ _ h => h
      · exact fun _ _ _ d₁ hd₁ => ⟨fun _ => hd₁, fun _ _ _ => hd₁⟩
      · rintro e inner ⟨hderives, hinner⟩
        have tidy := hderives.tidy (.of_derived hr hwalk) (hg id rule hr)
        exact ⟨tidy, hinner.conclude tidy⟩

/-! ## 3. Histories -/

variable {early : RuleId → Prop} {d' : Derivation κ}

/-- Requests and resolutions leave things tidy. -/
theorem Asking.tidy (h : Asking g d early) (hg : g.IsLibrary) : d.Tidy g := by
  induction h with
  | start g => exact nofun
  | ask _ hask ih => exact ((Grammar.expectationWithin_tidy hg _ _ _ (ih hg)).ok hask).2
  | resolve _ hresolve ih =>
    have resolves := Build.resolve_resolves hresolve
    exact fun id e hknown => ⟨(ih (resolves.isLibrary hg) id e hknown).whitespace,
      resolves.presents (ih (resolves.isLibrary hg) id e hknown).prefixes⟩

/-- Once all placeholders are resolved, a rule that does not begin with one that was asked for early shows all that can
be reached from it. -/
theorem Asking.shown (h : Asking g d early) (hg : g.IsLibrary) (hask : g.expectation id d = .ok e d')
    (hresolved : ∀ q, ¬ g.Unresolved q) (hearly : ¬ g.LeadsTo early id) {T : Trait κ} (hT : T.Reached g id) :
    T.Shown e := by
  obtain ⟨hmarked, hd⟩ := h.reliable hg
  refine (Grammar.expectation_asked hg hd hask).due ?_ T (Or.inl (hmarked ▸ hT.avoids))
  rintro ⟨q, hpath, hq | ⟨-, -, r, -, hr⟩⟩
  · exact hearly ⟨q, hpath, hq⟩
  · exact hresolved r hr

/-- **Expectations name a matcher twice only where they copy a list that does.** Whatever was asked for before, the
answer of a request names no whitespace twice; and if it names a matcher twice, the rule is a choice of matchers that
was given the list as it stands, or copies one. Once all placeholders are resolved, every rule that copies a list with
repeats shows it, unless it begins with a rule that was asked for early. And requests are answered, if no placeholders
stand for one another in a circle. -/
theorem Grammar.expectations_repeat_iff (hg : g.IsLibrary) (h : Asking g d early) (id : RuleId) :
    (g.IsClosed → g.IsGuarded → id < g.rules.size → ∃ e d', g.expectation id d = .ok e d') ∧
      ∀ e d', g.expectation id d = .ok e d' →
        e.whitespace.Nodup ∧ (e.prefixes.Nodup ∨ g.Lists id e.prefixes) ∧
          ((∀ q, ¬ g.Unresolved q) → ¬ g.LeadsTo early id →
            (e.prefixes.Nodup ↔ ∀ ms, g.Lists id ms → ms.Nodup)) := by
  refine ⟨fun hclosed hguarded hid => expectation_total hg hclosed hguarded hid d, fun e d' hask => ?_⟩
  obtain ⟨⟨hwhitespace, hprefixes⟩, -⟩ := (expectationWithin_tidy hg _ id d (h.tidy hg)).ok hask
  refine ⟨hwhitespace, hprefixes.nodup_or_lists, fun hresolved hearly => ⟨fun hnodup ms hms => ?_, fun hnodup => ?_⟩⟩
  · rcases hms.eq_of_presents hprefixes with hnone | heq
    · -- nothing is shown, so there is nothing in the list
      cases ms with
      | nil => exact .nil
      | cons m ms =>
        have hm : m ∈ e.prefixes := h.shown hg hask hresolved hearly (hms.reached List.mem_cons_self)
        rw [hnone] at hm
        cases hm
    · exact heq ▸ hnodup
  · exact hprefixes.nodup_or_lists.elim (fun h => h) (hnodup e.prefixes)

/-- A choice of a letter that is given twice, a rule that may be left out and copies it, and a choice between the
two. -/
def twiceLetter : Grammar FixedMatcher where
  rules := #[⟨none, .oneOf [.literal "a" true, .literal "a" true]⟩, ⟨none, .optional 0 .none⟩, ⟨none, .either [1, 0]⟩]
  names := []
  customs := 0

/-- The rule that copies the choice shows the letter twice, asked for after the choice between the two, which shows it
once. -/
theorem expectations_repeat_iff_twiceLetter : ∃ d early e d',
    Asking twiceLetter d early ∧ twiceLetter.expectation 1 d = .ok e d' ∧
      twiceLetter.Lists 1 [.literal "a" true, .literal "a" true] ∧ ¬ e.prefixes.Nodup ∧
      ∃ e₀ d₀, twiceLetter.expectation 2 .fresh = .ok e₀ d₀ ∧ e₀.prefixes = [.literal "a" true] := by
  have hg : twiceLetter.IsLibrary := by decide
  have asked : Asking twiceLetter _ _ := .ask (.start _) (rfl : twiceLetter.expectation 2 .fresh = _)
  have lists : twiceLetter.Lists 1 [.literal "a" true, .literal "a" true] :=
    ⟨0, none, .single ⟨_, rfl, rfl⟩, rfl⟩
  have resolved (q : RuleId) : ¬ twiceLetter.Unresolved q := by
    rintro ⟨label, hr⟩
    match q, hr with
    | 0, hr | 1, hr | 2, hr => cases hr
  -- with all placeholders resolved from the start, nothing was early
  have early {q : RuleId} (h : False ∨ twiceLetter.AskedEarly 2 q) : False := by
    obtain ⟨-, -, r, -, hr⟩ := h.resolve_left not_false
    exact resolved r hr
  obtain ⟨-, hanswer⟩ := Grammar.expectations_repeat_iff hg asked 1
  obtain ⟨-, -, hiff⟩ := hanswer _ _ rfl
  refine ⟨_, _, _, _, asked, rfl, lists, fun hnodup => ?_, _, _, rfl, rfl⟩
  have hms := (hiff resolved fun ⟨q, _, hq⟩ => early hq).mp hnodup _ lists
  exact absurd hms (by simp)

/-- **A choice that is given a matcher twice shows it twice.** -/
theorem twiceLetter_repeats : ∃ (g : Grammar FixedMatcher) (id : RuleId) (e : Expectation FixedMatcher)
    (d : Derivation FixedMatcher), Build.oneOf [.text "a", .text "a"] .empty = .ok id g ∧
      g.expectation id .fresh = .ok e d ∧ e.prefixes = [.literal "a" true, .literal "a" true] ∧
      ¬ e.prefixes.Nodup :=
  ⟨_, _, _, _, rfl, rfl, rfl, by simp⟩

end Descent
