import Descent.Proofs.Derivation.Straight
import Mathlib.Order.Basic

/-!
# Which of two answers shows more

One expectation shows no more than another if the other one shows all of its matchers, all of its whitespace, and that
ambient whitespace is skipped if it does. Bodies join expectations in a way that keeps this order (`Body.shown_le_shown`),
and so whatever bounds the answers that a walk reads bounds the answer that it puts together (`Body.Derives.compares`).

`Grammar.answer` is what a walk would come to past some marks, from a table of answers to begin with, if it kept nothing
on the way. **Fewer marks show more, and so does a larger table**, as long as the table has grown by answers that are no
less than what would have been shown without them (`Grammar.Outgrows.answer_mono`).
-/

namespace Descent

variable {κ : Type}

/-! ## 1. The order of expectations -/

/-- All that one expectation shows, the other one shows. -/
structure Expectation.Within (e e' : Expectation κ) : Prop where
  prefixes : e.prefixes ⊆ e'.prefixes
  whitespace : e.whitespace ⊆ e'.whitespace
  ambient : e.ambient = true → e'.ambient = true

instance : Preorder (Expectation κ) where
  le := Expectation.Within
  le_refl _ := ⟨List.Subset.refl _, List.Subset.refl _, id⟩
  le_trans _ _ _ h h' := ⟨List.Subset.trans h.prefixes h'.prefixes, List.Subset.trans h.whitespace h'.whitespace,
    h'.ambient ∘ h.ambient⟩

namespace Expectation

variable {e e' a a' p p' : Expectation κ}

theorem empty_le (e : Expectation κ) : empty ≤ e := ⟨List.nil_subset _, List.nil_subset _, nofun⟩

theorem withAmbient_le (h : e ≤ e') : e.withAmbient ≤ e'.withAmbient := ⟨h.prefixes, h.whitespace, fun _ => rfl⟩

variable [DecidableEq κ]

theorem le_union_left (e a : Expectation κ) : e ≤ e.union a :=
  ⟨fun _ hm => mem_orderedUnion.mpr (Or.inl hm), fun _ hm => mem_orderedUnion.mpr (Or.inl hm),
    fun ha => Bool.or_eq_true _ _ ▸ Or.inl ha⟩

theorem le_union_right (e a : Expectation κ) : a ≤ e.union a :=
  ⟨fun _ hm => mem_orderedUnion.mpr (Or.inr hm), fun _ hm => mem_orderedUnion.mpr (Or.inr hm),
    fun ha => Bool.or_eq_true _ _ ▸ Or.inr ha⟩

theorem union_le_union (h : e ≤ e') (h' : a ≤ a') : e.union a ≤ e'.union a' where
  prefixes _ hm := mem_orderedUnion.mpr ((mem_orderedUnion.mp hm).imp (h.prefixes ·) (h'.prefixes ·))
  whitespace _ hm := mem_orderedUnion.mpr ((mem_orderedUnion.mp hm).imp (h.whitespace ·) (h'.whitespace ·))
  ambient hm := Bool.or_eq_true _ _ ▸ (Bool.or_eq_true _ _ ▸ hm).imp h.ambient h'.ambient

theorem mem_whitespace_withWhitespace {ms : List (Matcher κ)} {m : Matcher κ} :
    m ∈ (e.withWhitespace ms).whitespace ↔ m ∈ e.whitespace ∨ e.ambient = true ∧ m ∈ ms := by
  cases h : e.ambient <;> simp [withWhitespace, h]

theorem withWhitespace_le {ms ms' : List (Matcher κ)} (h : e ≤ e') (hms : ms ⊆ ms') :
    e.withWhitespace ms ≤ e'.withWhitespace ms' where
  prefixes := by
    rw [prefixes_withWhitespace, prefixes_withWhitespace]
    exact h.prefixes
  whitespace m hm := by
    rw [mem_whitespace_withWhitespace] at hm ⊢
    exact hm.imp (h.whitespace ·) (And.imp h.ambient (hms ·))
  ambient hm := by simp [ambient_withWhitespace] at hm

/-- Comparisons that bodies keep when they join expectations. -/
structure Compares (r : Expectation κ → Expectation κ → Prop) : Prop where
  refl : ∀ e, r e e
  union : ∀ {e e' a a'}, r e e' → r a a' → r (e.union a) (e'.union a')
  withAmbient : ∀ {e e'}, r e e' → r e.withAmbient e'.withAmbient
  withWhitespace : ∀ {e e' p p'}, r e e' → r p p' → r (e.withWhitespace p.prefixes) (e'.withWhitespace p'.prefixes)

theorem compares_le : Compares (κ := κ) (· ≤ ·) where
  refl := le_refl
  union := union_le_union
  withAmbient := withAmbient_le
  withWhitespace h hp := withWhitespace_le h hp.prefixes

theorem compares_ge : Compares (κ := κ) (· ≥ ·) where
  refl := le_refl
  union := union_le_union
  withAmbient := withAmbient_le
  withWhitespace h hp := withWhitespace_le h hp.prefixes

end Expectation

/-! ## 2. Bodies -/

section Body

variable [DecidableEq κ] {b : Body κ} {r : Expectation κ → Expectation κ → Prop} {S S' : RuleId → Expectation κ}

/-- A body that reads more shows more. -/
theorem Body.shown_le_shown (h : ∀ q, S q ≤ S' q) (b : Body κ) : b.shown S ≤ b.shown S' := by
  have folds (branches : List RuleId) (e e' : Expectation κ) (he : e ≤ e') :
      branches.foldl (fun e branch => e.union (S branch)) e ≤
        branches.foldl (fun e branch => e.union (S' branch)) e' := by
    induction branches generalizing e e' with
    | nil => exact he
    | cons branch branches ih => exact ih _ _ (Expectation.union_le_union he (h branch))
  cases b with
  | token m f => exact le_rfl
  | capture m => exact le_rfl
  | oneOf ms => exact le_rfl
  | handWritten answer derivative => exact le_rfl
  | sequence parts =>
    cases parts with
    | nil => exact le_rfl
    | cons first parts => exact h first
  | either branches => exact folds branches _ _ le_rfl
  | optional inner default => exact h inner
  | repeated first minimum attempt => exact h first
  | map inner f => exact h inner
  | skipping inner => exact Expectation.withAmbient_le (h inner)
  | skippingAfter inner => exact h inner
  | within inner policy =>
    cases policy with
    | none => exact Expectation.withWhitespace_le (h inner) (List.Subset.refl _)
    | some policy => exact Expectation.withWhitespace_le (h inner) (h policy).prefixes
  | placeholder target =>
    cases target with
    | none => exact le_rfl
    | some target => exact h target

theorem Account.Adds.compares (hr : Expectation.Compares r) {ids : List RuleId} {e e' a : Expectation κ}
    {d d' : Derivation κ} (h : Account.Adds (fun q _ e _ => r (S q) e) ids e d e' d') (he : r a e) :
    r (ids.foldl (fun e q => e.union (S q)) a) e' := by
  induction h generalizing a with
  | nil => exact he
  | cons head tail ih => exact ih (hr.union he head)

/-- **A walk over a body compares with what the body shows** as the answers that it reads compare with what the rules
are taken to show. -/
theorem Body.Derives.compares (hr : Expectation.Compares r) (hb : b.IsLibrary) {e : Expectation κ}
    {d d' : Derivation κ} (h : b.Derives (fun q _ e _ => r (S q) e) d e d') : r (b.shown S) e := by
  cases h with
  | own hown =>
    rw [shown_of_own hown]
    exact hr.refl _
  | passed hpassed hread =>
    rw [shown_of_passes hpassed]
    exact hread
  | either hadds => exact hadds.compares hr (hr.refl _)
  | skipping hread => exact hr.withAmbient hread
  | without hread => exact hr.withWhitespace hread (hr.refl .empty)
  | under hpolicy hread => exact hr.withWhitespace hread hpolicy
  | handWritten => exact hb.elim

variable {R R' : Account κ} {J : Derivation κ → Derivation κ → Prop} {d d' : Derivation κ} {e e' : Expectation κ}

theorem Account.Adds.upTo (hrefl : ∀ d, J d d) (htrans : ∀ {a b c}, J a b → J b c → J a c)
    (hR : ∀ {q d e d'}, R q d e d' → J d d') {ids : List RuleId} (h : R.Adds ids e d e' d')
    (himp : ∀ {q d₁ e d₂}, R q d₁ e d₂ → J d₂ d' → R' q d₁ e d₂) : J d d' ∧ R'.Adds ids e d e' d' := by
  induction h with
  | nil => exact ⟨hrefl _, .nil⟩
  | cons head tail ih =>
    obtain ⟨later, tail'⟩ := ih himp
    exact ⟨htrans (hR head) later, .cons (himp head later) tail'⟩

/-- What is read in a walk may be said with a view to the end of the walk. -/
theorem Body.Derives.upTo (hrefl : ∀ d, J d d) (htrans : ∀ {a b c}, J a b → J b c → J a c)
    (hR : ∀ {q d e d'}, R q d e d' → J d d') (h : b.Derives R d e d')
    (himp : ∀ {q d₁ e d₂}, R q d₁ e d₂ → J d₂ d' → R' q d₁ e d₂) : b.Derives R' d e d' := by
  cases h with
  | own hown => exact .own hown
  | passed hpassed hread => exact .passed hpassed (himp hread (hrefl _))
  | either hadds => exact .either (hadds.upTo hrefl htrans hR himp).2
  | skipping hread => exact .skipping (himp hread (hrefl _))
  | without hread => exact .without (himp hread (hrefl _))
  | under hpolicy hread => exact .under (himp hpolicy (hR hread)) (himp hread (hrefl _))
  | handWritten => exact .handWritten

end Body

/-! ## 3. Answers without bookkeeping -/

variable {g : Grammar κ}

variable [DecidableEq κ]

/-- What a walk would come to past some marks, if it kept nothing of its own. It goes through so many rules at most. -/
def Grammar.answer (g : Grammar κ) (known? : RuleId → Option (Expectation κ)) :
    Nat → List RuleId → RuleId → Expectation κ
  | 0, _, _ => .empty
  | n + 1, marks, id =>
    match g.rule? id with
    | none => .empty
    | some ⟨_, .placeholder none⟩ => .empty
    | some ⟨_, .placeholder (some target)⟩ => g.answer known? n marks target
    | some rule =>
      match known? id with
      | some e => e
      | none => if id ∈ marks then .empty else rule.body.shown (g.answer known? n (id :: marks))

section Answer

variable {K K' K'' : RuleId → Option (Expectation κ)} {n n' : Nat} {marks M M' : List RuleId} {id : RuleId}
  {rule : Rule κ} {e : Expectation κ}

theorem Grammar.answer_target {label : Option String} {target : RuleId}
    (hr : g.rule? id = some ⟨label, .placeholder (some target)⟩) :
    g.answer K (n + 1) M id = g.answer K n M target := by
  rw [Grammar.answer, hr]

theorem Grammar.answer_proper (hr : g.Proper id rule) : g.answer K (n + 1) M id =
    match K id with
    | some e => e
    | none => if id ∈ M then .empty else rule.body.shown (g.answer K n (id :: M)) := by
  rw [Grammar.answer]
  split
  next hr' => cases hr'.symm.trans hr.1
  next hr' => cases hr'.symm.trans hr.1; exact absurd rfl (hr.2 _)
  next hr' => cases hr'.symm.trans hr.1; exact absurd rfl (hr.2 _)
  next hr' => cases hr'.symm.trans hr.1; rfl

theorem Grammar.answer_known (hr : g.Proper id rule) (h : K id = some e) : g.answer K (n + 1) M id = e := by
  rw [answer_proper hr, h]

theorem Grammar.answer_walk (hr : g.Proper id rule) (h : K id = none) (hm : id ∉ M) :
    g.answer K (n + 1) M id = rule.body.shown (g.answer K n (id :: M)) := by
  rw [answer_proper hr, h]
  exact if_neg hm

/-- An answer is no more than something if none of the things is that may be done. -/
theorem Grammar.answer_le
    (target : ∀ n' label target, n = n' + 1 → g.rule? id = some ⟨label, .placeholder (some target)⟩ →
      g.answer K n' M target ≤ e)
    (known : ∀ rule e', g.Proper id rule → K id = some e' → e' ≤ e)
    (walk : ∀ n' rule, n = n' + 1 → g.Proper id rule → K id = none → id ∉ M →
      rule.body.shown (g.answer K n' (id :: M)) ≤ e) : g.answer K n M id ≤ e := by
  cases n with
  | zero => exact e.empty_le
  | succ n =>
    rw [Grammar.answer]
    split
    next => exact e.empty_le
    next => exact e.empty_le
    next label t hr => exact target n label t rfl hr
    next rule hnone hsome hr =>
      have proper : g.Proper id rule := ⟨hr, Rule.body_ne_placeholder hnone hsome⟩
      cases hK : K id with
      | some e => exact known rule e proper hK
      | none =>
        dsimp only
        split
        next => exact e.empty_le
        next hm => exact walk n rule rfl proper hK hm

/-- A rule that is in the table is answered from there. -/
theorem Grammar.Proper.answer_le_known (hr : g.Proper id rule) (h : K id = some e) : g.answer K n M id ≤ e := by
  apply Grammar.answer_le
  case target => exact fun _ label target _ hr' => absurd hr' (hr.ne_target label target)
  case known =>
    intro _ e' _ h'
    cases h.symm.trans h'
    exact le_rfl
  case walk => exact fun _ _ _ _ h' => nomatch h.symm.trans h'

/-- A marked rule shows nothing, unless it is in the table. -/
theorem Grammar.Proper.answer_le_marked (hr : g.Proper id rule) (h : K id = none) (hm : id ∈ M) :
    g.answer K n M id ≤ e := by
  apply Grammar.answer_le
  case target => exact fun _ label target _ hr' => absurd hr' (hr.ne_target label target)
  case known => exact fun _ _ _ h' => nomatch h.symm.trans h'
  case walk => exact fun _ _ _ _ _ hm' => absurd hm hm'

/-- Past some marks, one table has grown out of another: it keeps what was there, and what is new is no less than what
was answered before. -/
structure Grammar.Outgrows (g : Grammar κ) (marks : List RuleId) (K K' : RuleId → Option (Expectation κ)) : Prop where
  keeps : ∀ id e, K id = some e → K' id = some e
  above : ∀ id rule e, g.Proper id rule → K' id = some e → ∀ n M, marks ⊆ M → g.answer K n M id ≤ e

/-- **More is answered past fewer marks and from a table that has grown.** -/
theorem Grammar.Outgrows.answer_mono (h : g.Outgrows marks K K') (hM : marks ⊆ M) (hsub : M' ⊆ M) (hn : n ≤ n') :
    g.answer K n M id ≤ g.answer K' n' M' id := by
  induction n generalizing n' M M' id with
  | zero => exact Expectation.empty_le _
  | succ n ih =>
    obtain ⟨n', rfl⟩ := Nat.exists_eq_add_one_of_ne_zero (Nat.ne_of_gt (Nat.lt_of_lt_of_le n.succ_pos hn))
    have hn := Nat.le_of_succ_le_succ hn
    apply Grammar.answer_le
    case target =>
      intro m label target hm hr
      cases hm
      rw [answer_target hr]
      exact ih hM hsub hn
    case known =>
      intro rule e hr hK
      rw [answer_known hr (h.keeps id e hK)]
    case walk =>
      intro m rule hm hr hK hid
      cases hm
      cases hK' : K' id with
      | some e =>
        -- it has been answered in the meantime
        rw [answer_known hr hK', ← answer_walk hr hK hid]
        exact h.above id rule e hr hK' _ M hM
      | none =>
        rw [answer_walk hr hK' fun hm => hid (hsub hm)]
        exact rule.body.shown_le_shown fun q =>
          ih (List.subset_cons_of_subset _ hM) (List.cons_subset_cons _ hsub) hn

theorem Grammar.Outgrows.refl (g : Grammar κ) (marks : List RuleId) (K : RuleId → Option (Expectation κ)) :
    g.Outgrows marks K K where
  keeps _ _ h := h
  above _ _ _ hr h _ _ _ := hr.answer_le_known h

theorem Grammar.Outgrows.trans (h : g.Outgrows marks K K') (h' : g.Outgrows marks K' K'') : g.Outgrows marks K K'' where
  keeps id e hK := h'.keeps id e (h.keeps id e hK)
  above id rule e hr hK n M hM := (h.answer_mono hM (List.Subset.refl M) le_rfl).trans (h'.above id rule e hr hK n M hM)

/-- What is kept when a mark is taken off is new only to those who could not see it. -/
theorem Grammar.Outgrows.keep (h : K id = none) (hkeeps : ∀ q, q ≠ id → K' q = K q) :
    g.Outgrows (id :: marks) K K' where
  keeps q e hq := by
    rw [hkeeps q, hq]
    rintro rfl
    cases h.symm.trans hq
  above := by
    intro q rule e hr hq n M hM
    by_cases heq : q = id
    · subst heq
      exact hr.answer_le_marked h (hM List.mem_cons_self)
    · exact hr.answer_le_known (hkeeps q heq ▸ hq)

end Answer

end Descent
