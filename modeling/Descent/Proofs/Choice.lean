import Descent.Matcher.Fixed
import Descent.Proofs.Counterpart.Bare
import Descent.Proofs.Counterpart.Part
import Descent.Proofs.Derivation.Order
import Descent.Proofs.Run.Fuel
import Descent.Proofs.Run.Noted
import Descent.Proofs.Run.PassedOn

/-!
# Ordered choice is associative

Choices may be nested over some rules in any way that keeps their order (`Grammar.Spreads`). **Whatever the nesting is,
the choice comes to what the flat one comes to**: the value of the first rule that succeeds, or the same failure with
the same matchers in the same order, and the same record (`Grammar.choice_associative`).

The nested choices do more on the way. Each stamps the failure of its last branch with what its own branches show, and
offers it to the record once more, even if a later branch of the choice around it succeeds then. The record is none the
wiser: where a branch has failed, all that it expects at its entry has been noted, and so has been what the choice
expects (`Context.notes_joined`). And what an inner choice has added to the failure, the outer one adds in any case, and
in its own order; until then the two failures are only the same to the choice around them (`Failure.SameTo`). So
branches are tried in step (`Grammar.Spreads.triedInStep`), by induction on the nesting, whose depth is what the nested
choice needs more of in fuel.

This is shown of grammars whose derivations meet no cycle. But choices have to do only with rules that can be reached
from them, so it is true of choices over straight rules in any grammar (`Grammar.comesTo_straightPart_iff`).
-/

namespace Descent

variable {κ : Type}

/-! ## 1. Nested choices -/

/-- What branches come to when choices among them are spread out in their places, in order. -/
inductive Grammar.Spreads (g : Grammar κ) : List RuleId → List RuleId → Prop
  | nil : Spreads g [] []
  | rule {p : RuleId} {branches ps : List RuleId} (h : Spreads g branches ps) : Spreads g (p :: branches) (p :: ps)
  | choice {c : RuleId} {label : Option String} {inner branches ps ps' : List RuleId}
    (hr : g.rule? c = some ⟨label, .either inner⟩) (hne : inner ≠ []) (hinner : Spreads g inner ps)
    (h : Spreads g branches ps') : Spreads g (c :: branches) (ps ++ ps')

variable {g : Grammar κ} {branches ps inner : List RuleId} {id c : RuleId} {label : Option String} {v w : View}

/-- Branches in a row are tried in a row. -/
theorem runEither_append (run : Runner κ) (v : View) (qs : List RuleId) (f : Failure κ) :
    runEither run v (ps ++ qs) (.failed f) = runEither run v ps (.failed f) >>= fun
      | .parsed x w => pure (.parsed x w)
      | .failed f => runEither run v qs (.failed f) := by
  induction ps generalizing f with
  | nil => rfl
  | cons p ps ih =>
    rw [List.cons_append, runEither, runEither, bind_assoc]
    refine bind_congr fun r => ?_
    cases r with
    | parsed x w => rfl
    | failed f => exact ih f

/-- What every run of a rule leaves true, trying branches leaves true. -/
theorem runEither_leaves {run : Runner κ} {I : ParseState κ → Prop} {s : ParseState κ}
    (hrun : ∀ q s, I s → Leaves (run q v) s I) (last : Result κ) (hs : I s) :
    Leaves (runEither run v branches last) s I := by
  induction branches generalizing s last with
  | nil => exact hs
  | cons branch branches ih =>
    rw [Leaves, runEither, ensures_bind]
    refine (hrun branch s hs).imp_ok fun r t ht => ?_
    cases r with
    | parsed x w => exact ht
    | failed f => exact ih _ ht

variable [DecidableEq κ] {S : RuleId → Expectation κ} {e e' : Expectation κ} {ms : List (Matcher κ)} {m : Matcher κ}

/-! ## 2. What choices show -/

namespace Expectation

variable {a : Expectation κ}

theorem union_assoc (e e' a : Expectation κ) : (e.union e').union a = e.union (e'.union a) := by
  simp only [union, orderedUnion_assoc, Bool.or_assoc]

/-- What is added to nothing may be added to something else at once. -/
theorem union_empty_union (e a : Expectation κ) : e.union (empty.union a) = e.union a := by
  have once (l m : List (Matcher κ)) : orderedUnion l (orderedUnion [] m) = orderedUnion l m :=
    orderedUnion_orderedUnion_of_subset (List.nil_subset l) m
  simp only [union, empty, once, Bool.false_or]

end Expectation

/-- What a row of rules shows, added to what is there. -/
def Expectation.joined (S : RuleId → Expectation κ) (qs : List RuleId) (e : Expectation κ) : Expectation κ :=
  qs.foldl (fun e q => e.union (S q)) e

namespace Expectation

variable {q : RuleId} {qs : List RuleId}

theorem joined_append (qs qs' : List RuleId) (e : Expectation κ) :
    joined S (qs ++ qs') e = joined S qs' (joined S qs e) := List.foldl_append

theorem union_joined (e e' : Expectation κ) (qs : List RuleId) :
    e.union (joined S qs e') = joined S qs (e.union e') := by
  induction qs generalizing e' with
  | nil => rfl
  | cons q qs ih => exact (ih _).trans (congrArg (joined S qs) (union_assoc e e' (S q)).symm)

/-- What rules show by themselves may be added at once, or one after the other. -/
theorem union_joined_empty (hqs : qs ≠ []) (e : Expectation κ) : e.union (joined S qs .empty) = joined S qs e := by
  cases qs with
  | nil => exact absurd rfl hqs
  | cons q qs =>
    show e.union (joined S qs (empty.union (S q))) = joined S qs (e.union (S q))
    rw [union_joined, union_empty_union]

theorem mem_prefixes_joined :
    m ∈ (joined S qs e).prefixes ↔ m ∈ e.prefixes ∨ ∃ q ∈ qs, m ∈ (S q).prefixes := by
  induction qs generalizing e with
  | nil => simp [joined]
  | cons q qs ih =>
    show m ∈ (joined S qs (e.union (S q))).prefixes ↔ _
    rw [ih]
    simp [union, or_assoc]

theorem mem_allowed_joined :
    m ∈ (joined S qs e).allowed ms ↔ m ∈ e.allowed ms ∨ ∃ q ∈ qs, m ∈ (S q).allowed ms := by
  induction qs generalizing e with
  | nil => simp [joined]
  | cons q qs ih =>
    show m ∈ (joined S qs (e.union (S q))).allowed ms ↔ _
    rw [ih, mem_allowed_union]
    simp [or_assoc]

theorem le_joined_of_le (h : e' ≤ e) : e' ≤ joined S qs e := by
  induction qs generalizing e with
  | nil => exact h
  | cons q qs ih => exact ih (h.trans (le_union_left e (S q)))

theorem le_joined (hq : q ∈ qs) : S q ≤ joined S qs e := by
  obtain ⟨before, after, rfl⟩ := List.append_of_mem hq
  rw [joined_append]
  show S q ≤ joined S after ((joined S before e).union (S q))
  exact le_joined_of_le (le_union_right _ (S q))

end Expectation

/-- A choice shows what its branches show, one after another. -/
theorem Grammar.Shows.either (h : g.Shows id e) (hr : g.rule? id = some ⟨label, .either branches⟩)
    (hS : ∀ q < g.rules.size, g.Shows q (S q)) : e = .joined S branches .empty :=
  h.eq_shown hr hS

/-- **Nested choices show what the flat one shows.** -/
theorem Grammar.Spreads.joined_eq (h : g.Spreads branches ps) (hS : ∀ q < g.rules.size, g.Shows q (S q))
    (e : Expectation κ) : Expectation.joined S branches e = .joined S ps e := by
  induction h generalizing e with
  | nil => rfl
  | rule _ ih => exact ih _
  | @choice c label inner branches ps ps' hr hne _ _ ih ih' =>
    have shown : S c = .joined S inner .empty := (hS c (lt_size_of_rule? hr)).either hr hS
    show Expectation.joined S branches (e.union (S c)) = _
    rw [ih', Expectation.joined_append, shown, Expectation.union_joined_empty hne, ih]

/-! ## 3. Trying branches in step -/

variable {E E₁ : Expectation κ} {f f' f₂ : Failure κ} {P : Option RuleId}

/-- Failures that are the same for a rule with an expectation, under a policy with some matchers: at its entry, it would
stamp them alike. -/
structure Failure.SameTo (E : Expectation κ) (ms : List (Matcher κ)) (v : View) (f f' : Failure κ) : Prop where
  rest_eq : f'.rest = f.rest
  deeper : f.offset ≠ v.start → f' = f
  entry : f.offset = v.start → f'.stampedBy E (E.allowed ms) = f.stampedBy E (E.allowed ms)

theorem Failure.SameTo.refl (E : Expectation κ) (ms : List (Matcher κ)) (v : View) (f : Failure κ) :
    f.SameTo E ms v f :=
  ⟨rfl, fun _ => rfl, fun _ => rfl⟩

/-- What a rule inside adds at the entry, the rule outside would add in any case. -/
theorem Failure.SameTo.stamped (hstamps : g.Stamps P id v f f₂) (he : g.Shows id E₁) (hms : g.Allows P ms)
    (h : f.SameTo E₁ ms v f') (hle : E₁ ≤ E) : f₂.SameTo E ms v f' := by
  cases hstamps with
  | deeper ho =>
    cases h.deeper ho
    exact .refl E ms v f
  | @entry e' ms' ho he' hms' =>
    cases he.unique he'
    refine ⟨h.rest_eq, fun ho' => absurd ho ho', fun _ => ?_⟩
    rw [Grammar.Allows.allowed_eq hms' fun _ => hms, ← h.entry ho]
    simp only [Failure.stampedBy, orderedUnion_orderedUnion_of_subset hle.prefixes,
      orderedUnion_orderedUnion_of_subset (Expectation.allowed_subset hle)]

/-- How trying branches in two ways ends: with the same value, or with failures that are the same for the rule around
them, when all that the branches expect has been noted. -/
inductive Result.TriedAlike (S : RuleId → Expectation κ) (E : Expectation κ) (ms : List (Matcher κ)) (v : View)
    (branches : List RuleId) (c : Context κ) : Result κ → Result κ → Prop
  | parsed (x : Value κ) (w : View) : TriedAlike S E ms v branches c (.parsed x w) (.parsed x w)
  | failed {f f' : Failure κ} (hsame : f.SameTo E ms v f') (hnotes : c.Notes f)
    (hentry : ∀ q ∈ branches, c.Notes ((S q).failureAt ms v)) :
    TriedAlike S E ms v branches c (.failed f) (.failed f')

/-- What a choice expects has been noted if it has been for each of its branches. -/
theorem Context.notes_joined {c : Context κ} (hne : branches ≠ [])
    (h : ∀ q ∈ branches, c.Notes ((S q).failureAt ms v)) :
    c.Notes ((Expectation.joined S branches .empty).failureAt ms v) := by
  obtain ⟨p, hp⟩ := List.exists_mem_of_ne_nil _ hne
  refine notes_of_named ⟨(S p).failureAt ms v, rfl, h p hp⟩ (fun m hm => ?_) fun m hm => ?_
  · rcases Expectation.mem_prefixes_joined.mp hm with hm | ⟨q, hq, hm⟩
    · cases hm
    · exact ⟨(S q).failureAt ms v, rfl, h q hq, hm⟩
  · rcases Expectation.mem_allowed_joined.mp hm with hm | ⟨q, hq, hm⟩
    · simp [Expectation.mem_allowed, Expectation.empty] at hm
    · exact ⟨(S q).failureAt ms v, rfl, h q hq, hm⟩

/-- A choice that has failed may report this to no effect on the record. -/
theorem Grammar.Stamps.notes {c : Context κ} (hstamps : g.Stamps P id v f f₂) (he : g.Shows id E₁)
    (hms : g.Allows P ms) (hf : c.Notes f) (hentry : c.Notes (E₁.failureAt ms v)) : c.Notes f₂ := by
  cases hstamps with
  | deeper ho => exact hf
  | @entry e' ms' ho he' hms' =>
    cases he.unique he'
    rw [Grammar.Allows.allowed_eq hms' fun _ => hms]
    refine Context.notes_of_named ⟨f, rfl, hf⟩ (fun m hm => ?_) fun m hm => ?_
    · rcases mem_orderedUnion.mp hm with hm | hm
      · exact ⟨E₁.failureAt ms v, ho.symm, hentry, hm⟩
      · exact ⟨f, rfl, hf, hm⟩
    · rcases mem_orderedUnion.mp hm with hm | hm
      · exact ⟨E₁.failureAt ms v, ho.symm, hentry, hm⟩
      · exact ⟨f, rfl, hf, hm⟩

theorem Result.TriedAlike.cons {c : Context κ} {r r' : Result κ} {q : RuleId} (h : r.TriedAlike S E ms v branches c r')
    (hq : c.Notes ((S q).failureAt ms v)) : r.TriedAlike S E ms v (q :: branches) c r' := by
  cases h with
  | parsed x w => exact .parsed x w
  | failed hsame hnotes hentry => exact .failed hsame hnotes (List.forall_mem_cons.mpr ⟨hq, hentry⟩)

variable [CustomMatcher κ] {s s' : ParseState κ} {ps' : List RuleId} {p : RuleId} {lag lag' : Nat} (hg : g.IsStraight)

/-- Branches are tried in step: the first need more fuel than the others, by `lag` at most. The failure with which the
choices begin is made up for by any branch. -/
def Grammar.IsStraight.TriedInStep (S : RuleId → Expectation κ) (P : Option RuleId) (ms : List (Matcher κ)) (v : View)
    (lag : Nat) (branches ps : List RuleId) : Prop :=
  ∀ (fuel fuel' : Nat) (E : Expectation κ) (f f' : Failure κ) (s s' : ParseState κ),
    (∀ q ∈ branches, q < g.rules.size) → (∀ q ∈ branches, S q ≤ E) →
    (Counterpart.self hg.library hg.closed).States s s' → s.context.whitespace = P →
    (branches = [] → f.SameTo E ms v f' ∧ s.context.Notes f) →
    Meets (fuel < fuel' + lag) (fuel' < fuel) (runEither (g.parse fuel) v branches (.failed f)) s
      (runEither (g.parse fuel') v ps (.failed f')) s'
      (fun r t r' t' => (Counterpart.self hg.library hg.closed).States t t' ∧ t.context.whitespace = P ∧
        r.TriedAlike S E ms v branches t.context r')
      (Counterpart.self hg.library hg.closed).States

namespace Grammar.IsStraight.TriedInStep

variable {hg} (hS : ∀ q < g.rules.size, g.Shows q (S q)) (hms : g.Allows P ms)

include hS hms

/-- One rule that is a branch of both. -/
theorem rule (h : hg.TriedInStep S P ms v lag branches ps) : hg.TriedInStep S P ms v lag (p :: branches) (p :: ps) := by
  intro fuel fuel' E f f' s s' hsize hle hs hP _
  obtain ⟨hp, hsize⟩ := List.forall_mem_cons.mp hsize
  obtain ⟨-, hle⟩ := List.forall_mem_cons.mp hle
  have hpp : (Counterpart.self hg.library hg.closed).rules p p := ⟨rfl, hp⟩
  have called := (Counterpart.parse_meets hg hg fuel fuel' v hpp hs).and_left (ensures_self (g.parse fuel p v) s)
  refine Meets.bind (called.imp ?_ Nat.lt_of_not_le fun _ _ _ _ h => h) ?_
  · intro hless
    simp only [Counterpart.self, Counterpart.ofMirrors] at hless
    omega
  rintro r t _ t' ⟨⟨rfl, ht⟩, hrun⟩
  have hP' : t.context.whitespace = P := ((g.parse_restored fuel p v s).ok hrun).whitespace.trans hP
  cases r with
  | parsed x w => exact .ok rfl rfl ⟨ht, hP', .parsed x w⟩
  | failed f₁ =>
    have noted : t.context.Notes f₁ := Grammar.parse_noted hg.library hrun
    have entry : t.context.Notes ((S p).failureAt ms v) :=
      Grammar.parse_entry_noted hg hs.sure hrun (hS p hp) fun _ => hP ▸ hms
    -- it stays noted while the other branches are tried
    have kept : Leaves (runEither (g.parse fuel) v branches (.failed f₁)) t
        fun t => t.context.Notes ((S p).failureAt ms v) :=
      runEither_leaves (fun q s hs => g.parse_notes fuel q v s hs) (.failed f₁) entry
    have rest := h fuel fuel' E f₁ f₁ t t' hsize hle ht hP' fun _ => ⟨.refl E ms v f₁, noted⟩
    exact (rest.and_left kept).imp id id fun r u r' u' h => ⟨h.1.1, h.1.2.1, h.1.2.2.cons h.2⟩

/-- A choice that is a branch, and its branches. What it reports has been noted by then, and what it adds, the choice
around it adds in any case. -/
theorem choice (hr : g.rule? c = some ⟨label, .either inner⟩) (hne : inner ≠ [])
    (hS' : S c = .joined S inner .empty) (hinner : hg.TriedInStep S P ms v lag inner ps)
    (h : hg.TriedInStep S P ms v lag' branches ps') :
    hg.TriedInStep S P ms v (max (lag + 1) lag') (c :: branches) (ps ++ ps') := by
  intro fuel fuel' E f f' s s' hsize hle hs hP _
  obtain ⟨hc, hsize⟩ := List.forall_mem_cons.mp hsize
  obtain ⟨hcle, hle⟩ := List.forall_mem_cons.mp hle
  cases fuel with
  | zero => exact .left rfl (by omega)
  | succ fuel =>
    have step : runEither (g.parse (fuel + 1)) v (c :: branches) (.failed f) =
        runEither (g.parse fuel) v inner (.failed ⟨v, [], []⟩) >>= fun r => g.report (g.parse fuel) c v r >>= fun
          | .parsed x w => pure (.parsed x w)
          | .failed f => runEither (g.parse (fuel + 1)) v branches (.failed f) := by
      rw [runEither, Grammar.parse_rule hr (by simp), Body.run]
      exact bind_assoc _ _ _
    have inside := hinner fuel fuel' (S c) ⟨v, [], []⟩ f' s s' (fun q hq => hg.closed c _ hr q hq)
      (fun q hq => hS' ▸ Expectation.le_joined hq) hs hP fun hnil => absurd hnil hne
    rw [step, runEither_append]
    refine Meets.bind (inside.imp (by omega) (by omega) fun _ _ _ _ h => h) ?_
    rintro r t r' t' ⟨ht, hP', htried⟩
    cases htried with
    | parsed x w => exact .ok rfl rfl ⟨ht, hP', .parsed x w⟩
    | @failed f₁ f₁' hsame hnotes hentries =>
      have entry : t.context.Notes ((S c).failureAt ms v) := hS' ▸ Context.notes_joined hne hentries
      obtain ⟨f₂, d, hreport, hstamps, hd⟩ := report_stamps hg hc ht.sure
        (fun _ _ _ => (Counterpart.policy_lt_size ht.context.whitespace).1) v f₁ (g.parse fuel)
      rw [hP'] at hstamps
      have noted : t.context.Notes f₂ := hstamps.notes (hS c hc) hms hnotes entry
      rw [show t.context.record f₂ = t.context from noted] at hreport
      have kept : Leaves (runEither (g.parse (fuel + 1)) v branches (.failed f₂)) ⟨d, t.context⟩
          fun t => t.context.Notes ((S c).failureAt ms v) :=
        runEither_leaves (fun q s hs => g.parse_notes (fuel + 1) q v s hs) (.failed f₂) entry
      have rest := h (fuel + 1) fuel' E f₂ f₁' ⟨d, t.context⟩ t' hsize hle ⟨hd, ht.sure', ht.context⟩ hP' fun _ =>
        ⟨.stamped hstamps (hS c hc) hms hsame hcle, noted⟩
      refine Meets.congr_left (bind_apply_of_ok hreport) ((rest.and_left kept).imp (by omega) id ?_)
      exact fun r u r' u' h => ⟨h.1.1, h.1.2.1, h.1.2.2.cons h.2⟩

end Grammar.IsStraight.TriedInStep

/-- **Nested branches are tried in step with the flat ones.** -/
theorem Grammar.Spreads.triedInStep (h : g.Spreads branches ps) (hS : ∀ q < g.rules.size, g.Shows q (S q))
    (hms : g.Allows P ms) (v : View) : ∃ lag, hg.TriedInStep S P ms v lag branches ps := by
  induction h with
  | nil =>
    refine ⟨0, fun fuel fuel' E f f' s s' _ _ hs hP hlast => .ok rfl rfl ⟨hs, hP, ?_⟩⟩
    exact .failed (hlast rfl).1 (hlast rfl).2 nofun
  | rule _ ih =>
    obtain ⟨lag, h⟩ := ih
    exact ⟨lag, h.rule hS hms⟩
  | choice hr hne _ _ ih ih' =>
    obtain ⟨lag, hinner⟩ := ih
    obtain ⟨lag', h⟩ := ih'
    exact ⟨max (lag + 1) lag', .choice hS hms hr hne ((hS _ (lt_size_of_rule? hr)).either hr hS) hinner h⟩

/-! ## 4. Choices -/

omit [CustomMatcher κ] in
/-- Failures that are the same to two rules which show the same are reported alike. -/
theorem Failure.SameTo.reported {id' : RuleId} {f₂' : Failure κ} (h : f.SameTo E ms v f') (hms : g.Allows P ms)
    (he : g.Shows id E) (he' : g.Shows id' E) (hstamps : g.Stamps P id v f f₂) (hstamps' : g.Stamps P id' v f' f₂') :
    f₂' = f₂ := by
  have ho : f'.offset = f.offset := congrArg View.start h.rest_eq
  cases hstamps with
  | deeper ho₁ =>
    cases hstamps' with
    | deeper _ => exact h.deeper ho₁
    | entry ho₂ => exact absurd (ho.symm.trans ho₂) ho₁
  | entry ho₁ he₁ hms₁ =>
    cases hstamps' with
    | deeper ho₂ => exact absurd (ho.trans ho₁) ho₂
    | entry _ he₂ hms₂ =>
      cases he.unique he₁
      cases he'.unique he₂
      rw [Grammar.Allows.allowed_eq hms₁ fun _ => hms, Grammar.Allows.allowed_eq hms₂ fun _ => hms]
      exact h.entry ho₁

/-- A choice tries its branches, and reports what that comes to. -/
theorem Grammar.parse_either (hr : g.rule? id = some ⟨label, .either branches⟩) (fuel : Nat) :
    g.parse (fuel + 1) id v =
      runEither (g.parse fuel) v branches (.failed ⟨v, [], []⟩) >>= g.report (g.parse fuel) id v := by
  rw [Grammar.parse_rule hr (by simp), Body.run]

/-- A nested choice and the flat one run in step. -/
theorem Grammar.Spreads.parse_meets (h : g.Spreads branches ps) {nested flat : RuleId} {label' : Option String}
    (hnested : g.rule? nested = some ⟨label, .either branches⟩) (hflat : g.rule? flat = some ⟨label', .either ps⟩)
    (hne : branches ≠ []) (hs : (Counterpart.self hg.library hg.closed).States s s') :
    ∃ lag, ∀ fuel fuel', Meets (fuel < fuel' + lag) (fuel' < fuel) (g.parse (fuel + 1) nested v) s
      (g.parse (fuel' + 1) flat v) s'
      (fun r t r' t' => r = r' ∧ (Counterpart.self hg.library hg.closed).States t t')
      (Counterpart.self hg.library hg.closed).States := by
  have hpolicy := Counterpart.policy_lt_size hs.context.whitespace
  obtain ⟨S, hS⟩ := exists_all_shown hg
  obtain ⟨ms, hms⟩ := exists_allows hg hpolicy.1
  obtain ⟨lag, htried⟩ := h.triedInStep hg hS hms v
  have shown : g.Shows nested (S nested) := hS _ (lt_size_of_rule? hnested)
  have shown' : g.Shows flat (S nested) := by
    have he := hS _ (lt_size_of_rule? hflat)
    rwa [he.either hflat hS, ← h.joined_eq hS, ← shown.either hnested hS] at he
  refine ⟨lag, fun fuel fuel' => ?_⟩
  rw [parse_either hnested, parse_either hflat]
  refine Meets.bind (htried fuel fuel' (S nested) _ _ s s' (fun q hq => hg.closed nested _ hnested q hq)
    (fun q hq => shown.either hnested hS ▸ Expectation.le_joined hq) hs rfl fun hnil => absurd hnil hne) ?_
  rintro r t r' t' ⟨ht, hP, htried⟩
  cases htried with
  | parsed x w => exact .ok rfl rfl ⟨rfl, ht⟩
  | @failed f f' hsame _ _ =>
    have hpolicy := Counterpart.policy_lt_size ht.context.whitespace
    obtain ⟨f₂, d, hreport, hstamps, hd⟩ := report_stamps hg (lt_size_of_rule? hnested) ht.sure
      (fun _ _ _ => hpolicy.1) v f (g.parse fuel)
    obtain ⟨f₂', d', hreport', hstamps', hd'⟩ := report_stamps hg (lt_size_of_rule? hflat) ht.sure'
      (fun _ _ _ => hpolicy.2) v f' (g.parse fuel')
    rw [← Counterpart.eq_of_policies_self hg.library hg.closed ht.context.whitespace] at hstamps'
    rw [hP] at hstamps hstamps'
    obtain rfl := hsame.reported hms shown shown' hstamps hstamps'
    exact .ok hreport hreport' ⟨rfl, hd, hd', ht.context.record _⟩

/-- The end of a run that comes to a result or a fault. -/
def Parse.ended (t : ParseState κ) : Except Fault (Result κ) → EStateM.Result Stop (ParseState κ) (Result κ)
  | .ok r => .ok r t
  | .error e => .error (.fault e) t

theorem Grammar.comesTo_iff {out : Except Fault (Result κ)} {furthest : Option (Failure κ)} :
    g.ComesTo id v s out furthest ↔
      ∃ fuel t, t.context.furthest = furthest ∧ g.parse fuel id v s = Parse.ended t out := by
  cases out <;> exact Iff.rfl

/-- Of two runs that meet, the second comes to what the first comes to, unless it has too little fuel. -/
theorem Meets.comesTo {L R : Prop} {g' : Grammar κ} {p q : RuleId} {fuel fuel' : Nat} {t : ParseState κ}
    {out : Except Fault (Result κ)} {Q : Result κ → ParseState κ → Result κ → ParseState κ → Prop}
    {E : ParseState κ → ParseState κ → Prop} (h : Meets L R (g.parse fuel p v) s (g'.parse fuel' q v) s' Q E)
    (hQ : ∀ r t r' t', Q r t r' t' → r = r' ∧ t.context.furthest = t'.context.furthest)
    (hE : ∀ t t', E t t' → t.context.furthest = t'.context.furthest) (hR : ¬ R)
    (hout : g.parse fuel p v s = Parse.ended t out) : g'.ComesTo q v s' out t.context.furthest := by
  rw [Grammar.comesTo_iff]
  cases h with
  | @ok _ _ _ t' hx hy h =>
    obtain ⟨rfl, hfurthest⟩ := hQ _ _ _ _ h
    cases out with
    | ok r =>
      cases hx.symm.trans hout
      exact ⟨fuel', t', hfurthest.symm, hy⟩
    | error e => cases hx.symm.trans hout
  | @error _ _ t' hx hy h =>
    cases out with
    | ok r => cases hx.symm.trans hout
    | error e =>
      cases hx.symm.trans hout
      exact ⟨fuel', t', (hE _ _ h).symm, hy⟩
  | left hx => cases out <;> cases hx.symm.trans hout
  | right _ h => exact absurd h hR

/-- The first of some branches that succeeds on a window, with its value and what it leaves; those before it have
failed, each after the others. -/
inductive Grammar.Picks (g : Grammar κ) (v : View) : List RuleId → ParseState κ → Value κ → View → Prop
  | here {p : RuleId} {ps : List RuleId} {s : ParseState κ} {x : Value κ} {w : View}
    (h : ∃ fuel t, g.parse fuel p v s = .ok (.parsed x w) t) : Picks g v (p :: ps) s x w
  | next {p : RuleId} {ps : List RuleId} {s t : ParseState κ} {f : Failure κ} {x : Value κ} {w : View}
    (hfail : ∃ fuel, g.parse fuel p v s = .ok (.failed f) t) (h : Picks g v ps t x w) : Picks g v (p :: ps) s x w

/-- More fuel does not change what trying branches comes to. -/
theorem Grammar.runEither_extendedBy (g : Grammar κ) {fuel fuel' : Nat} (h : fuel ≤ fuel') (last : Result κ) :
    Parse.ExtendedBy (runEither (g.parse fuel) v ps last) (runEither (g.parse fuel') v ps last) := by
  rw [runEither_eq_exec (g := g), runEither_eq_exec (g := g)]
  exact Plan.exec_extendedBy (fun id v => g.parse_extendedBy h id v) _

/-- Trying branches succeeds with the first one that does. -/
theorem Grammar.picks_iff {x : Value κ} {f : Failure κ} :
    g.Picks v ps s x w ↔ ∃ fuel t, runEither (g.parse fuel) v ps (.failed f) s = .ok (.parsed x w) t := by
  constructor
  · intro h
    induction h generalizing f with
    | here h =>
      obtain ⟨fuel, t, h⟩ := h
      exact ⟨fuel, t, bind_apply_of_ok h⟩
    | @next p ps s t f₁ x w hfail _ ih =>
      obtain ⟨fuel, hfail⟩ := hfail
      obtain ⟨fuel', t', h⟩ := ih (f := f₁)
      refine ⟨max fuel fuel', t', ?_⟩
      have failed := (g.parse_extendedBy (Nat.le_max_left fuel fuel') p v).ok hfail
      exact (bind_apply_of_ok failed).trans ((g.runEither_extendedBy (Nat.le_max_right fuel fuel') _).ok h)
  · rintro ⟨fuel, t, h⟩
    induction ps generalizing s f with
    | nil => cases h
    | cons p ps ih =>
      obtain ⟨r, u, hp, h⟩ := bind_eq_ok.mp h
      cases r with
      | parsed y u' =>
        cases h
        exact .here ⟨fuel, t, hp⟩
      | failed f₁ => exact .next ⟨fuel, hp⟩ (ih h)

/-! ## 5. Choices over straight rules -/

section Nested

variable {nested flat : RuleId} {label' : Option String} {out : Except Fault (Result κ)}
  {furthest : Option (Failure κ)}

omit [CustomMatcher κ] in
/-- The nested choice and the flat one show the same. -/
theorem Grammar.Spreads.shows_eq (h : g.Spreads branches ps) (hg : g.IsStraight)
    (hnested : g.rule? nested = some ⟨label, .either branches⟩) (hflat : g.rule? flat = some ⟨label', .either ps⟩)
    (he : g.Shows nested e) (he' : g.Shows flat e') : e = e' := by
  obtain ⟨S, hS⟩ := exists_all_shown hg
  rw [he.either hnested hS, he'.either hflat hS, h.joined_eq hS]

/-- Where no derivation meets a cycle, they come to the same. -/
theorem Grammar.Spreads.comesTo_nested_iff (h : g.Spreads branches ps) (hg : g.IsStraight)
    (hnested : g.rule? nested = some ⟨label, .either branches⟩) (hflat : g.rule? flat = some ⟨label', .either ps⟩)
    (hne : branches ≠ []) (hs : (Counterpart.self hg.library hg.closed).States s s') :
    g.ComesTo nested v s out furthest ↔ g.ComesTo flat v s' out furthest := by
  obtain ⟨lag, meets⟩ := h.parse_meets (v := v) hg hnested hflat hne hs
  rw [comesTo_iff, comesTo_iff]
  constructor
  · rintro ⟨fuel, t, rfl, hout⟩
    cases fuel with
    | zero => cases out <;> cases hout
    | succ fuel =>
      refine comesTo_iff.mp ((meets fuel fuel).comesTo (fun r t r' t' h => ⟨h.1, h.2.context.furthest⟩)
        (fun t t' h => h.context.furthest) (Nat.lt_irrefl fuel) hout)
  · -- enough fuel for the nesting
    rintro ⟨fuel', t', rfl, hout⟩
    cases fuel' with
    | zero => cases out <;> cases hout
    | succ fuel' =>
      refine comesTo_iff.mp ((meets (fuel' + lag) fuel').symm.comesTo
        (fun r t r' t' h => ⟨h.1.symm, h.2.context.furthest.symm⟩) (fun t t' h => h.context.furthest.symm)
        (Nat.lt_irrefl _) hout)

/-- Straight rules come in the straight part to what they come to in the grammar. -/
theorem Grammar.comesTo_straightPart_iff (hp : g.IsStraightFrom p) (hs : g.InPart s s') :
    g.ComesTo p v s out furthest ↔ g.straightPart.ComesTo p v s' out furthest := by
  rw [comesTo_iff, comesTo_iff]
  constructor
  · rintro ⟨fuel, t, rfl, hout⟩
    exact comesTo_iff.mp ((parse_straightPart hp fuel v hs).comesTo (fun r t r' t' h => ⟨h.1, h.2.context.furthest⟩)
      (fun t t' h => h.context.furthest) id hout)
  · rintro ⟨fuel, t, rfl, hout⟩
    exact comesTo_iff.mp ((parse_straightPart hp fuel v hs).symm.comesTo
      (fun r t r' t' h => ⟨h.1.symm, h.2.context.furthest.symm⟩) (fun t t' h => h.context.furthest.symm) id hout)

omit [DecidableEq κ] [CustomMatcher κ] in
/-- If rules are straight, then so are choices that are nested over them, and they are nested so in the straight part.
-/
theorem Grammar.Spreads.straightPart (h : g.Spreads branches ps) (hps : ∀ p ∈ ps, g.IsStraightFrom p) :
    (∀ p ∈ branches, g.IsStraightFrom p) ∧ g.straightPart.Spreads branches ps := by
  induction h with
  | nil => exact ⟨hps, .nil⟩
  | rule _ ih =>
    obtain ⟨hp, hps⟩ := List.forall_mem_cons.mp hps
    exact ⟨List.forall_mem_cons.mpr ⟨hp, (ih hps).1⟩, .rule (ih hps).2⟩
  | choice hr hne _ _ ih ih' =>
    obtain ⟨hps, hps'⟩ := List.forall_mem_append.mp hps
    have hc := IsStraightFrom.of_refs hr trivial (ih hps).1
    exact ⟨List.forall_mem_cons.mpr ⟨hc, (ih' hps').1⟩,
      .choice ((rule?_straightPart hc).trans hr) hne (ih hps).2 (ih' hps').2⟩

end Nested

/-- **Ordered choice is associative, diagnostics included.** However choices are nested over some rules in their order,
the nested choice and the flat one show the same and are answered the same; and in any context they come to the same, be
it a value, a failure or a fault, with the same record. They succeed as the first of the rules does that succeeds. No
derivation from the rules or from the policy is to meet a cycle; of the rest of the grammar nothing is asked. -/
theorem Grammar.choice_associative {nested flat : RuleId} {label label' : Option String}
    (hnested : g.rule? nested = some ⟨label, .either branches⟩) (hflat : g.rule? flat = some ⟨label', .either ps⟩)
    (hspreads : g.Spreads branches ps) (hne : branches ≠ []) (hps : ∀ p ∈ ps, g.IsStraightFrom p) (v : View)
    (c : Context κ) (hc : ∀ p, c.whitespace = some p → g.IsStraightFrom p) (d d' : Derivation κ)
    (hd : d.SureOfStraight g) (hd' : d'.SureOfStraight g) :
    (∃ e d₁ d₁', g.expectation nested d = .ok e d₁ ∧ g.expectation flat d' = .ok e d₁') ∧
    (∀ out furthest, g.ComesTo nested v ⟨d, c⟩ out furthest ↔ g.ComesTo flat v ⟨d', c⟩ out furthest) ∧
    ∀ x w, (∃ furthest, g.ComesTo nested v ⟨d, c⟩ (.ok (.parsed x w)) furthest) ↔ g.Picks v ps ⟨d', c⟩ x w := by
  obtain ⟨hbranches, hspreads'⟩ := hspreads.straightPart hps
  have hstraight : g.IsStraightFrom nested := .of_refs hnested trivial hbranches
  have hstraight' : g.IsStraightFrom flat := .of_refs hflat trivial hps
  have nested' := (rule?_straightPart hstraight).trans hnested
  have flat' := (rule?_straightPart hstraight').trans hflat
  have hg := g.isStraight_straightPart
  have fresh := Derivation.sure_fresh g.straightPart
  have policies : g.sameStraight.policies c.whitespace c.whitespace := by
    cases hw : c.whitespace with
    | none => exact .none
    | some p => exact .some ⟨rfl, hc p hw⟩
  have part {d : Derivation κ} (hd : d.SureOfStraight g) : g.InPart ⟨d, c⟩ ⟨.fresh, c⟩ :=
    ⟨hd, fresh, policies, rfl, rfl⟩
  have states : (Counterpart.self hg.library hg.closed).States ⟨.fresh, c⟩ ⟨.fresh, c⟩ :=
    ⟨fresh, fresh, Counterpart.policies_self hg.library hg.closed (Counterpart.policy_lt_size policies).2, rfl, rfl⟩
  have comesTo (out : Except Fault (Result κ)) (furthest : Option (Failure κ)) :
      g.ComesTo nested v ⟨d, c⟩ out furthest ↔ g.ComesTo flat v ⟨d', c⟩ out furthest := by
    rw [comesTo_straightPart_iff hstraight (part hd), comesTo_straightPart_iff hstraight' (part hd')]
    exact hspreads'.comesTo_nested_iff hg nested' flat' hne states
  refine ⟨?_, comesTo, fun x w => ?_⟩
  · obtain ⟨e, d₁, he, hshows, -⟩ := (hstraight.answers d hd).exists_ok
    obtain ⟨e', d₁', he', hshows', -⟩ := (hstraight'.answers d' hd').exists_ok
    obtain rfl : e = e' := hspreads'.shows_eq hg nested' flat' ((shows_straightPart hstraight).mpr hshows)
      ((shows_straightPart hstraight').mpr hshows')
    exact ⟨e, d₁, d₁', he, he'⟩
  · rw [picks_iff (f := ⟨v, [], []⟩)]
    constructor
    · rintro ⟨furthest, hnested⟩
      obtain ⟨fuel, t, -, h⟩ := (comesTo _ furthest).mp hnested
      cases fuel with
      | zero => cases h
      | succ fuel => exact ⟨fuel, t, (parse_parsed_iff hflat (by simp)).mp h⟩
    · rintro ⟨fuel, t, h⟩
      exact ⟨_, (comesTo _ _).mpr ⟨fuel + 1, t, rfl, (parse_parsed_iff hflat (by simp)).mpr h⟩⟩

/-- Two letters in a row, another letter after blanks, and a third one; as a choice within a choice, and as one. The
last rule is a choice of the first letter or itself. -/
def threeBranches : Grammar FixedMatcher where
  rules := #[⟨none, .token (.literal "a" true) none⟩, ⟨none, .token (.literal "b" true) none⟩, ⟨none, .sequence [0, 1]⟩,
    ⟨none, .skipping 1⟩, ⟨none, .token (.literal "c" true) none⟩, ⟨none, .token (.literal " " true) none⟩,
    ⟨none, .either [3, 4]⟩, ⟨none, .either [2, 6]⟩, ⟨none, .either [2, 3, 4]⟩, ⟨none, .either [0, 9]⟩]
  names := []
  customs := 0

/-- On another letter both fail where they begin, name the three letters in order and the blank, and leave the same on
record. The one is run first of all, and the other after a request for the rule that reads itself and a run of a branch.
-/
theorem choice_associative_threeBranches :
    let v := View.ofSource ⟨0, ['d']⟩
    let c : Context FixedMatcher := .fresh (some 5) 0
    threeBranches.rule? 7 = some ⟨none, .either [2, 6]⟩ ∧ threeBranches.rule? 8 = some ⟨none, .either [2, 3, 4]⟩ ∧
      threeBranches.Spreads [2, 6] [2, 3, 4] ∧ (∀ p ∈ [2, 3, 4], threeBranches.IsStraightFrom p) ∧
      (∀ p, c.whitespace = some p → threeBranches.IsStraightFrom p) ∧ threeBranches.Consults 9 9 ∧
      ∃ e d r s f best, threeBranches.expectation 9 .fresh = .ok e d ∧
        threeBranches.parse 2 3 v ⟨d, c⟩ = .ok r s ∧ s.derivation.known? 9 ≠ none ∧ s.derivation.known? 3 ≠ none ∧
        s.derivation.SureOfStraight threeBranches ∧
        f.expected = [.literal "a" true, .literal "b" true, .literal "c" true] ∧ f.whitespace = [.literal " " true] ∧
        threeBranches.ComesTo 7 v ⟨.fresh, c⟩ (.ok (.failed f)) (some best) ∧
        threeBranches.ComesTo 8 v ⟨s.derivation, c⟩ (.ok (.failed f)) (some best) := by
  intro v c
  have straight : ∀ p ∈ List.range 9, threeBranches.IsStraightFrom p := .of_rank (fun p => p) (by decide)
  have hspreads : threeBranches.Spreads [2, 6] [2, 3, 4] := .rule (.choice rfl (by decide) (.rule (.rule .nil)) .nil)
  have hps : ∀ p ∈ [2, 3, 4], threeBranches.IsStraightFrom p := fun p hp => straight p (by revert p; decide)
  have hc : ∀ p, c.whitespace = some p → threeBranches.IsStraightFrom p := by
    intro p hp
    cases hp
    exact straight 5 (by decide)
  have hnested : threeBranches.rule? 7 = some ⟨none, .either [2, 6]⟩ := rfl
  have hflat : threeBranches.rule? 8 = some ⟨none, .either [2, 3, 4]⟩ := rfl
  refine ⟨hnested, hflat, hspreads, hps, hc, ⟨_, rfl, by decide⟩, ?_⟩
  have fresh := Derivation.sureOfStraight_fresh threeBranches
  obtain ⟨e, d, he, hend⟩ := Ensures.exists_ok (x := threeBranches.expectation 9) (s := .fresh)
    (Q := fun _ d => Ensures (threeBranches.parse 2 3 v) ⟨d, c⟩
      (fun _ s => s.derivation.known? 9 ≠ none ∧ s.derivation.known? 3 ≠ none) fun _ _ => False)
    (by decide +kernel)
  obtain ⟨r, s, hrun, hcircle, hbranch⟩ := hend.exists_ok
  have hd : d.SureOfStraight threeBranches := ((threeBranches.expectation_ensures_straight 9 fresh).ok he).2
  have hs : s.derivation.SureOfStraight threeBranches := (threeBranches.parse_sureOfStraight 2 3 v ⟨d, c⟩ hd).ok hrun
  obtain ⟨_, t, hrun', hrecord, f, rfl, hexpected, hwhitespace⟩ := Ensures.exists_ok (x := threeBranches.parse 4 7 v)
    (s := ⟨.fresh, c⟩)
    (Q := fun r t => t.context.furthest.isSome = true ∧ ∃ f, r = .failed f ∧
      f.expected = [.literal "a" true, .literal "b" true, .literal "c" true] ∧ f.whitespace = [.literal " " true])
    (by decide +kernel)
  obtain ⟨best, hbest⟩ := Option.isSome_iff_exists.mp hrecord
  have nested : threeBranches.ComesTo 7 v ⟨.fresh, c⟩ (.ok (.failed f)) (some best) := ⟨4, t, hbest, hrun'⟩
  have alike := Grammar.choice_associative hnested hflat hspreads (by decide) hps v c hc .fresh s.derivation fresh hs
  exact ⟨e, d, r, s, f, best, he, hrun, hcircle, hbranch, hs, hexpected, hwhitespace, nested, (alike.2.1 _ _).mp nested⟩

end Descent
