import Descent.Matcher.Fixed
import Descent.Proofs.Counterpart.Built
import Descent.Proofs.Insulated
import Descent.Proofs.Run.Noted

/-!
# Policies may be pushed inwards

A rule that sets a policy runs the rule inside under it, and reports the failure that comes out once more, to no effect
(`Grammar.parse_within`). So it makes no difference whether a policy is set around a combinator or around each of its
operands, as long as the combinator has nothing to do with policies itself: **a policy around a plain rule may be pushed
inwards** (`Grammar.policy_pushed_inwards`).

What has to agree is how ambient whitespace is resolved. Around the combinator it is resolved once, against the policy
that is active while the combinator reports a failure, after the operands have been joined. Pushed inwards it is
resolved for each operand by itself, when the policy that was active before is active again. Joining and resolving
commute but for the order in which whitespace is named (`Expectation.ResolvesTo.union`). Nothing else differs: values,
what is left, where failures lie and which matchers they name in which order.

The runs are compared in a grammar whose derivations meet no cycle. In any other grammar the rules are to be straight,
and what they come to is read off its straight part (`Body.IsPlain.parse_straightPart`).
-/

namespace Descent

variable {κ : Type}

/-! ## 1. Plain bodies -/

/-- A body that has nothing to do with policies: it runs others as things stand, if it runs any. -/
def Body.IsPlain : Body κ → Prop
  | .token _ _ | .capture _ | .oneOf _ | .sequence _ | .either _ | .optional _ _ | .repeated _ _ _ | .map _ _ => True
  | .skipping _ | .skippingAfter _ | .within _ _ | .placeholder _ | .handWritten _ _ => False

theorem Body.IsPlain.ne_placeholder {b : Body κ} (h : b.IsPlain) (target : Option RuleId) :
    b ≠ .placeholder target := by
  intro hb
  subst hb
  exact h

theorem Body.IsPlain.of_alike {ρ : RuleId → RuleId → Prop} {U : Option RuleId → Option RuleId → Prop} {b b' : Body κ}
    (hplain : b.IsPlain) (h : b.Alike ρ U b') : b'.IsPlain := by
  cases h <;> exact hplain

section Plain

variable {ρ : RuleId → RuleId → Prop} {U : Option RuleId → Option RuleId → Prop}
  {I : ParseState κ → ParseState κ → Prop} {L R : Prop} {run run' : Runner κ} {s t : ParseState κ} {v : View}

theorem meets_ofExcept {α : Type} (x : Except Fault α) (hst : I s t) :
    Meets L R (Parse.ofExcept x) s (Parse.ofExcept x) t (fun a s' b t' => a = b ∧ I s' t') I := by
  cases x with
  | ok a => exact .ok rfl rfl ⟨rfl, hst⟩
  | error e => exact .error rfl rfl hst

variable (hrun : Runner.InStep ρ I L R run run')

include hrun

theorem runSequence_meets {parts parts' : List RuleId} (h : List.Forall₂ ρ parts parts') (values : List (Value κ))
    (hst : I s t) : Meets L R (runSequence run parts values v) s (runSequence run' parts' values v) t
      (fun r s' r' t' => r = r' ∧ I s' t') I := by
  induction h generalizing values v s t with
  | nil => exact .ok rfl rfl ⟨rfl, hst⟩
  | cons hpq _ ih =>
    refine (hrun _ _ v s t hpq hst).bind ?_
    intro r s' r' t' h
    obtain ⟨rfl, hst'⟩ := h
    cases r with
    | parsed x w => exact ih (values ++ [x]) hst'
    | failed f => exact .ok rfl rfl ⟨rfl, hst'⟩

theorem runEither_meets {branches branches' : List RuleId} (h : List.Forall₂ ρ branches branches') (last : Result κ)
    (hst : I s t) : Meets L R (runEither run v branches last) s (runEither run' v branches' last) t
      (fun r s' r' t' => r = r' ∧ I s' t') I := by
  induction h generalizing last s t with
  | nil => exact .ok rfl rfl ⟨rfl, hst⟩
  | cons hpq _ ih =>
    refine (hrun _ _ v s t hpq hst).bind ?_
    intro r s' r' t' h
    obtain ⟨rfl, hst'⟩ := h
    cases r with
    | parsed x w => exact .ok rfl rfl ⟨rfl, hst'⟩
    | failed f => exact ih (.failed f) hst'

theorem runRepeated_meets {p q : RuleId} (hpq : ρ p q) (fuel : Nat) (values : List (Value κ)) (r : Result κ)
    (hst : I s t) : Meets L R (runRepeated (run p) fuel values v r) s (runRepeated (run' q) fuel values v r) t
      (fun a s' b t' => a = b ∧ I s' t') I := by
  induction fuel generalizing values v r s t with
  | zero => exact .error rfl rfl hst
  | succ fuel ih =>
    cases r with
    | failed f => exact .ok rfl rfl ⟨rfl, hst⟩
    | parsed x w =>
      rw [runRepeated, runRepeated]
      split
      · exact .ok rfl rfl ⟨rfl, hst⟩
      · refine (hrun _ _ w s t hpq hst).bind ?_
        intro r s' r' t' h
        obtain ⟨rfl, hst'⟩ := h
        exact ih (values ++ [x]) r hst'

variable [DecidableEq κ] [CustomMatcher κ]

/-- **Plain bodies of one kind run in step** if the rules do that they refer to. -/
theorem Body.IsPlain.run_meets {b b' : Body κ} (hplain : b.IsPlain) (h : b.Alike ρ U b') (g g' : Grammar κ) (v : View)
    (hst : I s t) : Meets L R (b.run g run v) s (b'.run g' run' v) t (fun r s' r' t' => r = r' ∧ I s' t') I := by
  -- a body that runs no rule comes to the same whatever the state is
  have single {b : Body κ} {x : Except Fault (Result κ)} (hx : b.plan v = .ofExcept x) :
      Meets L R (b.run g run v) s (b.run g' run' v) t (fun r s' r' t' => r = r' ∧ I s' t') I := by
    rw [Body.run_eq_exec, Body.run_eq_exec, hx, Plan.exec_ofExcept, Plan.exec_ofExcept]
    exact meets_ofExcept x hst
  cases h with
  | token m f => cases f <;> exact single rfl
  | capture m => exact single rfl
  | oneOf ms => exact single rfl
  | sequence h => exact runSequence_meets hrun h [] hst
  | either h => exact runEither_meets hrun h _ hst
  | optional h default =>
    refine (hrun _ _ v s t h hst).bind ?_
    intro r s' r' t' h
    obtain ⟨rfl, hst'⟩ := h
    cases r with
    | parsed x w => exact .ok rfl rfl ⟨rfl, hst'⟩
    | failed f => exact .ok rfl rfl ⟨rfl, hst'⟩
  | repeated h minimum h' =>
    refine (hrun _ _ v s t h hst).bind ?_
    intro r s' r' t' h
    obtain ⟨rfl, hst'⟩ := h
    refine (runRepeated_meets hrun h' (v.length + 1) [] r hst').bind ?_
    intro a s'' b t'' h
    obtain ⟨rfl, hst''⟩ := h
    dsimp only
    split
    · exact .ok rfl rfl ⟨rfl, hst''⟩
    · exact .ok rfl rfl ⟨rfl, hst''⟩
  | map h f =>
    refine (hrun _ _ v s t h hst).bind ?_
    intro r s' r' t' h
    obtain ⟨rfl, hst'⟩ := h
    cases r with
    | parsed x w =>
      refine (meets_ofExcept (f x) hst').bind ?_
      intro y s'' y' t'' h
      obtain ⟨rfl, hst''⟩ := h
      exact .ok rfl rfl ⟨rfl, hst''⟩
    | failed f => exact .ok rfl rfl ⟨rfl, hst'⟩
  | skipping => exact hplain.elim
  | skippingAfter => exact hplain.elim
  | within => exact hplain.elim
  | placeholder => exact hplain.elim

end Plain

/-! ## 2. What rules show under a policy -/

section Wraps

variable {g : Grammar κ} {W : Option RuleId} {p q : RuleId}

/-- A rule that sets a policy like `W` for a rule like the first. -/
def Grammar.Wraps (g : Grammar κ) (W : Option RuleId) (p q : RuleId) : Prop :=
  ∃ label p' P, g.rule? q = some ⟨label, .within p' P⟩ ∧ g.Alike g p p' ∧ Option.Rel (g.Alike g) W P

theorem Grammar.Wraps.lt_size (h : g.Wraps W p q) : p < g.rules.size := by
  obtain ⟨label, p', P, -, hpp, -⟩ := h
  exact Alike.lt_size hpp

theorem Grammar.Wraps.lt_size' (h : g.Wraps W p q) : q < g.rules.size := by
  obtain ⟨label, p', P, hr, -⟩ := h
  exact lt_size_of_rule? hr

end Wraps

variable [DecidableEq κ] {g : Grammar κ} {ms : List (Matcher κ)} {e e' a a' : Expectation κ} {p q : RuleId}
  {P W : Option RuleId} {label : Option String}

/-- The second expectation is what the first comes to under a policy with some matchers, but for the order of
whitespace. -/
structure Expectation.ResolvesTo (ms : List (Matcher κ)) (e e' : Expectation κ) : Prop where
  prefixes : e'.prefixes = e.prefixes
  whitespace : ∀ m, m ∈ e'.whitespace ↔ m ∈ e.allowed ms
  ambient : e'.ambient = false

namespace Expectation.ResolvesTo

theorem of_not_ambient (h : e.ambient = false) : e.ResolvesTo ms e where
  prefixes := rfl
  whitespace m := by rw [e.allowed_of_not_ambient h]
  ambient := h

theorem union (h : e.ResolvesTo ms e') (h' : a.ResolvesTo ms a') : (e.union a).ResolvesTo ms (e'.union a') where
  prefixes := congrArg₂ orderedUnion h.prefixes h'.prefixes
  whitespace m := by
    rw [mem_allowed_union, ← h.whitespace, ← h'.whitespace]
    exact mem_orderedUnion
  ambient := by simp [Expectation.union, h.ambient, h'.ambient]

theorem foldl {ρ : RuleId → RuleId → Prop} {S S' : RuleId → Expectation κ} {ids ids' : List RuleId}
    (h : List.Forall₂ ρ ids ids') (hS : ∀ p q, ρ p q → (S p).ResolvesTo ms (S' q)) (he : e.ResolvesTo ms e') :
    (ids.foldl (fun e p => e.union (S p)) e).ResolvesTo ms (ids'.foldl (fun e q => e.union (S' q)) e') := by
  induction h generalizing e e' with
  | nil => exact he
  | cons hpq _ ih => exact ih (he.union (hS _ _ hpq))

end Expectation.ResolvesTo

/-- Plain bodies of one kind show what is resolved if the rules do that they read. -/
theorem Body.IsPlain.shown_resolves {ρ : RuleId → RuleId → Prop} {U : Option RuleId → Option RuleId → Prop}
    {S S' : RuleId → Expectation κ} {b b' : Body κ} (hplain : b.IsPlain) (h : b.Alike ρ U b')
    (hS : ∀ p q, ρ p q → (S p).ResolvesTo ms (S' q)) : (b.shown S).ResolvesTo ms (b'.shown S') := by
  cases h with
  | token m f => exact .of_not_ambient rfl
  | capture m => exact .of_not_ambient rfl
  | oneOf ms => exact .of_not_ambient rfl
  | sequence h =>
    cases h with
    | nil => exact .of_not_ambient rfl
    | cons h _ => exact hS _ _ h
  | either h => exact .foldl h hS (.of_not_ambient rfl)
  | optional h => exact hS _ _ h
  | repeated h => exact hS _ _ h
  | map h => exact hS _ _ h
  | skipping => exact hplain.elim
  | skippingAfter => exact hplain.elim
  | within => exact hplain.elim
  | placeholder => exact hplain.elim

/-- It shows what the first rule comes to under that policy. -/
theorem Grammar.Wraps.resolves (h : g.Wraps W p q) (hms : g.Allows W ms) (he : g.Shows p e) (he' : g.Shows q e') :
    e.ResolvesTo ms e' := by
  obtain ⟨label, p', P, hr, hpp, hWP⟩ := h
  obtain ⟨e₀, ms₀, he₀, hms₀, rfl⟩ := he'.within hr
  have K : (alikeRules g g).rules p p' := hpp
  obtain rfl : ms = ms₀ := Counterpart.allows_alike (K := alikeRules g g) hWP hms hms₀
  have same : (alikeRules g g).Expectations (e.withWhitespace ms) (e₀.withWhitespace ms) :=
    (Counterpart.shows_alike he he₀ K).withWhitespace fun hbare => absurd (hbare _ _ (.some K)).1 (Option.some_ne_none p)
  refine ⟨?_, fun m => ?_, Expectation.ambient_withWhitespace ms⟩
  · rw [← same.prefixes, Expectation.prefixes_withWhitespace]
  · rw [← same.whitespace, Expectation.whitespace_withWhitespace]

/-! ## 3. Rules that are run inside of a policy -/

section Inside

variable [CustomMatcher κ] {s t : ParseState κ}

/-- The first state is inside of a policy, and the second is a sibling of it. -/
structure Grammar.Inside (g : Grammar κ) (W : Option RuleId) (s t : ParseState κ) : Prop extends s.Sibling g t where
  whitespace : s.context.whitespace = W

/-- A rule that is run inside of a policy, and a rule that sets such a policy for it, go on in step. -/
theorem Grammar.Wraps.parse_meets (hg : g.IsStraight) (h : g.Wraps W p q) (hst : g.Inside W s t) (fuel : Nat)
    (v : View) : Meets False False (g.parse fuel p v) s (g.parse (fuel + 1) q v) t
      (fun r s' r' t' => r = r' ∧ g.Inside W s' t') (g.Inside W) := by
  obtain ⟨label, p', P, hr, hpp, hWP⟩ := h
  have policies : (alikeRules g g).policies s.context.whitespace P := hst.whitespace ▸ hWP
  have entered : (alikeRules g g).States s (t.under P) :=
    ⟨hst.sure, hst.sure', policies, hst.suspended, hst.furthest⟩
  have both := Counterpart.parse_both hg hg rfl fuel v hpp entered
  have restored := g.parse_restored fuel p v s
  have within := Grammar.parse_within (v := v) hg hr hst.sure' fuel
  cases hx : g.parse fuel p v s with
  | ok r s' =>
    obtain ⟨r', t', hy, hr', ht'⟩ := both.ok hx
    subst hr'
    obtain ⟨d, hq, hd⟩ := within.ok (Parse.bracketed_of_ok hy)
    refine .ok hx hq ⟨rfl, ⟨ht'.sure, hd, ht'.context.suspended, ht'.context.furthest⟩, ?_⟩
    exact (restored.ok hx).whitespace.trans hst.whitespace
  | error why s' =>
    obtain ⟨t', hy, ht'⟩ := both.error hx
    refine .error hx (within.error (Parse.bracketed_of_error hy)) ⟨?_, ?_⟩
    · exact ⟨ht'.sure, ht'.sure', ht'.context.suspended, ht'.context.furthest⟩
    · exact (restored.error hx).whitespace.trans hst.whitespace

end Inside

/-! ## 4. Policies pushed inwards -/

/-- Failures at one place that name the same matchers in the same order, and the same whitespace in any order. -/
structure Failure.Equivalent (f f' : Failure κ) : Prop where
  rest : f.rest = f'.rest
  expected : f.expected = f'.expected
  whitespace : ∀ m, m ∈ f.whitespace ↔ m ∈ f'.whitespace

/-- The same value, with the same left; or failures that are equivalent. -/
inductive Result.Equivalent : Result κ → Result κ → Prop
  | parsed (x : Value κ) (w : View) : Equivalent (.parsed x w) (.parsed x w)
  | failed {f f' : Failure κ} (h : f.Equivalent f') : Equivalent (.failed f) (.failed f')

section Equivalent

variable {f f' f₁ f₁' : Failure κ} {c c' : Context κ} {v : View}

omit [DecidableEq κ] in
@[refl] theorem Failure.Equivalent.refl (f : Failure κ) : f.Equivalent f := ⟨rfl, rfl, fun _ => Iff.rfl⟩

/-- Records that equivalent failures are offered to. -/
theorem Failure.Equivalent.deepest (h : f.Equivalent f') (best : Option (Failure κ)) :
    (Context.deepest best f).Equivalent (Context.deepest best f') := by
  cases best with
  | none => exact h
  | some best =>
    have ho : f.offset = f'.offset := congrArg View.start h.rest
    rw [Context.deepest, Context.deepest, ← ho]
    split
    · exact h
    · split
      · refine ⟨rfl, congrArg (orderedUnion best.expected) h.expected, fun m => ?_⟩
        simp only [Failure.merge, mem_orderedUnion, h.whitespace]
      · exact .refl best

omit [DecidableEq κ] in
theorem rel_equivalent_refl (best : Option (Failure κ)) : Option.Rel Failure.Equivalent best best := by
  cases best with
  | none => exact .none
  | some best => exact .some (.refl best)

theorem Context.record_equivalent (hsuspended : c.suspended = c'.suspended) (hfurthest : c.furthest = c'.furthest)
    (h : f.Equivalent f') : Option.Rel Failure.Equivalent (c.record f).furthest (c'.record f').furthest := by
  rw [record, record, ← hsuspended, ← hfurthest]
  split
  · rw [← hfurthest]
    exact rel_equivalent_refl c.furthest
  · exact .some (h.deepest c.furthest)

/-- A failure is stamped alike inside of a policy and where the policy has been resolved. -/
theorem Expectation.ResolvesTo.stamps (h : e.ResolvesTo ms e') (he : g.Shows p e) (he' : g.Shows q e')
    (hms : g.Allows W ms) (hstamps : g.Stamps W p v f f₁) (hstamps' : g.Stamps P q v f f₁') : f₁.Equivalent f₁' := by
  cases hstamps with
  | deeper ho =>
    cases hstamps' with
    | deeper => exact .refl f
    | entry ho' => exact absurd ho' ho
  | entry ho he₁ hms₁ =>
    cases hstamps' with
    | deeper ho' => exact absurd ho ho'
    | entry _ he₁' _ =>
      cases he.unique he₁
      cases he'.unique he₁'
      rw [Grammar.Allows.allowed_eq hms₁ fun _ => hms, e'.allowed_of_not_ambient h.ambient]
      refine ⟨rfl, congrArg (orderedUnion · f.expected) h.prefixes.symm, fun m => ?_⟩
      simp only [Failure.stampedBy, mem_orderedUnion, h.whitespace]

/-- What is equivalent is reported alike there. -/
theorem Grammar.report_resolved (hg : g.IsStraight) {s t : ParseState κ} (he : g.Shows p e) (he' : g.Shows q e')
    (hms : g.Allows W ms) (h : e.ResolvesTo ms e') (hW : ∀ i, W = some i → i < g.rules.size) (hst : g.Inside W s t)
    (run run' : Runner κ) (v : View) (r : Result κ) :
    Meets False False (g.report run p v r) s (g.report run' q v r) t
      (fun r s' r' t' => r.Equivalent r' ∧ Option.Rel Failure.Equivalent s'.context.furthest t'.context.furthest)
      fun s' t' => Option.Rel Failure.Equivalent s'.context.furthest t'.context.furthest := by
  cases r with
  | parsed x w => exact .ok rfl rfl ⟨.parsed x w, hst.furthest ▸ rel_equivalent_refl _⟩
  | failed f =>
    obtain ⟨f₁, d, hreport, hstamps, -⟩ := report_stamps hg he.lt_size hst.sure
      (fun _ _ _ => hst.whitespace ▸ hW) v f run
    obtain ⟨f₁', d', hreport', hstamps', -⟩ := report_stamps hg he'.lt_size hst.sure'
      (fun e'' he'' ha => by rw [he''.unique he', h.ambient] at ha; cases ha) v f run'
    have alike : f₁.Equivalent f₁' := h.stamps he he' hms (hst.whitespace ▸ hstamps) hstamps'
    exact .ok hreport hreport' ⟨.failed alike, Context.record_equivalent hst.suspended hst.furthest alike⟩

end Equivalent

section Pushed

variable {whole inner pushed : RuleId} {label label' label'' : Option String} {b b' : Body κ} {v : View}

/-- What a plain rule shows is resolved by a rule of its kind that refers to rules under the policy. -/
theorem Body.IsPlain.resolves (hplain : b.IsPlain) (hg : g.IsStraight)
    (halike : b.Alike (g.Wraps W) (fun _ _ => False) b') (hinner : g.rule? inner = some ⟨label', b⟩)
    (hpushed : g.rule? pushed = some ⟨label'', b'⟩) (hms : g.Allows W ms) (he : g.Shows inner e)
    (he' : g.Shows pushed e') : e.ResolvesTo ms e' := by
  obtain ⟨S, hS⟩ := Grammar.exists_all_shown hg
  rw [he.eq_shown hinner hS, he'.eq_shown hpushed hS]
  exact hplain.shown_resolves halike fun p q hpq => hpq.resolves hms (hS p hpq.lt_size) (hS q hpq.lt_size')

/-- Both show the same matchers and the same whitespace, and nothing ambient. -/
theorem Body.IsPlain.shows_pushed (hplain : b.IsPlain) (hg : g.IsStraight)
    (halike : b.Alike (g.Wraps W) (fun _ _ => False) b') (hwhole : g.rule? whole = some ⟨label, .within inner W⟩)
    (hinner : g.rule? inner = some ⟨label', b⟩) (hpushed : g.rule? pushed = some ⟨label'', b'⟩)
    (he : g.Shows whole e) (he' : g.Shows pushed e') :
    e.prefixes = e'.prefixes ∧ (∀ m, m ∈ e.whitespace ↔ m ∈ e'.whitespace) ∧ e.ambient = false ∧ e'.ambient = false := by
  obtain ⟨e₀, ms, he₀, hms, rfl⟩ := he.within hwhole
  have resolves := hplain.resolves hg halike hinner hpushed hms he₀ he'
  refine ⟨?_, fun m => ?_, Expectation.ambient_withWhitespace ms, resolves.ambient⟩
  · rw [Expectation.prefixes_withWhitespace, resolves.prefixes]
  · rw [Expectation.whitespace_withWhitespace, resolves.whitespace]

variable [CustomMatcher κ]

/-- Inside of the policy the one comes to what the other comes to outside. -/
theorem Body.IsPlain.parse_meets (hplain : b.IsPlain) (hg : g.IsStraight)
    (halike : b.Alike (g.Wraps W) (fun _ _ => False) b') (hinner : g.rule? inner = some ⟨label', b⟩)
    (hpushed : g.rule? pushed = some ⟨label'', b'⟩) (hW : ∀ i, W = some i → i < g.rules.size) {s t : ParseState κ}
    (hst : g.Inside W s t) (fuel : Nat) :
    Meets False False (g.parse (fuel + 1) inner v) s (g.parse (fuel + 2) pushed v) t
      (fun r s' r' t' => r.Equivalent r' ∧ Option.Rel Failure.Equivalent s'.context.furthest t'.context.furthest)
      fun s' t' => Option.Rel Failure.Equivalent s'.context.furthest t'.context.furthest := by
  obtain ⟨ms, hms⟩ := Grammar.exists_allows hg hW
  obtain ⟨e, he⟩ := Grammar.exists_shows hg (Grammar.lt_size_of_rule? hinner)
  obtain ⟨e', he'⟩ := Grammar.exists_shows hg (Grammar.lt_size_of_rule? hpushed)
  have bodies := hplain.run_meets (fun p q v s t hpq hst => hpq.parse_meets hg hst fuel v) halike g g v hst
  rw [Grammar.parse_rule hinner hplain.ne_placeholder,
    Grammar.parse_rule hpushed (hplain.of_alike halike).ne_placeholder]
  refine (bodies.imp_error fun s' t' h => h.furthest ▸ rel_equivalent_refl _).bind ?_
  intro r s' r' t' h
  obtain ⟨rfl, hst'⟩ := h
  exact Grammar.report_resolved hg he he' hms (hplain.resolves hg halike hinner hpushed hms he he') hW hst' _ _ v r

/-- Where no derivation meets a cycle, the policy may be pushed inwards. -/
theorem Body.IsPlain.parse_pushed (hplain : b.IsPlain) (hg : g.IsStraight)
    (halike : b.Alike (g.Wraps W) (fun _ _ => False) b') (hwhole : g.rule? whole = some ⟨label, .within inner W⟩)
    (hinner : g.rule? inner = some ⟨label', b⟩) (hpushed : g.rule? pushed = some ⟨label'', b'⟩) {d d' : Derivation κ}
    (hd : d.Sure g) (hd' : d'.Sure g) (v : View) (c : Context κ) (fuel : Nat) :
    EnsuresBoth (g.parse (fuel + 2) whole v) ⟨d, c⟩ (g.parse (fuel + 2) pushed v) ⟨d', c⟩
      (fun r t r' t' => r.Equivalent r' ∧ Option.Rel Failure.Equivalent t.context.furthest t'.context.furthest)
      fun t t' => Option.Rel Failure.Equivalent t.context.furthest t'.context.furthest := by
  have hW : ∀ i, W = some i → i < g.rules.size := by
    intro i hi
    subst hi
    exact hg.closed whole _ hwhole i (List.mem_cons_of_mem _ List.mem_cons_self)
  have entered : g.Inside W (ParseState.under ⟨d, c⟩ W) ⟨d', c⟩ := ⟨⟨hd, hd', rfl, rfl⟩, rfl⟩
  have inside := hplain.parse_meets (v := v) hg halike hinner hpushed hW entered fuel
  have within := Grammar.parse_within (v := v) (s := ⟨d, c⟩) hg hwhole hd (fuel + 1)
  unfold EnsuresBoth
  cases inside with
  | ok hx hy h =>
    obtain ⟨d₂, hrun, -⟩ := within.ok (Parse.bracketed_of_ok hx)
    simp only [hrun, hy]
    exact h
  | error hx hy h =>
    simp only [within.error (Parse.bracketed_of_error hx), hy]
    exact ⟨trivial, h⟩
  | left _ h => exact h.elim
  | right _ h => exact h.elim

end Pushed

/-! ## 5. Straight rules -/

section Straight

variable {whole inner pushed : RuleId} {label label' label'' : Option String} {b b' : Body κ} {v : View}

section Part

omit [DecidableEq κ]

/-- Straight rules that are alike are so in the straight part. -/
theorem Grammar.Alike.straightPart (h : g.Alike g p q) (hp : g.IsStraightFrom p) (hq : g.IsStraightFrom q) :
    g.straightPart.Alike g.straightPart p q := by
  refine ⟨fun p q => g.Alike g p q ∧ g.IsStraightFrom p ∧ g.IsStraightFrom q, ?_, h, hp, hq⟩
  rintro p q ⟨h, hp, hq⟩
  obtain ⟨hr, hr', halike, hlabel⟩ := h.mirrors
  refine ⟨(rule?_straightPart hp).trans hr, (rule?_straightPart hq).trans hr', ?_, hlabel⟩
  have straight (p' : RuleId) (hp' : p' ∈ _) (q' : RuleId) (hq' : q' ∈ _) (hpq : g.Alike g p' q') :=
    And.intro hpq (And.intro (hp.refers ⟨_, hr, hp'⟩) (hq.refers ⟨_, hr', hq'⟩))
  refine halike.mono_refs straight fun P P' hP hP' hPP => rel_imp_mem hPP fun p' hp' q' hq' => ?_
  exact straight p' (Body.policy_subset_refs hP hp') q' (Body.policy_subset_refs hP' hq')

/-- A rule that sets a policy for another one does so there. -/
theorem Grammar.Wraps.straightPart (h : g.Wraps W p q) (hp : g.IsStraightFrom p) (hq : g.IsStraightFrom q)
    (hW : ∀ P ∈ W.toList, g.IsStraightFrom P) : g.straightPart.Wraps W p q := by
  obtain ⟨label, p', P, hr, hpp, hWP⟩ := h
  have inside (q' : RuleId) (hq' : q' ∈ p' :: P.toList) : g.IsStraightFrom q' := hq.refers ⟨_, hr, hq'⟩
  refine ⟨label, p', P, (rule?_straightPart hq).trans hr, hpp.straightPart hp (inside p' List.mem_cons_self), ?_⟩
  exact rel_imp_mem hWP fun i hi j hj hij => hij.straightPart (hW i hi) (inside j (List.mem_cons_of_mem _ hj))

end Part

variable [CustomMatcher κ] {s s' : ParseState κ}

/-- A plain rule that shows nothing ambient, and that runs only rules with policies of their own, comes to the same in
the straight part. -/
theorem Body.IsPlain.parse_straightPart (hplain : b.IsPlain) (hp : g.IsStraightFrom p)
    (hr : g.rule? p = some ⟨label, b⟩) (hwithin : ∀ q ∈ b.refs, g.IsWithin q)
    (hambient : ∀ e, g.Shows p e → e.ambient = false) (fuel : Nat) (hs : s.SiblingInPart g s') :
    EnsuresBoth (g.parse fuel p v) s (g.straightPart.parse fuel p v) s'
      (fun r t r' t' => r = r' ∧ t.SiblingInPart g t') (·.SiblingInPart g) := by
  cases fuel with
  | zero => exact ⟨rfl, hs⟩
  | succ fuel =>
    let within (q q' : RuleId) : Prop := q = q' ∧ g.IsStraightFrom q ∧ g.IsWithin q
    have halike : b.Alike within (Option.Rel within) b :=
      Body.alike_self (hp.isLibrary hr) fun q hq => ⟨rfl, hp.refers ⟨_, hr, hq⟩, hwithin q hq⟩
    have called : Runner.InStep within (ParseState.SiblingInPart g) False False (g.parse fuel)
        (g.straightPart.parse fuel) := by
      rintro q _ v s s' ⟨rfl, hq, label, inner, policy, hr⟩ hs
      exact .of_both (Grammar.parse_within_straightPart hq hr fuel v hs)
    have bodies := hplain.run_meets called halike g g.straightPart v hs
    rw [Grammar.parse_rule hr hplain.ne_placeholder,
      Grammar.parse_rule ((Grammar.rule?_straightPart hp).trans hr) hplain.ne_placeholder]
    refine (bodies.ensuresBoth id id).bind ?_
    rintro r t _ t' ⟨rfl, ht⟩
    have corresponds : g.sameStraight.rules p p := ⟨rfl, hp⟩
    exact Counterpart.report_sibling corresponds hp.answers (Grammar.answers_sameStraight p p corresponds)
      hambient (fun e he => hambient e ((Grammar.shows_straightPart hp).mp he)) _ _ r ht

/-- **A policy around a plain rule may be pushed inwards**, to all that the rule refers to, if no derivation from the
two meets a cycle. Both show the same matchers and the same whitespace, and nothing ambient. In any context they come to
the same value or fault, or to failures that are equivalent, with records that are. -/
theorem Grammar.policy_pushed_inwards (hwhole : g.rule? whole = some ⟨label, .within inner W⟩)
    (hinner : g.rule? inner = some ⟨label', b⟩) (hpushed : g.rule? pushed = some ⟨label'', b'⟩) (hplain : b.IsPlain)
    (halike : b.Alike (g.Wraps W) (fun _ _ => False) b') (hstraight : g.IsStraightFrom whole)
    (hstraight' : g.IsStraightFrom pushed) (v : View) (c : Context κ) (d d' : Derivation κ) (hd : d.SureOfStraight g)
    (hd' : d'.SureOfStraight g) :
    (∃ e e' d₁ d₁', g.expectation whole d = .ok e d₁ ∧ g.expectation pushed d' = .ok e' d₁' ∧
      e.prefixes = e'.prefixes ∧ (∀ m, m ∈ e.whitespace ↔ m ∈ e'.whitespace) ∧ e.ambient = false ∧ e'.ambient = false) ∧
    ∀ fuel, EnsuresBoth (g.parse (fuel + 2) whole v) ⟨d, c⟩ (g.parse (fuel + 2) pushed v) ⟨d', c⟩
      (fun r t r' t' => r.Equivalent r' ∧ Option.Rel Failure.Equivalent t.context.furthest t'.context.furthest)
      fun t t' => Option.Rel Failure.Equivalent t.context.furthest t'.context.furthest := by
  -- what is true of the two in the straight part
  have hg := g.isStraight_straightPart
  have inside : g.IsStraightFrom inner := hstraight.refers ⟨_, hwhole, List.mem_cons_self⟩
  have whole' := (rule?_straightPart hstraight).trans hwhole
  have inner' := (rule?_straightPart inside).trans hinner
  have pushed' := (rule?_straightPart hstraight').trans hpushed
  have halike' : b.Alike (g.straightPart.Wraps W) (fun _ _ => False) b' := by
    refine halike.mono_refs (fun p hp q hq h => ?_) fun _ _ _ _ h => h
    refine h.straightPart (inside.refers ⟨_, hinner, hp⟩) (hstraight'.refers ⟨_, hpushed, hq⟩) fun P hP => ?_
    exact hstraight.refers ⟨_, hwhole, List.mem_cons_of_mem _ hP⟩
  have shown {e e' : Expectation κ} (he : g.Shows whole e) (he' : g.Shows pushed e') :=
    hplain.shows_pushed hg halike' whole' inner' pushed' ((shows_straightPart hstraight).mpr he)
      ((shows_straightPart hstraight').mpr he')
  obtain ⟨e, d₁, he, hshows, -⟩ := (hstraight.answers d hd).exists_ok
  obtain ⟨e', d₁', he', hshows', -⟩ := (hstraight'.answers d' hd').exists_ok
  refine ⟨⟨e, e', d₁, d₁', he, he', shown hshows hshows'⟩, fun fuel => ?_⟩
  have fresh := Derivation.sure_fresh g.straightPart
  have within (q : RuleId) (hq : q ∈ b'.refs) : g.IsWithin q := by
    obtain ⟨p, -, label, p', P, hr, -⟩ := exists_of_forall₂_right (halike.refs fun h => h.elim) hq
    exact ⟨label, p', P, hr⟩
  have beside {d : Derivation κ} (hd : d.SureOfStraight g) :
      ParseState.SiblingInPart g ⟨d, c⟩ ⟨.fresh, c⟩ := ⟨hd, fresh, rfl, rfl⟩
  have first := Grammar.parse_within_straightPart hstraight hwhole (fuel + 2) v (beside hd)
  have second := (hplain.of_alike halike).parse_straightPart (v := v) hstraight' hpushed within
    (fun e he => (shown hshows he).2.2.2) (fuel + 2) (beside hd')
  have both := hplain.parse_pushed hg halike' whole' inner' pushed' fresh fresh v c fuel
  refine ((first.trans both).trans second.symm).imp ?_ ?_
  · rintro r t r' t' ⟨_, u', ⟨_, u, ⟨rfl, ht⟩, hr, hu⟩, rfl, ht'⟩
    exact ⟨hr, by rwa [ht.furthest, ht'.furthest]⟩
  · rintro t t' ⟨u', ⟨u, ht, hu⟩, ht'⟩
    rwa [ht.furthest, ht'.furthest]

end Straight

/-- A letter that may be set off, and another one after a tab; a choice between them where blanks may be skipped, and a
choice between the two with blanks allowed before each. The last rule is a choice of the letter or itself. -/
def pushedBlanks : Grammar FixedMatcher where
  rules := #[⟨none, .token (.literal "a" true) none⟩, ⟨none, .token (.literal "b" true) none⟩,
    ⟨none, .token (.literal " " true) none⟩, ⟨none, .token (.literal "\t" true) none⟩, ⟨none, .skipping 0⟩,
    ⟨none, .skipping 1⟩, ⟨none, .within 5 (some 3)⟩, ⟨none, .either [4, 6]⟩, ⟨none, .within 7 (some 2)⟩,
    ⟨none, .within 4 (some 2)⟩, ⟨none, .within 6 (some 2)⟩, ⟨none, .either [9, 10]⟩, ⟨none, .either [0, 12]⟩]
  names := []
  customs := 0

/-- Both fail on another letter where they begin, and name the two letters. The tab comes first where the blank is added
in the end, and second where it is added for the first letter. One of the two runs after a request for the rule that
reads itself. -/
theorem policy_pushed_inwards_pushedBlanks :
    let v := View.ofSource ⟨0, ['c']⟩
    let c : Context FixedMatcher := .fresh none 0
    pushedBlanks.rule? 8 = some ⟨none, .within 7 (some 2)⟩ ∧ pushedBlanks.rule? 7 = some ⟨none, .either [4, 6]⟩ ∧
      pushedBlanks.rule? 11 = some ⟨none, .either [9, 10]⟩ ∧ (Body.either [4, 6] : Body FixedMatcher).IsPlain ∧
      (Body.either [4, 6] : Body FixedMatcher).Alike (pushedBlanks.Wraps (some 2)) (fun _ _ => False)
        (.either [9, 10]) ∧
      pushedBlanks.IsStraightFrom 8 ∧ pushedBlanks.IsStraightFrom 11 ∧ pushedBlanks.Consults 12 12 ∧
      ∃ e₁ d₁ f t f' t', pushedBlanks.expectation 12 .fresh = .ok e₁ d₁ ∧ d₁.SureOfStraight pushedBlanks ∧
        pushedBlanks.parse 6 8 v ⟨.fresh, c⟩ = .ok (.failed f) t ∧
        f.expected = [.literal "a" true, .literal "b" true] ∧
        f.whitespace = [.literal "\t" true, .literal " " true] ∧
        pushedBlanks.parse 6 11 v ⟨d₁, c⟩ = .ok (.failed f') t' ∧ f.Equivalent f' ∧
        f'.whitespace = [.literal " " true, .literal "\t" true] ∧
        Option.Rel Failure.Equivalent t.context.furthest t'.context.furthest := by
  intro v c
  have straight : ∀ p ∈ List.range 12, pushedBlanks.IsStraightFrom p := .of_rank (fun p => p) (by decide)
  have whole := straight 8 (by decide)
  have pushed := straight 11 (by decide)
  have wraps {p q : RuleId} (hr : pushedBlanks.rule? q = some ⟨none, .within p (some 2)⟩) :
      pushedBlanks.Wraps (some 2) p q := by
    have closed : pushedBlanks.IsClosed := by decide
    have refl {id : RuleId} (hid : id ∈ [p, 2]) : pushedBlanks.Alike pushedBlanks id id :=
      .refl (by decide) closed (closed q _ hr id hid)
    exact ⟨none, p, some 2, hr, refl (by simp), .some (refl (by simp))⟩
  have hwhole : pushedBlanks.rule? 8 = some ⟨none, .within 7 (some 2)⟩ := rfl
  have hinner : pushedBlanks.rule? 7 = some ⟨none, .either [4, 6]⟩ := rfl
  have hpushed : pushedBlanks.rule? 11 = some ⟨none, .either [9, 10]⟩ := rfl
  have halike : (Body.either [4, 6] : Body FixedMatcher).Alike (pushedBlanks.Wraps (some 2)) (fun _ _ => False)
      (.either [9, 10]) := .either (.cons (wraps rfl) (.cons (wraps rfl) .nil))
  refine ⟨hwhole, hinner, hpushed, trivial, halike, whole, pushed, ⟨_, rfl, by decide⟩, ?_⟩
  obtain ⟨_, t, hrun, f, rfl, hexpected, hwhitespace⟩ := Ensures.exists_ok (x := pushedBlanks.parse 6 8 v)
    (s := ⟨.fresh, c⟩)
    (Q := fun r _ => ∃ f, r = .failed f ∧ f.expected = [.literal "a" true, .literal "b" true] ∧
      f.whitespace = [.literal "\t" true, .literal " " true])
    (by decide +kernel)
  obtain ⟨e₁, d₁, he₁, hend⟩ := Ensures.exists_ok (x := pushedBlanks.expectation 12) (s := .fresh)
    (Q := fun _ d₁ => Ensures (pushedBlanks.parse 6 11 v) ⟨d₁, c⟩
      (fun r _ => ∃ f, r = .failed f ∧ f.whitespace = [.literal " " true, .literal "\t" true]) fun _ _ => False)
    (by decide +kernel)
  obtain ⟨_, t₁, hrun₁, f₁, rfl, hwhitespace₁⟩ := hend.exists_ok
  have fresh := Derivation.sureOfStraight_fresh pushedBlanks
  have requested : d₁.SureOfStraight pushedBlanks := ((pushedBlanks.expectation_ensures_straight 12 fresh).ok he₁).2
  obtain ⟨-, both⟩ :=
    Grammar.policy_pushed_inwards hwhole hinner hpushed trivial halike whole pushed v c .fresh d₁ fresh requested
  have ends (fuel : Nat) {r : Result FixedMatcher} {t : ParseState FixedMatcher}
      (h : pushedBlanks.parse (fuel + 2) 8 v ⟨.fresh, c⟩ = .ok r t) := (both fuel).ok h
  obtain ⟨r', t', hrun', hr', hrecord⟩ := ends 4 hrun
  cases hrun₁.symm.trans hrun'
  cases hr' with
  | failed h =>
    exact ⟨e₁, d₁, f, t, f₁, t₁, he₁, requested, hrun, hexpected, hwhitespace, hrun₁, h, hwhitespace₁, hrecord⟩

end Descent
