import Descent.Matcher.Fixed
import Descent.Proofs.Choice
import Descent.Proofs.Derivation.Grounded
import Descent.Proofs.Matcher.Slice
import Descent.Proofs.WholeInput.Anchor

/-!
# A choice of matchers is a choice of constant tokens

There are two ways to write down that one of some matchers should apply and that the value should tell which: a rule
that holds all of them, and a choice of tokens, one for each, of which each has its matcher as its value. **They come to
the same** (`Build.oneOf_constants`): the same matcher with the same rest, or the same failure, and then with the same
record.

On the way to a failure they do different things. The rule fails once, and what it names is made distinct when it is
stamped. The choice fails as often as there are matchers. Each of these failures is stamped with its own matcher and put
on record, and the last one is stamped once more with what the choice shows, which is the union of what the tokens show.
In the end it is one computation on lists, since a failure that is merged into the record after another one at the same
place may as well be merged into that one first (`Context.record_merge`).

What the two show is a matter of their own rules. So it makes no difference what else there is in the grammar, what has
been requested or what has failed. All that is asked of the bookkeeping is that what it keeps about these very rules is
what they would answer at first (`Derivation.Unspoilt`), and that is how a run leaves it.
-/

namespace Descent

variable {κ : Type} {ms : List (Matcher κ)} {m : Matcher κ} {v : View} {f f' : Failure κ} {g g' : Grammar κ}
  {p q : RuleId} {branches : List RuleId}

/-! ## 1. Two ways to build -/

/-- A rule that holds some matchers, and a choice of tokens, one for each, that have them as values. -/
structure Grammar.TwoWays (g : Grammar κ) (ms : List (Matcher κ)) (p q : RuleId) (branches : List RuleId) : Prop where
  matchers : g.HasBody p (.oneOf ms)
  tokens : List.Forall₂ (fun b m => g.HasBody b (.token m (some fun _ => .ok (.matcher m)))) branches ms
  choice : g.HasBody q (.either branches)

/-- The rules are there as long as their bodies are what they were. -/
theorem Grammar.TwoWays.of_hasBody (h : g.TwoWays ms p q branches)
    (hg : ∀ id ∈ p :: q :: branches, ∀ body, g.HasBody id body → g'.HasBody id body) : g'.TwoWays ms p q branches where
  matchers := hg p (by simp) _ h.matchers
  tokens := by
    have listed := (List.forall₂_and_left branches ms).mpr ⟨fun _ hb => hb, h.tokens⟩
    exact listed.imp fun b m ⟨hb, hbody⟩ => hg b (by simp [hb]) _ hbody
  choice := hg q (by simp) _ h.choice

namespace Build

variable [CustomMatcher κ]

theorem oneOf_matchers (hne : ms ≠ []) : (oneOf (ms.map .matcher) : Build κ RuleId) = add none (.oneOf ms) := by
  obtain ⟨m, ms, rfl⟩ := List.exists_cons_of_ne_nil hne
  show (do add none (.oneOf (← ((m :: ms).map .matcher).mapM asMatcher)) : Build κ RuleId) = _
  rw [mapM_map_pure (h := .matcher) (f := asMatcher) fun _ => rfl, pure_bind]

theorem either_rules (hne : branches ≠ []) :
    (either (branches.map .rule) : Build κ RuleId) = add none (.either branches) := by
  obtain ⟨b, branches, rfl⟩ := List.exists_cons_of_ne_nil hne
  show (do add none (.either (← ((b :: branches).map .rule).mapM asRule)) : Build κ RuleId) = _
  rw [mapM_map_pure (h := .rule) (f := asRule) fun _ => rfl, pure_bind]

/-- Tokens are built one after another. -/
theorem ensures_constants (ms : List (Matcher κ)) (g : Grammar κ) :
    Ensures (ms.mapM fun m => value (.matcher m) (.matcher m)) g
      (fun branches g' => g.IsPartOf g' ∧
        List.Forall₂ (fun b m => g'.HasBody b (.token m (some fun _ => .ok (.matcher m)))) branches ms)
      fun _ _ => False := by
  induction ms generalizing g with
  | nil => exact ⟨.refl g, .nil⟩
  | cons m ms ih =>
    rw [List.mapM_cons, ensures_bind]
    refine ensures_add fun b g₁ h₁ hb => ?_
    rw [ensures_bind]
    refine (ih g₁).imp_ok fun branches g₂ ⟨h₂, hbranches⟩ => ?_
    exact ⟨h₁.trans h₂, .cons (h₂.hasBody hb) hbranches⟩

/-- **The two ways are open to every row of matchers.** -/
theorem exists_twoWays (hne : ms ≠ []) (g₀ : Grammar κ) :
    ∃ p g₁ branches g₂ q g₃, oneOf (ms.map .matcher) g₀ = .ok p g₁ ∧
      (ms.mapM fun m => value (.matcher m) (.matcher m)) g₁ = .ok branches g₂ ∧
      either (branches.map .rule) g₂ = .ok q g₃ ∧ g₃.TwoWays ms p q branches := by
  let g₁ := g₀.push none (.oneOf ms)
  obtain ⟨branches, g₂, hbranches, h₂, tokens⟩ := (ensures_constants ms g₁).exists_ok
  have hne' : branches ≠ [] := by
    rintro rfl
    cases tokens
    exact hne rfl
  let g₃ := g₂.push none (.either branches)
  have h₃ : g₂.IsPartOf g₃ := Grammar.isPartOf_push
  refine ⟨g₀.rules.size, g₁, branches, g₂, g₂.rules.size, g₃, ?_, hbranches, ?_, ?_, ?_, ?_⟩
  · rw [oneOf_matchers hne]
    rfl
  · rw [either_rules hne']
    rfl
  · exact (h₂.trans h₃).hasBody ⟨none, Grammar.rule?_push_size⟩
  · exact tokens.imp fun _ _ hb => h₃.hasBody hb
  · exact ⟨none, Grammar.rule?_push_size⟩

end Build

variable [DecidableEq κ]

/-! ## 2. What is named, and what is on record -/

theorem orderedUnion_eq_distinct (l : List (Matcher κ)) : orderedUnion l l = distinct l := by
  rw [orderedUnion, ← distinct_distinct_append, ← orderedUnion]
  exact orderedUnion_eq_left_iff.mpr ⟨nodup_distinct l, fun _ h => mem_distinct.mpr h⟩

/-- A failure that comes after another one at the same place may be merged into it before both are put on record. -/
theorem Context.record_merge (c : Context κ) (h : f'.offset = f.offset) :
    (c.record f).record f' = c.record (f.merge f') := by
  have merged : (f.merge f').offset = f.offset := rfl
  have deepest_merge (furthest : Option (Failure κ)) :
      deepest (some (deepest furthest f)) f' = deepest furthest (f.merge f') := by
    cases furthest with
    | none =>
      show deepest (some f) f' = f.merge f'
      rw [deepest, if_neg (by omega), if_pos h]
    | some best =>
      rw [deepest.eq_2 f best, deepest.eq_2 (f.merge f') best, merged]
      by_cases hlt : best.offset < f.offset
      · rw [if_pos hlt, if_pos hlt, deepest, if_neg (by omega), if_pos h]
      · by_cases heq : f.offset = best.offset
        · have hbest : (best.merge f).offset = best.offset := rfl
          rw [if_neg hlt, if_neg hlt, if_pos heq, if_pos heq, deepest, if_neg (by omega), if_pos (by omega)]
          simp only [Failure.merge, orderedUnion_assoc]
        · rw [if_neg hlt, if_neg hlt, if_neg heq, if_neg heq, deepest, if_neg (by omega), if_neg (by omega)]
  rw [record.eq_1 c f, record.eq_1 c (f.merge f')]
  split
  next hs => rw [record, if_pos hs]
  next hs =>
    rw [record, if_neg hs]
    exact congrArg (fun best => { c with furthest := some best }) (deepest_merge c.furthest)

/-- The record after failures that name one matcher each. -/
def Context.recordEach (v : View) (ms : List (Matcher κ)) (c : Context κ) : Context κ :=
  ms.foldl (fun c m => c.record ⟨v, [m], []⟩) c

/-- **Failures one by one and all at once come to the same record**, if all is named again in the end. -/
theorem Context.record_recordEach (c : Context κ) (v : View) (ms : List (Matcher κ)) {ns : List (Matcher κ)}
    (hns : ns.Nodup) : (c.recordEach v ms).record ⟨v, ns, []⟩ = c.record ⟨v, distinct (ms ++ ns), []⟩ := by
  induction ms generalizing c with
  | nil => rw [List.nil_append, distinct_of_nodup hns]; rfl
  | cons m ms ih =>
    have merged : (c.record ⟨v, [m], []⟩).record ⟨v, distinct (ms ++ ns), []⟩ =
        c.record ⟨v, orderedUnion [m] (distinct (ms ++ ns)), []⟩ := c.record_merge rfl
    exact (ih (c.record ⟨v, [m], []⟩)).trans (merged.trans (by rw [orderedUnion, distinct_append_distinct]; rfl))

/-- The expectations of single matchers add up to one that names them all. -/
theorem Expectation.foldl_union_ofMatcher {l : List (Matcher κ)} (hl : l.Nodup) (ms : List (Matcher κ)) :
    (ms.map Expectation.ofMatcher).foldl .union ⟨l, [], false⟩ = (⟨distinct (l ++ ms), [], false⟩ : Expectation κ) := by
  induction ms generalizing l with
  | nil => rw [List.append_nil, distinct_of_nodup hl]; rfl
  | cons m ms ih =>
    refine (ih (nodup_orderedUnion l [m])).trans ?_
    rw [orderedUnion, distinct_distinct_append, List.append_assoc]
    rfl

/-! ## 3. What the rules show -/

variable {K : RuleId → Option (Expectation κ)} {id : RuleId} {ids : List RuleId} {b : Body κ} {e : Expectation κ}
  {d d' : Derivation κ}

/-- What a rule is answered with is the same for all tables that have nothing about some rules. -/
structure Grammar.Decided (g : Grammar κ) (ids : List RuleId) (id : RuleId) (e : Expectation κ) : Prop where
  rule : ∃ rule, g.Proper id rule
  grounded : ∀ K, (∀ q ∈ ids, K q = none) → g.Grounded K id e
  fuel : g.Suffices g.derivationFuel [] id

omit [DecidableEq κ] in
/-- Fuel suffices for a rule if it does for what its body reads. -/
theorem Grammar.HasBody.suffices {fuel : Nat} {marks : List RuleId} (h : g.HasBody id b)
    (hp : ∀ target, b ≠ .placeholder target) (hreads : ∀ q ∈ b.reads g, g.Suffices fuel (id :: marks) q) :
    g.Suffices (fuel + 1) marks id := by
  obtain ⟨label, hr⟩ := h
  refine ⟨fun label' target hr' => ?_, fun rule hrule _ => ?_⟩
  · cases hr.symm.trans hr'
    exact absurd rfl (hp (some target))
  · cases hr.symm.trans hrule.1
    exact hreads

/-- A rule is decided if what its body reads is. -/
theorem Grammar.HasBody.decided {es : List (Expectation κ)} (h : g.HasBody id b)
    (hp : ∀ target, b ≠ .placeholder target) (hb : b.IsLibrary) (hid : id ∈ ids)
    (hsuffices : g.Suffices g.derivationFuel [] id)
    (hreads : ∀ K, (∀ q ∈ ids, K q = none) → List.Forall₂ (g.Grounded K) (b.reads g) es) (he : b.concluded es = .ok e) :
    g.Decided ids id e := by
  obtain ⟨label, hr⟩ := h
  refine ⟨⟨_, hr, hp⟩, fun K hK => ?_, hsuffices⟩
  exact .of_walk ⟨hr, hp⟩ (hK id hid) (Body.finds_of_library g hb) (hreads K hK) he

/-- **What the two ways show**, whatever is kept about other rules. -/
theorem Grammar.TwoWays.decided (h : g.TwoWays ms p q branches) :
    g.Decided (p :: q :: branches) p ⟨ms, [], false⟩ ∧
      List.Forall₂ (fun b m => g.Decided (p :: q :: branches) b (.ofMatcher m)) branches ms ∧
      g.Decided (p :: q :: branches) q ⟨distinct ms, [], false⟩ := by
  obtain ⟨fuel, hfuel⟩ : ∃ fuel, g.derivationFuel = fuel + 2 :=
    ⟨g.derivationFuel - 2, (Nat.sub_add_cancel (Nat.mul_le_mul (Nat.le_add_left 1 _) (Nat.le_add_left 2 _))).symm⟩
  have tokens : List.Forall₂ (fun b m => (∀ marks, g.Suffices (fuel + 1) marks b) ∧
      g.Decided (p :: q :: branches) b (.ofMatcher m)) branches ms := by
    have listed := (List.forall₂_and_left branches ms).mpr ⟨fun _ hb => hb, h.tokens⟩
    refine listed.imp fun b m ⟨hb, hbody⟩ => ⟨fun marks => hbody.suffices nofun nofun, ?_⟩
    exact hbody.decided nofun trivial (by simp [hb]) (hfuel ▸ hbody.suffices nofun nofun) (fun _ _ => .nil) rfl
  obtain ⟨leaves, tokens⟩ := (List.forall₂_and_left branches ms).mp tokens
  refine ⟨?_, tokens, ?_⟩
  · have enough : g.Suffices (fuel + 2) [] p := h.matchers.suffices nofun nofun
    exact h.matchers.decided nofun trivial (by simp) (hfuel ▸ enough) (fun _ _ => .nil) rfl
  · -- the choice reads the tokens, and these read nothing
    have shown : (ms.map Expectation.ofMatcher).foldl .union .empty = (⟨distinct ms, [], false⟩ : Expectation κ) :=
      Expectation.foldl_union_ofMatcher List.nodup_nil ms
    have enough : g.Suffices (fuel + 2) [] q := h.choice.suffices nofun fun b hb => leaves b hb [q]
    refine h.choice.decided nofun trivial (by simp) (hfuel ▸ enough) (fun K hK => ?_) (congrArg Except.ok shown)
    exact List.forall₂_map_right_iff.mpr (tokens.imp fun b m hb => hb.grounded K hK)

theorem Grammar.TwoWays.exists_decided (h : g.TwoWays ms p q branches) :
    ∀ id ∈ p :: q :: branches, ∃ e, g.Decided (p :: q :: branches) id e := by
  obtain ⟨hp, htokens, hq⟩ := h.decided
  have tokens := (List.forall₂_and_left branches ms).mp (htokens.imp fun b m hb => ⟨Exists.intro _ hb, hb⟩)
  exact List.forall_mem_cons.mpr ⟨⟨_, hp⟩, List.forall_mem_cons.mpr ⟨⟨_, hq⟩, tokens.1⟩⟩

/-- Nothing is being derived, and what is kept about some rules is what they would answer if nothing was kept. -/
structure Derivation.Unspoilt (d : Derivation κ) (g : Grammar κ) (ids : List RuleId) : Prop extends d.AtRest where
  kept : ∀ id ∈ ids, ∀ e, d.known? id = some e → ∃ d', g.expectation id .fresh = .ok e d'

/-- Where nothing has been derived yet, nothing is spoilt. -/
theorem Derivation.unspoilt_fresh (g : Grammar κ) (ids : List RuleId) : (fresh : Derivation κ).Unspoilt g ids :=
  ⟨⟨rfl, rfl⟩, fun _ _ _ h => nomatch h⟩

theorem Derivation.Upholds.answers_decided (hd : d.Upholds g K) (hK : ∀ q ∈ ids, K q = none) (h : g.Decided ids id e) :
    ∃ d', g.expectation id d = .ok e d' ∧ d'.Upholds g K :=
  hd.answers (h.grounded K hK) h.fuel

theorem Grammar.Decided.first (h : g.Decided ids id e) : ∃ d', g.expectation id .fresh = .ok e d' := by
  have fresh : (Derivation.fresh : Derivation κ).AtRest := ⟨rfl, rfl⟩
  obtain ⟨d', hanswer, -⟩ := (fresh.upholds_known g).answers_decided (fun _ _ => rfl) h
  exact ⟨d', hanswer⟩

/-- Unspoilt bookkeeping upholds all that it keeps about other rules. -/
theorem Derivation.Unspoilt.exists_upholds (h : d.Unspoilt g ids) (hids : ∀ id ∈ ids, ∃ e, g.Decided ids id e) :
    ∃ K, d.Upholds g K ∧ ∀ id ∈ ids, K id = none := by
  let K (id : RuleId) : Option (Expectation κ) := if id ∈ ids then none else d.known? id
  have hK : ∀ id ∈ ids, K id = none := fun id hid => if_pos hid
  refine ⟨K, ⟨h.toAtRest, K, ⟨fun id e hknown => ?_, fun id rule e hr hknown => ?_⟩, fun _ _ h => h⟩, hK⟩
  · by_cases hid : id ∈ ids
    · cases (hK id hid).symm.trans hknown
    · exact (if_neg hid).symm.trans hknown
  · by_cases hid : id ∈ ids
    · obtain ⟨e', hdecided⟩ := hids id hid
      obtain ⟨_, hkept⟩ := h.kept id hid e hknown
      obtain ⟨_, hfirst⟩ := hdecided.first
      cases hkept.symm.trans hfirst
      exact hdecided.grounded K hK
    · exact .given hr ((if_neg hid).trans hknown)

/-- And bookkeeping that upholds this is unspoilt. -/
theorem Derivation.Upholds.unspoilt (h : d.Upholds g K) (hK : ∀ id ∈ ids, K id = none)
    (hids : ∀ id ∈ ids, ∃ e, g.Decided ids id e) : d.Unspoilt g ids where
  toAtRest := h.toAtRest
  kept := by
    intro id hid e hknown
    obtain ⟨e', hdecided⟩ := hids id hid
    obtain ⟨rule, hr⟩ := hdecided.rule
    obtain ⟨K', hbuilds, hK'⟩ := h.table
    have same : e = e' := (hbuilds.grounded id rule e hr hknown).unique (hK' id e' (hdecided.grounded K hK))
    exact same ▸ hdecided.first

/-! ## 4. Running the two -/

variable {fuel fuel' : Nat} {s s' : ParseState κ} {ns : List (Matcher κ)}

/-- A rule that is decided adds the matchers that it shows to a failure of its entry. -/
theorem Grammar.report_decided (run : Runner κ) (v : View) (ms : List (Matcher κ)) (hs : s.derivation.Upholds g K)
    (hK : ∀ q ∈ ids, K q = none) (h : g.Decided ids id ⟨ns, [], false⟩) :
    ∃ d, g.report run id v (.failed ⟨v, ms, []⟩) s =
        .ok (.failed ⟨v, orderedUnion ns ms, []⟩) ⟨d, s.context.record ⟨v, orderedUnion ns ms, []⟩⟩ ∧
      d.Upholds g K := by
  obtain ⟨d, hanswer, hd⟩ := hs.answers_decided hK h
  refine ⟨d, ?_, hd⟩
  have asked : Parse.ofDerive (g.expectation id) s = .ok ⟨ns, [], false⟩ { s with derivation := d } := by
    rw [Parse.ofDerive, hanswer]
  have entry : (⟨v, ms, []⟩ : Failure κ).offset = v.start := rfl
  rw [report, Plan.stamp, if_pos entry, Plan.exec, bind_assoc, bind_apply_of_ok asked]
  rfl

variable [CustomMatcher κ]

/-- A token tries its matcher, and puts a failure on record. -/
theorem Grammar.HasBody.constant_ensuresBoth (hb : g.HasBody id (.token m (some fun _ => .ok (.matcher m))))
    (h : g.Decided ids id (.ofMatcher m)) (hK : ∀ q ∈ ids, K q = none) (s : ParseState κ)
    (hs : s'.derivation.Upholds g K) :
    EnsuresBoth (Parse.ofExcept (m.split v)) s (g.parse (fuel + 1) id v) s'
      (fun halves t r t' => m.split v = .ok halves ∧ t = s ∧ t'.derivation.Upholds g K ∧
        match halves with
        | some (_, rest) => r = .parsed (.matcher m) rest
        | none => r = .failed ⟨v, [m], []⟩ ∧ t'.context = s'.context.record ⟨v, [m], []⟩)
      fun t t' => (∃ fault, m.split v = .error fault) ∧ t = s ∧ t'.derivation.Upholds g K := by
  obtain ⟨label, hr⟩ := hb
  rw [Grammar.parse_rule hr nofun, Body.run_eq_exec, Body.plan, Plan.exec_ofExcept, Matcher.taken]
  cases m.split v with
  | error fault => exact ⟨rfl, ⟨fault, rfl⟩, rfl, hs⟩
  | ok halves =>
    cases halves with
    | some halves => exact ⟨rfl, rfl, hs, rfl⟩
    | none =>
      obtain ⟨d, hreport, hd⟩ := Grammar.report_decided (g.parse fuel) v [m] hs hK h
      rw [orderedUnion_self (List.nodup_singleton m)] at hreport
      show EnsuresBoth (pure none) s (g.report (g.parse fuel) id v (.failed ⟨v, [m], []⟩)) s' _ _
      unfold EnsuresBoth
      rw [hreport]
      exact ⟨rfl, rfl, hd, rfl, rfl⟩

/-- **The two tries go in step**: where a matcher applies, so does its token, and where none does, each token has put
its failure on record. -/
theorem runs_inStep (all : List (Matcher κ)) (hK : ∀ q ∈ ids, K q = none)
    (htokens : List.Forall₂ (fun b m => g.HasBody b (.token m (some fun _ => .ok (.matcher m))) ∧
      g.Decided ids b (.ofMatcher m)) branches ms)
    (s : ParseState κ) (last : Result κ) (hs : s'.derivation.Upholds g K) :
    EnsuresBoth (runOneOf all v ms) s (runEither (g.parse (fuel + 1)) v branches last) s'
      (fun r t r' t' => t = s ∧ t'.derivation.Upholds g K ∧
        ((∃ m ∈ ms, ∃ matched rest, m.split v = .ok (some (matched, rest)) ∧ r = .parsed (.matcher m) rest ∧ r' = r) ∨
          r = .failed ⟨v, all, []⟩ ∧ t'.context = s'.context.recordEach v ms ∧
            (r' = last ∧ ms = [] ∨ ∃ m ∈ ms, r' = .failed ⟨v, [m], []⟩)))
      fun t t' => (∃ m ∈ ms, ∃ fault, m.split v = .error fault) ∧ t = s ∧ t'.derivation.Upholds g K := by
  induction htokens generalizing s' last with
  | nil => exact ⟨rfl, hs, Or.inr ⟨rfl, rfl, Or.inl ⟨rfl, rfl⟩⟩⟩
  | @cons b m branches ms hb _ ih =>
    rw [runOneOf, runEither]
    refine ((hb.1.constant_ensuresBoth hb.2 hK s hs).imp (fun _ _ _ _ h => h) fun t t' h =>
      ⟨⟨m, List.mem_cons_self, h.1⟩, h.2⟩).bind ?_
    rintro halves t r t' ⟨hsplit, rfl, ht', h⟩
    cases halves with
    | some halves =>
      subst h
      exact ⟨rfl, ht', Or.inl ⟨m, List.mem_cons_self, halves.1, halves.2, hsplit, rfl, rfl⟩⟩
    | none =>
      obtain ⟨rfl, hrecord⟩ := h
      refine (ih (.failed ⟨v, [m], []⟩) ht').imp (fun r u r' u' h => ⟨h.1, h.2.1, h.2.2.imp ?_ ?_⟩) ?_
      · rintro ⟨m', hm', h⟩
        exact ⟨m', List.mem_cons_of_mem m hm', h⟩
      · rintro ⟨hr, hu', hlast⟩
        refine ⟨hr, by rw [hu', hrecord]; rfl, Or.inr ?_⟩
        rcases hlast with ⟨hr', -⟩ | ⟨m', hm', hr'⟩
        · exact ⟨m, List.mem_cons_self, hr'⟩
        · exact ⟨m', List.mem_cons_of_mem m hm', hr'⟩
      · rintro u u' ⟨⟨m', hm', hfault⟩, h⟩
        exact ⟨⟨m', List.mem_cons_of_mem m hm', hfault⟩, h⟩

/-- **The two ways come to the same.** -/
theorem Grammar.TwoWays.ensuresBoth (h : g.TwoWays ms p q branches) (hne : ms ≠ []) (c : Context κ)
    (hd : d.Unspoilt g (p :: q :: branches)) (hd' : d'.Unspoilt g (p :: q :: branches)) :
    EnsuresBoth (g.parse (fuel + 1) p v) ⟨d, c⟩ (g.parse (fuel' + 2) q v) ⟨d', c⟩
      (fun r t r' t' => r' = r ∧
        ((∃ m ∈ ms, ∃ matched rest, m.split v = .ok (some (matched, rest)) ∧ r = .parsed (.matcher m) rest) ∨
          r = .failed ⟨v, distinct ms, []⟩ ∧ t'.context = t.context) ∧
        t.derivation.Unspoilt g (p :: q :: branches) ∧ t'.derivation.Unspoilt g (p :: q :: branches))
      fun t t' => (∃ m ∈ ms, ∃ fault, m.split v = .error fault) ∧
        t.derivation.Unspoilt g (p :: q :: branches) ∧ t'.derivation.Unspoilt g (p :: q :: branches) := by
  obtain ⟨hp, decided, hq⟩ := h.decided
  have tokens := (List.Forall₂.mp (fun _ _ hb hb' => And.intro hb hb')) h.tokens decided
  obtain ⟨K, hd, hK⟩ := hd.exists_upholds h.exists_decided
  obtain ⟨K', hd', hK'⟩ := hd'.exists_upholds h.exists_decided
  obtain ⟨label, hmatchers⟩ := h.matchers
  obtain ⟨label', hchoice⟩ := h.choice
  rw [Grammar.parse_rule hmatchers nofun, Grammar.parse_either hchoice]
  refine ((runs_inStep ms hK' tokens ⟨d, c⟩ (.failed ⟨v, [], []⟩) hd').imp (fun _ _ _ _ h => h) ?_).bind ?_
  · rintro t t' ⟨hfault, rfl, ht'⟩
    exact ⟨hfault, hd.unspoilt hK h.exists_decided, ht'.unspoilt hK' h.exists_decided⟩
  · rintro r t r' t' ⟨rfl, ht', ⟨m, hm, matched, rest, hsplit, rfl, rfl⟩ | ⟨rfl, hrecord, hlast⟩⟩
    · refine ⟨rfl, Or.inl ⟨m, hm, matched, rest, hsplit, rfl⟩, ?_, ?_⟩
      · exact hd.unspoilt hK h.exists_decided
      · exact ht'.unspoilt hK' h.exists_decided
    · obtain ⟨-, rfl⟩ | ⟨m, hm, rfl⟩ := hlast
      · exact absurd rfl hne
      obtain ⟨u, hreport, hu⟩ := Grammar.report_decided (s := ⟨d, c⟩) (g.parse fuel) v ms hd hK hp
      obtain ⟨u', hreport', hu'⟩ := Grammar.report_decided (g.parse (fuel' + 1)) v [m] ht' hK' hq
      have named : orderedUnion (distinct ms) [m] = distinct ms :=
        orderedUnion_eq_left_iff.mpr ⟨nodup_distinct ms, by simpa using hm⟩
      have once : distinct (ms ++ distinct ms) = distinct ms := by
        rw [distinct_append_distinct]
        exact orderedUnion_eq_distinct ms
      unfold EnsuresBoth
      rw [hreport, hreport', orderedUnion_eq_distinct, named, hrecord,
        Context.record_recordEach _ _ _ (nodup_distinct ms), once]
      exact ⟨rfl, Or.inr ⟨rfl, rfl⟩, hu.unspoilt hK h.exists_decided, hu'.unspoilt hK' h.exists_decided⟩

/-! ## 5. One of some matchers -/

/-- **One of some matchers is the choice of constant tokens.** Both can be built of any matchers, repeated or not. In
any grammar that has their rules, from any context and against any window, the two end in the same matcher with the same
rest, or in the same failure, which names each matcher once, and then they leave the same context. Unless a matcher is
not of the library or its engine breaks down, they do end in a result. -/
theorem Build.oneOf_constants (hne : ms ≠ []) (g₀ : Grammar κ) :
    ∃ p g₁ branches g₂ q g₃, oneOf (ms.map .matcher) g₀ = .ok p g₁ ∧
      (ms.mapM fun m => value (.matcher m) (.matcher m)) g₁ = .ok branches g₂ ∧
      either (branches.map .rule) g₂ = .ok q g₃ ∧
      ∀ g : Grammar κ, (∀ id ∈ p :: q :: branches, ∀ body, g₃.HasBody id body → g.HasBody id body) →
        ∀ d d' : Derivation κ, d.Unspoilt g (p :: q :: branches) → d'.Unspoilt g (p :: q :: branches) →
          ∀ (c : Context κ) (v : View) (fuel fuel' : Nat),
            EnsuresBoth (g.parse (fuel + 1) p v) ⟨d, c⟩ (g.parse (fuel' + 2) q v) ⟨d', c⟩
              (fun r t r' t' => r' = r ∧
                ((∃ m ∈ ms, ∃ matched rest, m.split v = .ok (some (matched, rest)) ∧ r = .parsed (.matcher m) rest) ∨
                  r = .failed ⟨v, distinct ms, []⟩ ∧ t'.context = t.context) ∧
                t.derivation.Unspoilt g (p :: q :: branches) ∧ t'.derivation.Unspoilt g (p :: q :: branches))
              fun t t' => (∃ m ∈ ms, ¬ (m.custom? = none ∧ m.EngineAnswers)) ∧
                t.derivation.Unspoilt g (p :: q :: branches) ∧ t'.derivation.Unspoilt g (p :: q :: branches) := by
  obtain ⟨p, g₁, branches, g₂, q, g₃, hp, hbranches, hq, hways⟩ := exists_twoWays hne g₀
  refine ⟨p, g₁, branches, g₂, q, g₃, hp, hbranches, hq, fun g hg d d' hd hd' c v fuel fuel' => ?_⟩
  refine ((hways.of_hasBody hg).ensuresBoth hne c hd hd').imp (fun _ _ _ _ h => h) ?_
  rintro t t' ⟨⟨m, hm, fault, hfault⟩, h⟩
  refine ⟨⟨m, hm, fun ⟨hlibrary, hengine⟩ => ?_⟩, h⟩
  obtain ⟨halves, hsplit⟩ := hengine.exists_split hlibrary v
  cases hfault.symm.trans hsplit

/-- A text is named twice, and none of the texts applies where another one has been expected before. -/
theorem Build.oneOf_constants_repeated :
    let ab : Matcher FixedMatcher := .literal "ab" true
    let b : Matcher FixedMatcher := .literal "b" true
    let v : View := .ofSource ⟨0, ['c', 'a', 'b']⟩
    let c : Context FixedMatcher := ⟨none, 0, some ⟨v, [b, .endOfInput], []⟩, 0⟩
    [ab, b, ab] ≠ [] ∧ ∃ p g₁ branches g₂ q g₃, oneOf ([ab, b, ab].map .matcher) .empty = .ok p g₁ ∧
      ([ab, b, ab].mapM fun m => value (.matcher m) (.matcher m)) g₁ = .ok branches g₂ ∧
      either (branches.map .rule) g₂ = .ok q g₃ ∧
      ∃ t t', g₃.parse 1 p v ⟨.fresh, c⟩ = .ok (.failed ⟨v, [ab, b], []⟩) t ∧
        g₃.parse 2 q v ⟨.fresh, c⟩ = .ok (.failed ⟨v, [ab, b], []⟩) t' ∧ t'.context = t.context := by
  intro ab b v c
  have hne : [ab, b, ab] ≠ [] := List.cons_ne_nil _ _
  have library : ∀ m ∈ [ab, b, ab], m.custom? = none ∧ m.EngineAnswers := by
    simp only [List.forall_mem_cons]
    exact ⟨⟨rfl, nofun⟩, ⟨rfl, nofun⟩, ⟨rfl, nofun⟩, nofun⟩
  have none_applies : ∀ m ∈ [ab, b, ab], m.split v = .ok none := by
    simp only [List.forall_mem_cons]
    exact ⟨rfl, rfl, rfl, nofun⟩
  obtain ⟨p, g₁, branches, g₂, q, g₃, hp, hbranches, hq, h⟩ := Build.oneOf_constants hne .empty
  refine ⟨hne, p, g₁, branches, g₂, q, g₃, hp, hbranches, hq, ?_⟩
  have both := h g₃ (fun _ _ _ h => h) .fresh .fresh (Derivation.unspoilt_fresh _ _)
    (Derivation.unspoilt_fresh _ _) c v 0 0
  cases hx : g₃.parse 1 p v ⟨.fresh, c⟩ with
  | error why t =>
    obtain ⟨t', -, ⟨m, hm, hnot⟩, -⟩ := both.error hx
    exact absurd (library m hm) hnot
  | ok r t =>
    obtain ⟨_, t', hx', rfl, ⟨m, hm, matched, rest, hsplit, -⟩ | ⟨rfl, hcontext⟩, -⟩ := both.ok hx
    · cases (none_applies m hm).symm.trans hsplit
    · exact ⟨t, t', rfl, hx', hcontext⟩

end Descent
