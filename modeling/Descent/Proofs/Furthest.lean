import Descent.Matcher.Fixed
import Descent.Proofs.Run.Law

/-!
# The furthest failure

A report says what was expected where the input could not be read any further, and all it has to go by is one record
that every rule of a run may change: rules of branches that were given up, failures that were passed upwards, rules
that succeeded in the end. **The record is the summary of all of them** (`summarises_run`): it stands at the greatest
offset at which any call failed, and it names what the calls that failed there expected, in the order in which they
returned, each matcher once. Nothing that was expected there is lost.

That a record is merged from the failures of the log one after another comes with every law of runs. What is left is
to see that merging so is the same as taking the greatest offset and one union (`Summarises.deepest`). This needs
failures that name nothing twice, which is a law of grammars without hand-written rules (`unrepeated_kept`).
-/

namespace Descent

variable {κ : Type} [DecidableEq κ]

/-! ## 1. Summaries -/

/-- A failure that names no matcher twice. -/
structure Failure.Unrepeated (f : Failure κ) : Prop where
  expected : f.expected.Nodup
  whitespace : f.whitespace.Nodup

/-- What the failures at an offset name, in order and each matcher once. -/
def namedAt (offset : Nat) (names : Failure κ → List (Matcher κ)) (fs : List (Failure κ)) : List (Matcher κ) :=
  distinct ((fs.filter (·.offset = offset)).flatMap names)

/-- A failure that sums up others: it stands at the greatest of their offsets, and names what those there name. -/
structure Failure.Summarises (f : Failure κ) (fs : List (Failure κ)) : Prop where
  attained : ∃ f' ∈ fs, f'.offset = f.offset
  greatest : ∀ f' ∈ fs, f'.offset ≤ f.offset
  expected : f.expected = namedAt f.offset (·.expected) fs
  whitespace : f.whitespace = namedAt f.offset (·.whitespace) fs

section NamedAt

variable {offset : Nat} {names : Failure κ → List (Matcher κ)} {fs : List (Failure κ)} {f : Failure κ}

theorem mem_namedAt {m : Matcher κ} : m ∈ namedAt offset names fs ↔ ∃ f ∈ fs, f.offset = offset ∧ m ∈ names f := by
  simp [namedAt, and_assoc]

theorem namedAt_singleton (h : (names f).Nodup) : namedAt f.offset names [f] = names f := by
  simp [namedAt, distinct_of_nodup h]

theorem namedAt_append_of_eq (h : f.offset = offset) :
    namedAt offset names (fs ++ [f]) = orderedUnion (namedAt offset names fs) (names f) := by
  rw [namedAt, namedAt, orderedUnion, distinct_distinct_append]
  simp [h]

theorem namedAt_append_of_ne (h : f.offset ≠ offset) : namedAt offset names (fs ++ [f]) = namedAt offset names fs := by
  simp [namedAt, h]

theorem namedAt_append_of_forall_ne (hfs : ∀ f' ∈ fs, f'.offset ≠ f.offset) (h : (names f).Nodup) :
    namedAt f.offset names (fs ++ [f]) = names f := by
  have none : fs.filter (·.offset = f.offset) = [] := by
    simpa [List.filter_eq_nil_iff] using hfs
  rw [namedAt, List.filter_append, none, List.nil_append]
  exact namedAt_singleton h

end NamedAt

namespace Failure

theorem Unrepeated.stampedBy (f : Failure κ) (e : Expectation κ) (whitespace : List (Matcher κ)) :
    (f.stampedBy e whitespace).Unrepeated :=
  ⟨nodup_orderedUnion _ _, nodup_orderedUnion _ _⟩

theorem Unrepeated.summarises {f : Failure κ} (h : f.Unrepeated) : f.Summarises [f] where
  attained := ⟨f, List.mem_singleton_self f, rfl⟩
  greatest f' hf' := Nat.le_of_eq (by rw [List.mem_singleton.mp hf'])
  expected := (namedAt_singleton h.expected).symm
  whitespace := (namedAt_singleton h.whitespace).symm

/-- The step: a summary that takes one more failure into account. -/
theorem Summarises.deepest {best f : Failure κ} {fs : List (Failure κ)} (h : best.Summarises fs)
    (hf : f.Unrepeated) : (Context.deepest (some best) f).Summarises (fs ++ [f]) := by
  rw [Context.deepest]
  by_cases hlt : best.offset < f.offset
  · -- it lies deeper, and nothing that was summed up lies there
    rw [if_pos hlt]
    have shallower : ∀ f' ∈ fs, f'.offset < f.offset := fun f' hf' => Nat.lt_of_le_of_lt (h.greatest f' hf') hlt
    have elsewhere : ∀ f' ∈ fs, f'.offset ≠ f.offset := fun f' hf' => Nat.ne_of_lt (shallower f' hf')
    refine ⟨⟨f, by simp, rfl⟩, fun f' hf' => ?_, ?_, ?_⟩
    · rcases List.mem_append.mp hf' with hf' | hf'
      · exact Nat.le_of_lt (shallower f' hf')
      · exact Nat.le_of_eq (by rw [List.mem_singleton.mp hf'])
    · exact (namedAt_append_of_forall_ne elsewhere hf.expected).symm
    · exact (namedAt_append_of_forall_ne elsewhere hf.whitespace).symm
  · rw [if_neg hlt]
    obtain ⟨f₀, hf₀, he₀⟩ := h.attained
    have greatest : ∀ f' ∈ fs ++ [f], f'.offset ≤ best.offset := by
      intro f' hf'
      rcases List.mem_append.mp hf' with hf' | hf'
      · exact h.greatest f' hf'
      · rw [List.mem_singleton.mp hf']
        exact Nat.le_of_not_lt hlt
    by_cases heq : f.offset = best.offset
    · -- it lies at the same offset and comes last in the union
      rw [if_pos heq]
      refine ⟨⟨f₀, by simp [hf₀], he₀⟩, greatest, ?_, ?_⟩
      · show orderedUnion best.expected f.expected = namedAt best.offset _ _
        rw [namedAt_append_of_eq heq, ← h.expected]
      · show orderedUnion best.whitespace f.whitespace = namedAt best.offset _ _
        rw [namedAt_append_of_eq heq, ← h.whitespace]
    · -- it lies before, where nothing is named
      rw [if_neg heq]
      refine ⟨⟨f₀, by simp [hf₀], he₀⟩, greatest, ?_, ?_⟩
      · rw [namedAt_append_of_ne heq]
        exact h.expected
      · rw [namedAt_append_of_ne heq]
        exact h.whitespace

/-- And all the way: merging failures one after another sums them up. -/
theorem Summarises.deepestOf {best : Failure κ} {fs gs : List (Failure κ)} (h : best.Summarises gs)
    (hfs : ∀ f ∈ fs, f.Unrepeated) : ∃ f, deepestOf (some best) fs = some f ∧ f.Summarises (gs ++ fs) := by
  induction fs generalizing best gs with
  | nil => exact ⟨best, rfl, by rwa [List.append_nil]⟩
  | cons f fs ih =>
    obtain ⟨hf, hfs⟩ := List.forall_mem_cons.mp hfs
    obtain ⟨f', hf', hs⟩ := ih (h.deepest hf) hfs
    exact ⟨f', hf', by rwa [List.append_assoc] at hs⟩

end Failure

theorem deepestOf_summarises {furthest : Option (Failure κ)} {fs : List (Failure κ)}
    (hbest : ∀ best, furthest = some best → best.Unrepeated) (hfs : ∀ f ∈ fs, f.Unrepeated) (hne : fs ≠ []) :
    ∃ f, deepestOf furthest fs = some f ∧ f.Summarises (furthest.toList ++ fs) := by
  cases furthest with
  | some best => exact (hbest best rfl).summarises.deepestOf hfs
  | none =>
    cases fs with
    | nil => exact absurd rfl hne
    | cons f fs =>
      obtain ⟨hf, hfs⟩ := List.forall_mem_cons.mp hfs
      exact hf.summarises.deepestOf hfs

/-! ## 2. Failures name nothing twice -/

/-- The law that failures name nothing twice, and that those of a rule that matches by itself name its matchers. -/
def unrepeated (g : Grammar κ) : Law κ where
  answer id v r := r.view.TailOf v ∧ ∀ f, r = .failed f →
    f.Unrepeated ∧ ∀ rule, g.rule? id = some rule → rule.body.leaves ⊆ f.expected
  halt _ := True

variable [CustomMatcher κ]

/-- A failure at the entry of a rule is stamped, and a union repeats nothing; one that lies deeper came from a rule
that was called. -/
theorem unrepeated_kept {g : Grammar κ} (hg : g.IsLibrary) : (unrepeated g).Kept g where
  tail h := h.1
  target hr h := by
    refine ⟨h.1, fun f hf => ⟨(h.2 f hf).1, fun rule hrule => ?_⟩⟩
    cases hr.symm.trans hrule
    exact List.nil_subset _
  reported := by
    intro id rule v r r' hrule hy hr
    refine ⟨?_, fun f' hf' => ?_⟩
    · rw [hr.view_eq]
      exact hy.tail And.left
    · subst hf'
      suffices h : f'.Unrepeated ∧ rule.body.leaves ⊆ f'.expected by
        refine ⟨h.1, fun rule' hrule' => ?_⟩
        cases hrule.symm.trans hrule'
        exact h.2
      cases hr with
      | entry he e whitespace =>
        refine ⟨.stampedBy _ _ _, fun m hm => mem_orderedUnion.mpr (Or.inr ?_)⟩
        cases hy with
        | entry => exact hm
        | passed hw h hb => simp [hb] at hm
        | allowing hw h hb => simp [hb] at hm
        | handWritten hb h => exact absurd (hg id rule hrule) (by simp [hb, Body.IsLibrary])
      | deeper he =>
        cases hy with
        | entry => exact absurd rfl he
        | passed hw h hb => exact ⟨(h.2 _ rfl).1, by simp [hb]⟩
        | allowing hw h hb => exact ⟨⟨(h.2 _ rfl).1.expected, nodup_orderedUnion _ _⟩, by simp [hb]⟩
        | handWritten hb h => exact absurd (hg id rule hrule) (by simp [hb, Body.IsLibrary])
  stops _ _ := trivial
  unresolved _ := trivial
  unfinished := trivial
  underived _ := trivial

/-! ## 3. The record sums up the run -/

/-- **The furthest failure sums up the run.** Let `L` be the failures that calls returned while failures were recorded,
in order, in a run that ends in any way. Without any, the record is the one before. Otherwise it is the summary of the
one before, if there was one, and of `L`; so whatever a rule that matches by itself expected at its offset is named.
The run with a log is the run itself, by the first part. -/
theorem Grammar.summarises_run {g : Grammar κ} (hg : g.IsLibrary) (fuel : Nat) (id : RuleId) (v : View)
    (s : ParseState κ) (hs : ∀ f, s.context.furthest = some f → f.Unrepeated) :
    let run := g.logged fuel id v (s, [])
    let log := (Logged.left run).2
    let furthest := (Logged.left run).1.context.furthest
    Logged.forget run = g.parse fuel id v s ∧
      (failures log = [] → furthest = s.context.furthest) ∧
      (failures log ≠ [] → ∃ f, furthest = some f ∧ f.Summarises (s.context.furthest.toList ++ failures log) ∧
        ∀ c ∈ log, ∀ f', c.failure? = some f' → f'.offset = f.offset →
          ∀ rule, g.rule? c.rule = some rule → rule.body.leaves ⊆ f.expected) := by
  intro run log furthest
  have tracks := (unrepeated_kept hg).tracks fuel id v s
  -- what the law says of a failure in the log
  have answers : ∀ c ∈ log, ∀ f, c.failure? = some f →
      f.Unrepeated ∧ ∀ rule, g.rule? c.rule = some rule → rule.body.leaves ⊆ f.expected := by
    intro c hc f hf
    exact ((tracks.obeys c hc).2 _ (Call.failure?_eq_some_iff.mp hf).1).2 f rfl
  refine ⟨g.forget_logged fuel id v s [], fun hnone => ?_, fun hsome => ?_⟩
  · show (Logged.left run).1.context.furthest = _
    rw [tracks.furthest_eq, show failures (Logged.left run).2 = [] from hnone]
    rfl
  · have unrepeated : ∀ f ∈ failures log, f.Unrepeated := by
      intro f hf
      obtain ⟨c, hc, hcf⟩ := List.mem_filterMap.mp hf
      exact (answers c hc f hcf).1
    obtain ⟨f, hf, hsum⟩ := deepestOf_summarises hs unrepeated hsome
    refine ⟨f, tracks.furthest_eq.trans hf, hsum, fun c hc f' hf' ho rule hrule m hm => ?_⟩
    rw [hsum.expected, mem_namedAt]
    exact ⟨f', List.mem_append_right _ (List.mem_filterMap.mpr ⟨c, hc, hf'⟩), ho, (answers c hc f' hf').2 rule hrule hm⟩

/-- A choice between two letters. -/
def eitherLetter : Grammar FixedMatcher where
  rules := #[⟨none, .token (.charClass ⟨.set (.between 'a' 'a'), "a", false⟩) none⟩,
    ⟨none, .capture (.charClass ⟨.set (.between 'b' 'b'), "b", false⟩)⟩, ⟨none, .either [0, 1]⟩]
  names := []
  customs := 0

/-- On another letter both branches fail, and a record that was there before stays in front. -/
theorem summarises_run_eitherLetter :
    let v := View.ofSource ⟨0, ['c']⟩
    let s : ParseState FixedMatcher := ⟨.fresh, none, 0, some ⟨v, [.endOfInput], []⟩, 0⟩
    let st := Logged.left (eitherLetter.logged 2 2 v (s, []))
    eitherLetter.IsLibrary ∧ (∀ f, s.context.furthest = some f → f.Unrepeated) ∧ (failures st.2).length = 3 ∧
      ∃ f, st.1.context.furthest = some f ∧ f.Summarises (s.context.furthest.toList ++ failures st.2) := by
  intro v s st
  have hg : eitherLetter.IsLibrary := by decide
  have hs : ∀ f, s.context.furthest = some f → f.Unrepeated := by
    intro f hf
    cases hf
    exact ⟨by simp, by simp⟩
  have hlength : (failures st.2).length = 3 := by rfl
  refine ⟨hg, hs, hlength, ?_⟩
  obtain ⟨f, hf, hsum, -⟩ := (Grammar.summarises_run hg 2 2 v s hs).2.2
    (List.ne_nil_of_length_pos (by show 0 < (failures st.2).length; rw [hlength]; decide))
  exact ⟨f, hf, hsum⟩

end Descent
