import Descent.Matcher.Fixed
import Descent.Proofs.Peg.Simulation

/-!
# Diagnostics are inert

What a run of a grammar of the library ends in is what the grammar gives: the verdict, the value, what is left, and
where it failed are those of the relation, which knows the grammar, the policy and the window and nothing else
(`diagnostics_inert`). Expectations that were kept, failures on record, recording that is suspended and messages that
are logged may be as they will; none of them changes how a run ends, only what it says of its failures.

Two things can go wrong with a run that the relation does not speak of. It may run out of fuel, which is no verdict.
And the placeholders of the grammar may stand for one another in a circle, so that a derivation would not end; this too
is no verdict, and cannot happen in a guarded grammar.
-/

namespace Descent

variable {κ : Type}

/-- The verdict that a run ends in, if it ends. -/
def Parse.verdict? : EStateM.Result Stop (ParseState κ) (Result κ) → Option (Verdict κ)
  | .ok r _ => some (.ok r.ending)
  | .error (.fault e) _ => some (.error e)
  | .error .unfinished _ => none

/-- A grammar whose placeholders stand for one another in a circle may ask for a derivation that does not end. -/
def Grammar.Endless (g : Grammar κ) (e : Fault) : Prop := ¬ g.IsGuarded ∧ e = .endlessDerivation

section Inert

variable [DecidableEq κ] {g : Grammar κ} {P : Option RuleId} {id : RuleId} {v : View}

/-- All that can go wrong with a derivation, whatever was kept and whatever is marked. -/
theorem Grammar.expectation_endless (hg : g.IsLibrary) (hclosed : g.IsClosed) (hid : id < g.rules.size)
    (d : Derivation κ) : Ensures (g.expectation id) d (fun _ _ => True) fun e _ => g.Endless e := by
  by_cases hguarded : g.IsGuarded
  · obtain ⟨e, d', h⟩ := expectation_total hg hclosed hguarded hid d
    unfold Ensures
    rw [h]
    trivial
  · exact (expectation_fault hg hclosed hid d).imp (fun _ _ h => h) fun _ _ he => ⟨hguarded, he⟩

variable [CustomMatcher κ]

/-- From any state with the policy, a run and the evaluation with the same fuel end alike or both run out, unless the
run asks for a derivation that does not end. -/
theorem Grammar.verdict_eval (hg : g.IsLibrary) (hclosed : g.IsClosed) (hP : g.Has P) (hid : id < g.rules.size)
    (fuel : Nat) (s : ParseState κ) (hs : s.context.whitespace = P) :
    (∃ e, g.Endless e ∧ Parse.verdict? (g.parse fuel id v s) = some (.error e)) ∨
      ∀ y, Parse.verdict? (g.parse fuel id v s) = some y ↔ g.eval fuel P id v = Verdict.outcome y := by
  have run := parse_follows hclosed (fun id hid => expectation_endless hg hclosed hid) fuel P id v s hP hid hs
  unfold Ensures at run
  cases hx : g.parse fuel id v s with
  | ok r t =>
    simp only [hx] at run
    rw [run.1]
    refine Or.inr fun y => ?_
    cases y <;> simp [Parse.verdict?, Verdict.outcome]
  | error why t =>
    simp only [hx] at run
    obtain ⟨e, rfl, he⟩ | hwhy := run.1
    · exact Or.inl ⟨e, he, rfl⟩
    · rw [hwhy]
      refine Or.inr fun y => ?_
      cases why <;> cases y <;> simp [Parse.verdict?, Verdict.outcome]

/-- **Diagnostics are inert.** The verdict of a run is given by the grammar, the policy and the window, which give one
verdict at most; what is given is the verdict of every run with enough fuel; and a run from another state with the same
policy ends alike. The states may differ in all else: the furthest failure, whether it is recorded, how much is logged,
the expectations that were kept. Only in a grammar whose placeholders stand for one another in a circle may a run fail
to end for a derivation that does not. -/
theorem Grammar.diagnostics_inert (hg : g.IsLibrary) (hclosed : g.IsClosed) (hP : g.Has P) (hid : id < g.rules.size)
    (v : View) :
    (∀ fuel s, s.context.whitespace = P → ∀ y, Parse.verdict? (g.parse fuel id v s) = some y →
      g.Gives P (.rule id) v y ∨ ∃ e, g.Endless e ∧ y = .error e) ∧
    (∀ y, g.Gives P (.rule id) v y →
      (∀ y', g.Gives P (.rule id) v y' → y' = y) ∧
      ∃ n, ∀ fuel ≥ n, ∀ s, s.context.whitespace = P →
        Parse.verdict? (g.parse fuel id v s) = some y ∨
          ∃ e, g.Endless e ∧ Parse.verdict? (g.parse fuel id v s) = some (.error e)) ∧
    (∀ fuel s s', s.context.whitespace = P → s'.context.whitespace = P →
      Parse.verdict? (g.parse fuel id v s) = Parse.verdict? (g.parse fuel id v s') ∨
        ∃ e, g.Endless e ∧ (Parse.verdict? (g.parse fuel id v s) = some (.error e) ∨
          Parse.verdict? (g.parse fuel id v s') = some (.error e))) := by
  have alike := fun fuel s hs => verdict_eval (v := v) hg hclosed hP hid fuel s hs
  refine ⟨fun fuel s hs y hy => ?_, fun y hgives => ⟨fun y' hgives' => hgives'.unique hgives, ?_⟩,
    fun fuel s s' hs hs' => ?_⟩
  · rcases alike fuel s hs with ⟨e, he, hrun⟩ | heval
    · exact Or.inr ⟨e, he, Option.some.inj (hy.symm.trans hrun)⟩
    · exact Or.inl (g.eval_sound fuel ((heval y).mp hy))
  · obtain ⟨n, hn⟩ := Filter.eventually_atTop.mp (hgives.finds trivial)
    refine ⟨n, fun fuel hfuel s hs => ?_⟩
    rcases alike fuel s hs with hend | heval
    · exact Or.inr hend
    · exact Or.inl ((heval y).mpr (hn fuel hfuel))
  · -- both runs end as the one evaluation does
    rcases alike fuel s hs with ⟨e, he, hrun⟩ | heval
    · exact Or.inr ⟨e, he, Or.inl hrun⟩
    rcases alike fuel s' hs' with ⟨e, he, hrun⟩ | heval'
    · exact Or.inr ⟨e, he, Or.inr hrun⟩
    · exact Or.inl (Option.ext fun y => (heval y).trans (heval' y).symm)

end Inert

/-- A letter after ambient whitespace, or the end of the input; whitespace is at most one blank, and a placeholder
stands for the choice. -/
def spaced : Grammar FixedMatcher where
  rules := #[⟨none, .token (.charClass ⟨.set (.between ' ' ' '), " ", false⟩) none⟩,
    ⟨none, .capture (.charClass ⟨.set (.between 'b' 'b'), "b", false⟩)⟩, ⟨none, .skipping 1⟩,
    ⟨none, .token .endOfInput none⟩, ⟨none, .either [2, 3]⟩, ⟨none, .placeholder (some 4)⟩]
  names := []
  customs := 0

/-- Between two runs a failure is on record, recording is suspended and the expectation of a rule is kept; the letter
is given all the same. -/
theorem diagnostics_inert_spaced :
    let v := View.ofSource ⟨0, [' ', 'b']⟩
    let s : ParseState FixedMatcher :=
      ⟨⟨[(1, ⟨[.endOfInput], [], true⟩)], [], 0, false⟩, some 0, 2, some ⟨v, [.endOfInput], []⟩, 1⟩
    let y : Verdict FixedMatcher := .ok (.parsed (.view ⟨v.source, 1, 2, by decide, by decide⟩)
      ⟨v.source, 2, 2, by decide, by decide⟩)
    spaced.IsLibrary ∧ spaced.IsClosed ∧ spaced.Has (some 0) ∧ 5 < spaced.rules.size ∧
      Parse.verdict? (spaced.parse 4 5 v s) = some y ∧ spaced.Gives (some 0) (.rule 5) v y := by
  intro v s y
  have hg : spaced.IsLibrary := by decide
  have hclosed : spaced.IsClosed := by decide
  have hP : spaced.Has (some 0) := by
    rintro p ⟨⟩
    decide
  have hrun : Parse.verdict? (spaced.parse 4 5 v s) = some y := rfl
  refine ⟨hg, hclosed, hP, by decide, hrun, ?_⟩
  obtain ⟨hsound, -, -⟩ := Grammar.diagnostics_inert hg hclosed hP (by decide : 5 < _) v
  rcases hsound 4 s rfl y hrun with hgives | ⟨e, -, he⟩
  · exact hgives
  · exact nomatch he

end Descent
