import Descent.Matcher.Fixed
import Descent.Proofs.Run.Success

/-!
# How a repetition ends

The loop of a repetition has two ways out. A run of the rule may fail, or it may succeed without moving on; in the
second case its value is still taken. `Rounds` is the row of the runs up to there, with the states between them, and
`rounds_of_runRepeated` says that what the loop gives comes from such a row.

Only when the loop is over are the values counted. If there are enough of them, the list of them is the result: a value
for each run that succeeded, in order. If there are too few, the outcome of the last run is passed on as that of the
repetition. That is a failure if the last run failed. But a last run that stood still has *succeeded*, and what it
produced is no list of occurrences (`Grammar.repeated_ends`). It takes a minimum of two for that, since a run that
stands still adds a value of its own.
-/

namespace Descent

variable {κ : Type}

/-- Runs of a rule one after another, each from where the one before it ended, up to the first that fails or does not
move on. The outcome of a run at a window and the state after it are given. Then come the values of all runs that
succeed, what the last one that moved on left, the outcome of the last run of all, and the state after it. -/
inductive Rounds (run : RuleId → View → Parse κ (Result κ)) (attempt : RuleId) :
    View → Result κ → ParseState κ → List (Value κ) → View → Result κ → ParseState κ → Prop where
  | failed {v f s} : Rounds run attempt v (.failed f) s [] v (.failed f) s
  | still {v x w s} (hw : w.start = v.start) : Rounds run attempt v (.parsed x w) s [x] v (.parsed x w) s
  | next {v x w s r s' xs rest last t} (hw : w.start ≠ v.start) (hrun : run attempt w s = .ok r s')
    (rounds : Rounds run attempt w r s' xs rest last t) :
    Rounds run attempt v (.parsed x w) s (x :: xs) rest last t

/-- The last run fails, or it succeeds where it began, with the last of the values. -/
theorem Rounds.last_eq {run : Runner κ} {attempt : RuleId} {v rest : View} {r last : Result κ} {s t : ParseState κ}
    {values : List (Value κ)} (rounds : Rounds run attempt v r s values rest last t) :
    (∃ f, last = .failed f) ∨ ∃ x w, last = .parsed x w ∧ w.start = rest.start ∧ values.getLast? = some x := by
  induction rounds with
  | @failed v f s => exact Or.inl ⟨f, rfl⟩
  | @still v x w s hw => exact Or.inr ⟨x, w, rfl, hw, rfl⟩
  | @next v x w s r s' xs rest last t hw hrun rounds ih =>
    refine ih.imp_right ?_
    rintro ⟨y, u, hlast, hu, hy⟩
    refine ⟨y, u, hlast, hu, ?_⟩
    rw [List.getLast?_cons, hy]
    rfl

/-- The loop of a repetition is a row of runs. -/
theorem rounds_of_runRepeated {run : Runner κ} {attempt : RuleId} {fuel : Nat} {values values' : List (Value κ)}
    {v rest : View} {r last : Result κ} {s t : ParseState κ}
    (h : runRepeated (run attempt) fuel values v r s = .ok (values', rest, last) t) :
    ∃ xs, values' = values ++ xs ∧ Rounds run attempt v r s xs rest last t := by
  induction fuel generalizing values v r s with
  | zero => cases h
  | succ fuel ih =>
    cases r with
    | failed f =>
      obtain ⟨hend, rfl⟩ := pure_eq_ok.mp h
      cases hend
      exact ⟨[], (List.append_nil _).symm, .failed⟩
    | parsed x w =>
      rw [runRepeated] at h
      split at h
      next hw =>
        obtain ⟨hend, rfl⟩ := pure_eq_ok.mp h
        cases hend
        exact ⟨[x], rfl, .still hw⟩
      next hw =>
        obtain ⟨r', s', hrun, h⟩ := bind_eq_ok.mp h
        obtain ⟨xs, rfl, rounds⟩ := ih h
        exact ⟨x :: xs, List.append_assoc values [x] xs, .next hw hrun rounds⟩

variable [DecidableEq κ] [CustomMatcher κ] {g : Grammar κ}

/-- The body of a repetition: runs up to the last, and then the count. -/
theorem Body.rounds_of_run_repeated {run : Runner κ} {first attempt : RuleId} {minimum : Int} {v : View}
    {r : Result κ} {s t : ParseState κ} (h : (Body.repeated first minimum attempt).run g run v s = .ok r t) :
    ∃ r₁ s₁ values rest last, run first v s = .ok r₁ s₁ ∧ Rounds run attempt v r₁ s₁ values rest last t ∧
      r = if (values.length : Int) < minimum then last else .parsed (.list values) rest := by
  obtain ⟨r₁, s₁, hfirst, h⟩ := bind_eq_ok.mp h
  obtain ⟨⟨values, rest, last⟩, u, hloop, h⟩ := bind_eq_ok.mp h
  obtain ⟨xs, hxs, rounds⟩ := rounds_of_runRepeated hloop
  rw [List.nil_append] at hxs
  subst hxs
  dsimp only at h
  split at h
  next hfew =>
    obtain ⟨rfl, rfl⟩ := pure_eq_ok.mp h
    exact ⟨r₁, s₁, values, rest, last, hfirst, rounds, (if_pos hfew).symm⟩
  next hmany =>
    obtain ⟨rfl, rfl⟩ := pure_eq_ok.mp h
    exact ⟨r₁, s₁, values, rest, last, hfirst, rounds, (if_neg hmany).symm⟩

/-- **A repetition ends in one of three ways.** With enough occurrences it succeeds with the list of their values, one
for each run that succeeded and in order. With too few of them it fails if its last run failed. If its last run stood
still, which with too few occurrences can only happen where two or more are asked for, it succeeds as that run did. -/
theorem Grammar.repeated_ends {id first attempt : RuleId} {label : Option String} {minimum : Int}
    (hr : g.rule? id = some ⟨label, .repeated first minimum attempt⟩) {fuel : Nat} {v : View} {r : Result κ}
    {s t : ParseState κ} (h : g.parse (fuel + 1) id v s = .ok r t) :
    ∃ r₁ s₁ values rest last u, g.parse fuel first v s = .ok r₁ s₁ ∧
      Rounds (g.parse fuel) attempt v r₁ s₁ values rest last u ∧
      ((minimum ≤ values.length ∧ r = .parsed (.list values) rest) ∨
        (values.length < minimum ∧ ∃ f f', last = .failed f ∧ r = .failed f' ∧ f'.rest = f.rest) ∨
        (values.length < minimum ∧ 2 ≤ minimum ∧ ∃ x w, last = .parsed x w ∧ w.start = rest.start ∧
          values.getLast? = some x ∧ r = .parsed x w)) := by
  obtain ⟨r₀, u, hbody, hreported⟩ := parse_reports hr nofun h
  obtain ⟨r₁, s₁, values, rest, last, hfirst, rounds, hclosed⟩ := Body.rounds_of_run_repeated hbody
  refine ⟨r₁, s₁, values, rest, last, u, hfirst, rounds, ?_⟩
  rcases Int.lt_or_le values.length minimum with hfew | hmany
  · rw [if_pos hfew] at hclosed
    subst hclosed
    rcases rounds.last_eq with ⟨f, rfl⟩ | ⟨x, w, rfl, hw, hx⟩
    · obtain ⟨f', rfl, hrest⟩ := hreported
      exact Or.inr (Or.inl ⟨hfew, f, f', rfl, rfl, hrest⟩)
    · -- the run that stood still is among the occurrences
      have hne : values ≠ [] := fun he => nomatch he ▸ hx
      have := List.length_pos_iff.mpr hne
      exact Or.inr (Or.inr ⟨hfew, by omega, x, w, rfl, hw, hx, hreported⟩)
  · rw [if_neg (Int.not_lt.mpr hmany)] at hclosed
    subst hclosed
    exact Or.inl ⟨hmany, hreported⟩

/-- One letter or more, and two letters that may each be left out. -/
def letterRows : Grammar FixedMatcher where
  rules := #[⟨none, .token (.literal "x" true) none⟩, ⟨none, .repeated 0 1 0⟩, ⟨none, .optional 0 .none⟩,
    ⟨none, .repeated 2 2 2⟩]
  names := []
  customs := 0

/-- Two letters are two occurrences: two runs that succeed, and a third that fails. -/
theorem repeated_ends_letterRows :
    letterRows.rule? 1 = some ⟨none, .repeated 0 1 0⟩ ∧
      ∃ rest t, letterRows.parse 3 1 (.ofSource ⟨0, ['x', 'x']⟩) ⟨.fresh, .fresh none 0⟩ =
          .ok (.parsed (.list [.str "x", .str "x"]) rest) t ∧
        ∃ r₁ s₁ last u, letterRows.parse 2 0 (.ofSource ⟨0, ['x', 'x']⟩) ⟨.fresh, .fresh none 0⟩ = .ok r₁ s₁ ∧
          Rounds (letterRows.parse 2) 0 (.ofSource ⟨0, ['x', 'x']⟩) r₁ s₁ [.str "x", .str "x"] rest last u := by
  have computed : ∃ rest t, letterRows.parse 3 1 (.ofSource ⟨0, ['x', 'x']⟩) ⟨.fresh, .fresh none 0⟩ =
      .ok (.parsed (.list [.str "x", .str "x"]) rest) t := ⟨_, _, rfl⟩
  obtain ⟨rest, t, h⟩ := computed
  have hr : letterRows.rule? 1 = some ⟨none, .repeated 0 1 0⟩ := rfl
  refine ⟨hr, rest, t, h, ?_⟩
  obtain ⟨r₁, s₁, values, _, last, u, hfirst, rounds, hends⟩ := Grammar.repeated_ends hr h
  rcases hends with ⟨-, hr⟩ | ⟨-, f, f', -, hr, -⟩ | ⟨-, hminimum, -⟩
  · cases hr
    exact ⟨r₁, s₁, last, u, hfirst, rounds⟩
  · cases hr
  · exact absurd hminimum (by decide)

/-- On an empty text two letters that may each be left out succeed, and what they give is no list. -/
theorem letterRows_short :
    ∃ r t, letterRows.parse 4 3 (.ofSource ⟨0, []⟩) ⟨.fresh, .fresh none 0⟩ = .ok r t ∧
      (∀ f, r ≠ .failed f) ∧ ∀ values rest, r ≠ .parsed (.list values) rest :=
  ⟨_, _, rfl, nofun, nofun⟩

end Descent
