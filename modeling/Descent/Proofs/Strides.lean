import Descent.Matcher.Fixed
import Descent.Proofs.Repetition
import Descent.Proofs.Run.PassedOn
import Descent.Proofs.Window

/-!
# Repetitions are greedy

A repetition goes through its window in strides: runs that succeed and move on, each from where the one before it ended.
It halts at the first run that fails or stands still, and it goes on from the end of the last stride, so that whatever
the run that failed had taken by then, whitespace included, is given back. `Strides` is the row of strides with the
states between them, and the rounds of a loop are such a row (`Rounds.collects`). Every stride shortens the window, so
there are no more of them than it has characters and **the loop itself never runs out of fuel**: a repetition that does
not end is inside of a run that does not end (`runRepeated_breaksOff`).

That a repetition fails means that its first run has failed, if one occurrence is all that is asked for. It reports that
failure in its turn, which may change the order of what is expected, and changes nothing else
(`Grammar.repetition_greedy`).
-/

namespace Descent

variable {κ : Type}

/-! ## 1. Strides -/

/-- Runs that succeed and move on, the first one of a rule and the others of `attempt`, each from where the one before it
ended. The places where they end and their values are given, and then the rule that is to be run next, the window to run
it at, and the state by then. -/
inductive Strides (run : Runner κ) (attempt : RuleId) : RuleId → View → ParseState κ → List Nat → List (Value κ) →
    RuleId → View → ParseState κ → Prop
  | here {id v s} : Strides run attempt id v s [] [] id v s
  | stride {id v s x w u offsets values next rest t} (hrun : run id v s = .ok (.parsed x w) u)
    (hw : v.start < w.start) (others : Strides run attempt attempt w u offsets values next rest t) :
    Strides run attempt id v s (w.start :: offsets) (x :: values) next rest t

/-- What the run at which a repetition halts adds to its values: nothing if it fails, and its value if it stands still. -/
inductive Result.HaltsAt (rest : View) : Result κ → List (Value κ) → Prop
  | failed (f : Failure κ) : HaltsAt rest (.failed f) []
  | still (x : Value κ) (w : View) (hw : w.start = rest.start) : HaltsAt rest (.parsed x w) [x]

namespace Strides

variable {run : Runner κ} {attempt id next : RuleId} {v rest : View} {s t : ParseState κ} {offsets : List Nat}
  {values : List (Value κ)}

/-- Strides end further and further on. -/
theorem isChain (h : Strides run attempt id v s offsets values next rest t) : (v.start :: offsets).IsChain (· < ·) := by
  induction h with
  | here => simp
  | stride _ hw _ ih => simp [hw, ih]

/-- The repetition goes on from where the last stride ended. -/
theorem getLast_eq (h : Strides run attempt id v s offsets values next rest t) :
    (v.start :: offsets).getLast (List.cons_ne_nil _ _) = rest.start := by
  induction h with
  | here => rfl
  | stride _ _ _ ih => simpa using ih

/-- Every stride takes a character at least. -/
theorem add_length_le (h : Strides run attempt id v s offsets values next rest t) :
    v.start + values.length ≤ rest.start := by
  induction h with
  | here => simp
  | stride _ hw _ ih =>
    simp only [List.length_cons]
    omega

theorem tailOf (hrun : ∀ id v s r t, run id v s = .ok r t → r.view.TailOf v)
    (h : Strides run attempt id v s offsets values next rest t) : rest.TailOf v := by
  induction h with
  | here => rfl
  | stride h _ _ ih => exact ih.trans (hrun _ _ _ _ _ h)

end Strides

/-- The run at which a repetition halts adds one value at most. -/
theorem Result.HaltsAt.length_le {rest : View} {last : Result κ} {added : List (Value κ)}
    (h : last.HaltsAt rest added) : added.length ≤ 1 := by
  cases h with
  | failed f => exact Nat.zero_le 1
  | still x w hw => exact Nat.le_refl 1

/-! ## 2. The loop -/

section Loop

variable {run : Runner κ} {attempt id : RuleId} {v : View} {s : ParseState κ}

/-- What a repetition comes to: strides, and a run at which it halts. Its values are those of the strides, and what that
run adds to them; the rest is where the last stride ended. -/
def Collects (run : Runner κ) (attempt id : RuleId) (v : View) (s : ParseState κ) (values : List (Value κ))
    (rest : View) (last : Result κ) (t : ParseState κ) : Prop :=
  ∃ offsets taken added next u, Strides run attempt id v s offsets taken next rest u ∧ run next rest u = .ok last t ∧
    last.HaltsAt rest added ∧ values = taken ++ added

/-- How a repetition is broken off: strides, and a run that ends without a result. -/
def BreaksOff (run : Runner κ) (attempt id : RuleId) (v : View) (s : ParseState κ) (why : Stop) (t : ParseState κ) :
    Prop :=
  ∃ offsets taken next rest u, Strides run attempt id v s offsets taken next rest u ∧ run next rest u = .error why t

/-- Without values, the first run has failed. -/
theorem Collects.failed {rest : View} {last : Result κ} {t : ParseState κ}
    (h : Collects run attempt id v s [] rest last t) :
    ∃ f, last = .failed f ∧ rest = v ∧ run id v s = .ok (.failed f) t := by
  obtain ⟨offsets, taken, added, next, u, strides, hlast, hhalts, hvalues⟩ := h
  obtain ⟨rfl, rfl⟩ := List.append_eq_nil_iff.mp hvalues.symm
  cases strides
  cases hhalts with
  | failed f => exact ⟨f, rfl, rfl, hlast⟩

variable (hrun : ∀ id v s r t, run id v s = .ok r t → r.view.TailOf v)

include hrun

/-- **The rounds of a loop are strides**, up to the run at which it halts. -/
theorem Rounds.collects {values : List (Value κ)} {rest : View} {r last : Result κ} {t u : ParseState κ}
    (rounds : Rounds run attempt v r t values rest last u) (h : run id v s = .ok r t) :
    Collects run attempt id v s values rest last u := by
  induction rounds generalizing id s with
  | @failed v f t => exact ⟨[], [], [], id, s, .here, h, .failed f, rfl⟩
  | @still v x w t hw => exact ⟨[], [], [x], id, s, .here, h, .still x w hw, rfl⟩
  | @next v x w t r u xs rest last u' hw hnext _ ih =>
    have hlt : v.start < w.start := Nat.lt_of_le_of_ne (hrun _ _ _ _ _ h).2.2 (Ne.symm hw)
    obtain ⟨offsets, taken, added, next, u₁, strides, hlast, hhalts, rfl⟩ := ih hnext
    exact ⟨w.start :: offsets, x :: taken, added, next, u₁, .stride h hlt strides, hlast, hhalts, rfl⟩

/-- With fuel for each character of the window, a loop is broken off by a run only. A stride is a character less. -/
theorem runRepeated_breaksOff {fuel : Nat} {values : List (Value κ)} {r : Result κ} {t : ParseState κ}
    (h : run id v s = .ok r t) (hfuel : v.length < fuel) :
    Ensures (runRepeated (run attempt) fuel values v r) t (fun _ _ => True) (BreaksOff run attempt id v s) := by
  induction fuel generalizing values id v s r t with
  | zero => exact absurd hfuel (Nat.not_lt_zero _)
  | succ fuel ih =>
    cases r with
    | failed f => exact trivial
    | parsed x w =>
      rw [runRepeated]
      split
      next => exact trivial
      next hw =>
        have htail : w.TailOf v := hrun _ _ _ _ _ h
        have hlt : v.start < w.start := Nat.lt_of_le_of_ne htail.2.2 (Ne.symm hw)
        have hlength := htail.length_lt hw
        rw [ensures_bind]
        refine (ensures_self (run attempt w) t).imp (fun r u hr => ?_) fun why u hwhy => ?_
        · refine (ih hr (by omega)).imp (fun _ _ _ => trivial) ?_
          rintro why t' ⟨offsets, taken, next, rest, u', strides, hwhy⟩
          exact ⟨w.start :: offsets, x :: taken, next, rest, u', .stride h hlt strides, hwhy⟩
        · exact ⟨[w.start], [x], attempt, w, t, .stride h hlt .here, hwhy⟩

variable [DecidableEq κ] [CustomMatcher κ] {g : Grammar κ}

/-- The body of a repetition is broken off by a run, or its values are collected and counted. -/
theorem Body.ensures_run_repeated {minimum : Int} :
    Ensures ((Body.repeated id minimum attempt).run g run v) s
      (fun r t => ∃ values rest last, Collects run attempt id v s values rest last t ∧
        r = if (values.length : Int) < minimum then last else .parsed (.list values) rest)
      (BreaksOff run attempt id v s) := by
  have broken : Ensures ((Body.repeated id minimum attempt).run g run v) s (fun _ _ => True)
      (BreaksOff run attempt id v s) := by
    rw [Body.run, ensures_bind]
    refine (ensures_self (run id v) s).imp (fun r t h => ?_) fun why t h => ⟨[], [], id, v, s, .here, h⟩
    rw [ensures_bind]
    refine (runRepeated_breaksOff hrun h (Nat.lt_succ_self v.length)).imp_ok fun out t _ => ?_
    dsimp only
    split <;> exact trivial
  refine ((ensures_self _ s).and broken).imp (fun r t h => ?_) fun _ _ h => h.2
  obtain ⟨r₁, s₁, values, rest, last, hfirst, rounds, hclosed⟩ := Body.rounds_of_run_repeated h.1
  exact ⟨values, rest, last, rounds.collects hrun hfirst, hclosed⟩

end Loop

/-! ## 3. Repetitions -/

variable [DecidableEq κ] [CustomMatcher κ] {g : Grammar κ}

/-- **Repetitions are greedy, and they end.** A repetition that asks for one occurrence at most fails only if it asks for
one and its first run fails; it passes the failure of that run on. Otherwise it goes in strides, each further on than the
one before, up to the first run that fails or stands still. Its values are those of the runs in order, at most one more
than it has moved on by, and it goes on from the end of the last stride. There is no other way for it to be without a
result than that one of its runs is. -/
theorem Grammar.repetition_greedy (hg : g.IsLibrary) {id first attempt : RuleId} {label : Option String} {minimum : Int}
    (hr : g.rule? id = some ⟨label, .repeated first minimum attempt⟩) (hminimum : minimum ≤ 1) (fuel : Nat) (v : View)
    (s : ParseState κ) (hs : g.Asked s.derivation) :
    Ensures (g.parse (fuel + 1) id v) s
      (fun r t =>
        (minimum = 1 ∧ ∃ f u f', g.parse fuel first v s = .ok (.failed f) u ∧ r = .failed f' ∧
          g.PassesOn v s.derivation f f') ∨
        ∃ offsets taken added next rest u last, Strides (g.parse fuel) attempt first v s offsets taken next rest u ∧
          g.parse fuel next rest u = .ok last t ∧ last.HaltsAt rest added ∧
          r = .parsed (.list (taken ++ added)) rest ∧ rest.TailOf v ∧ (v.start :: offsets).IsChain (· < ·) ∧
          (v.start :: offsets).getLast (List.cons_ne_nil _ _) = rest.start ∧
          minimum ≤ (taken ++ added).length ∧ (taken ++ added).length ≤ rest.start - v.start + 1)
      (BreaksOff (g.parse fuel) attempt first v s) := by
  have hrun (id : RuleId) (v : View) (s : ParseState κ) (r : Result κ) (t : ParseState κ)
      (h : g.parse fuel id v s = .ok r t) : r.view.TailOf v := ((g.parse_window fuel id v s).ok h).1
  have hproper : g.Proper id ⟨label, .repeated first minimum attempt⟩ := ⟨hr, nofun⟩
  rw [Grammar.parse_rule hr nofun, ensures_bind]
  refine (Body.ensures_run_repeated hrun).imp_ok ?_
  rintro r t ⟨values, rest, last, hcollects, rfl⟩
  by_cases hfew : (values.length : Int) < minimum
  · -- there is no value, so the first run has failed
    obtain rfl : values = [] := List.length_eq_zero_iff.mp (by omega)
    obtain ⟨f, rfl, rfl, hfirst⟩ := hcollects.failed
    obtain ⟨f', t', hreport, hpasses⟩ := g.report_passesOn hg hproper rfl hs hfirst (g.parse fuel)
    rw [if_pos hfew, Ensures, hreport]
    refine Or.inl ⟨?_, f, t, f', hfirst, rfl, hpasses⟩
    rw [List.length_nil] at hfew
    omega
  · obtain ⟨offsets, taken, added, next, u, strides, hlast, hhalts, rfl⟩ := hcollects
    have hlength := strides.add_length_le
    have hadded := hhalts.length_le
    rw [if_neg hfew]
    refine Or.inr ⟨offsets, taken, added, next, rest, u, last, strides, hlast, hhalts, rfl, strides.tailOf hrun,
      strides.isChain, strides.getLast_eq, Int.not_lt.mp hfew, ?_⟩
    rw [List.length_append]
    omega

/-- One letter or more, with blanks that may be skipped before each but the first. -/
def spacedLetter : Grammar FixedMatcher where
  rules := #[⟨none, .token (.literal "x" true) none⟩, ⟨none, .skipping 0⟩, ⟨none, .repeated 0 1 1⟩,
    ⟨none, .token (.literal " " true) none⟩]
  names := []
  customs := 0

/-- The blank before a letter that is none of them was skipped, and is given back. -/
theorem repetition_greedy_spacedLetter :
    let v := View.ofSource ⟨0, ['x', ' ', 'x', ' ', 'y']⟩
    let s : ParseState FixedMatcher := ⟨.fresh, .fresh (some 3) 0⟩
    spacedLetter.IsLibrary ∧ spacedLetter.rule? 2 = some ⟨none, .repeated 0 1 1⟩ ∧ spacedLetter.Asked s.derivation ∧
      ∃ values offsets rest t, spacedLetter.parse 3 2 v s = .ok (.parsed (.list values) rest) t ∧ rest.start = 3 ∧
        (0 :: offsets).IsChain (· < ·) ∧ (0 :: offsets).getLast (List.cons_ne_nil _ _) = 3 ∧
        1 ≤ values.length ∧ values.length ≤ 4 := by
  intro v s
  have hg : spacedLetter.IsLibrary := by decide
  have hr : spacedLetter.rule? 2 = some ⟨none, .repeated 0 1 1⟩ := rfl
  have hs : spacedLetter.Asked s.derivation := .fresh spacedLetter
  refine ⟨hg, hr, hs, ?_⟩
  obtain ⟨_, t, hx, x, w, rfl, hthree⟩ := Ensures.exists_ok (x := spacedLetter.parse 3 2 v) (s := s)
    (Q := fun r _ => ∃ x w, r = .parsed x w ∧ w.start = 3) (by decide +kernel)
  have greedy := (Grammar.repetition_greedy hg hr (Int.le_refl 1) 2 v s hs).ok hx
  rcases greedy with ⟨-, f, u, f', -, h, -⟩ | ⟨offsets, taken, added, next, rest, u, last, -, -, -, h, -, hchain,
    hlast, hmany, hfew⟩
  · cases h
  · cases h
    rw [hthree] at hlast hfew
    exact ⟨taken ++ added, offsets, w, t, hx, hthree, hchain, hlast, Int.ofNat_le.mp hmany, hfew⟩

/-- A letter that may come after the rule itself, or after another letter, and a repetition of that. -/
def leftRecursive : Grammar FixedMatcher where
  rules := #[⟨none, .placeholder (some 7)⟩, ⟨none, .token (.literal "" true) none⟩,
    ⟨none, .token (.literal "c" true) none⟩, ⟨none, .either [1, 0, 2]⟩, ⟨none, .token (.literal "a" true) none⟩,
    ⟨none, .sequence [3, 4]⟩, ⟨none, .token (.literal "b" true) none⟩, ⟨none, .either [5, 6]⟩,
    ⟨none, .repeated 7 1 7⟩]
  names := []
  customs := 0

/-- Asked for first, the repetition was answered from inside of the circle. Its first run names the same matchers in
another order, and so the repetition does not fail with exactly that failure. -/
theorem repetition_reorders :
    let v := View.ofSource ⟨0, ['d']⟩
    let c : Context FixedMatcher := .fresh none 0
    ∃ e d f t f' t', leftRecursive.expectation 8 .fresh = .ok e d ∧
      leftRecursive.parse 9 7 v ⟨d, c⟩ = .ok (.failed f) t ∧
      leftRecursive.parse 10 8 v ⟨d, c⟩ = .ok (.failed f') t' ∧ f' ≠ f ∧
      f.expected = [.literal "" true, .literal "b" true, .literal "c" true] ∧
      f'.expected = [.literal "" true, .literal "c" true, .literal "b" true] := by
  intro v c
  obtain ⟨e, d, he, hfirst, hagain⟩ := Ensures.exists_ok (x := leftRecursive.expectation 8) (s := .fresh)
    (Q := fun _ d => Ensures (leftRecursive.parse 9 7 v) ⟨d, c⟩ (fun r _ => ∃ f, r = .failed f ∧
        f.expected = [.literal "" true, .literal "b" true, .literal "c" true]) (fun _ _ => False) ∧
      Ensures (leftRecursive.parse 10 8 v) ⟨d, c⟩ (fun r _ => ∃ f, r = .failed f ∧
        f.expected = [.literal "" true, .literal "c" true, .literal "b" true]) fun _ _ => False) (by decide +kernel)
  obtain ⟨_, t, h, f, rfl, hf⟩ := hfirst.exists_ok
  obtain ⟨_, t', h', f', rfl, hf'⟩ := hagain.exists_ok
  refine ⟨e, d, f, t, f', t', he, h, h', ?_, hf, hf'⟩
  rintro rfl
  exact absurd (hf.symm.trans hf') (by decide)

end Descent
