import Descent.Proofs.Matcher.Runs
import Descent.Proofs.Matcher.Slice

/-!
# Runs taken occurrence by occurrence

A matcher that cannot take a run of itself at once is asked again and again, each time where its last occurrence ended,
until it does not match or takes nothing. It may be anybody's matcher. All that the loop relies on is that the matcher
keeps to its slice: that it comes to an answer on the parts of the window, and that what it takes is the beginning of
such a part (`Matcher.KeepsSlice`).

Then **the loop ends, and it takes all that it could** (`Matcher.repeated_maximal`). Every occurrence that it goes on
from has taken a character at least, so that it is asked no more often than there are characters. What it has taken
is a row of occurrences side by side (`Matcher.Occurs`), and behind them there is none that would take anything. So a
run that is sought there once more is not found.
-/

namespace Descent

variable {κ : Type} [CustomMatcher κ]

namespace Matcher

/-! ## 1. Occurrences -/

/-- On every tail of a window the matcher comes to an answer, and its span begins where the tail does and ends inside
it. -/
def KeepsSlice (m : Matcher κ) (v : View) : Prop :=
  ∀ w, w.TailOf v → ∃ found, m.run w = .ok found ∧
    ∀ span, found = some span → span.start = w.start ∧ (w.start : Int) ≤ span.stop ∧ span.stop ≤ w.stop

/-- Occurrences of a matcher that lie side by side, each of which takes something: the window where the first one
begins, the offsets where they end, and what the last one leaves. -/
inductive Occurs (m : Matcher κ) : View → List Nat → View → Prop
  | here {v : View} : Occurs m v [] v
  | next {v w rest : View} {offsets : List Nat} (hrun : m.run v = .ok (some ⟨v.start, w.start⟩)) (htail : w.TailOf v)
    (hlt : v.start < w.start) (others : Occurs m w offsets rest) : Occurs m v (w.start :: offsets) rest

variable {m : Matcher κ} {v rest : View} {offsets : List Nat}

/-- A matcher of the library keeps to its slice, if its engine answers. -/
theorem EngineAnswers.keepsSlice (h : m.EngineAnswers) (hm : m.custom? = none) (v : View) : m.KeepsSlice v := by
  intro w _
  obtain ⟨width, hwidth⟩ := h.exists_width w.chars
  refine ⟨width.map (Span.ofWidth w), by rw [run_eq_width hm w, hwidth]; rfl, ?_⟩
  intro span hspan
  obtain ⟨n, rfl, rfl⟩ := Option.map_eq_some_iff.mp hspan
  have hle := width?_le_length hwidth
  have hends := w.start_le_stop
  rw [View.length_chars, View.length] at hle
  refine ⟨rfl, ?_, ?_⟩
  · show (w.start : Int) ≤ w.start + n
    omega
  · show (w.start : Int) + n ≤ w.stop
    omega

namespace Occurs

/-- Occurrences end further and further on. -/
theorem isChain (h : m.Occurs v offsets rest) : (v.start :: offsets).IsChain (· < ·) := by
  induction h with
  | here => simp
  | next _ _ hlt _ ih => simp [hlt, ih]

theorem getLast_eq (h : m.Occurs v offsets rest) :
    (v.start :: offsets).getLast (List.cons_ne_nil _ _) = rest.start := by
  induction h with
  | here => rfl
  | next _ _ _ _ ih => simpa using ih

theorem tailOf (h : m.Occurs v offsets rest) : rest.TailOf v := by
  induction h with
  | here => rfl
  | next _ htail _ _ ih => exact ih.trans htail

theorem start_lt (h : m.Occurs v offsets rest) (hne : offsets ≠ []) : v.start < rest.start := by
  cases h with
  | here => exact absurd rfl hne
  | next _ _ hlt others => exact Nat.lt_of_lt_of_le hlt others.tailOf.2.2

end Occurs

/-! ## 2. The loop -/

/-- The step: where a matcher keeps to its slice, a loop over it ends here or is moved on by an occurrence. -/
theorem KeepsSlice.stops_or_moves (h : m.KeepsSlice v) (hrest : rest.TailOf v) :
    m.Stops rest ∨ ∃ w, m.run rest = .ok (some ⟨rest.start, w.start⟩) ∧ w.TailOf rest ∧ rest.start < w.start ∧
      v.advanceTo w.start = .ok w := by
  obtain ⟨found, hrun, hspan⟩ := h rest hrest
  cases found with
  | none => exact .inl (.inl hrun)
  | some span =>
    obtain ⟨hstart, hlow, hhigh⟩ := hspan span rfl
    by_cases hstop : span.stop = rest.start
    · exact .inl (.inr ⟨span, hrun, hstop⟩)
    · obtain ⟨n, hn⟩ := Int.eq_ofNat_of_zero_le (Int.le_trans (Int.natCast_nonneg rest.start) hlow)
      obtain ⟨hsource, hend, hbegin⟩ := hrest
      have hv : v.start ≤ n := by omega
      have hv' : n ≤ v.stop := by omega
      have hcut : v.split n = .ok (v.cut n hv hv') := View.split_eq_ok_iff.mpr ⟨n, hv, hv', rfl, rfl⟩
      refine .inr ⟨(v.cut n hv hv').2, ?_, ⟨hsource.symm, hend.symm, ?_⟩, ?_, ?_⟩
      · have hspan : span = ⟨rest.start, n⟩ := by
          cases span
          simp_all
        rw [hrun, hspan]
        rfl
      · show rest.start ≤ n
        omega
      · show rest.start < n
        omega
      · exact except_bind_of_ok hcut

theorem extendRun_of_stops {fuel : Nat} {stop : Option Int} (h : m.Stops rest) :
    extendRun m.run v (fuel + 1) stop rest = .ok stop := by
  rcases h with hrun | ⟨span, hrun, hstop⟩
  · rw [extendRun, hrun]
    rfl
  · rw [extendRun, hrun]
    show (if span.stop = rest.start then _ else _) = _
    rw [if_pos hstop]
    rfl

/-- And all the way: with more fuel than there is text, the loop takes a row of occurrences and stops behind it. -/
theorem KeepsSlice.extendRun_eq (h : m.KeepsSlice v) {fuel : Nat} (hrest : rest.TailOf v) (hfuel : rest.length < fuel)
    (stop : Option Int) :
    ∃ offsets last, m.Occurs rest offsets last ∧ m.Stops last ∧
      extendRun m.run v fuel stop rest = .ok (if offsets = [] then stop else some (last.start : Int)) := by
  induction fuel generalizing rest stop with
  | zero => exact absurd hfuel (Nat.not_lt_zero _)
  | succ fuel ih =>
    rcases h.stops_or_moves hrest with hstops | ⟨w, hrun, htail, hlt, hadvance⟩
    · exact ⟨[], rest, .here, hstops, extendRun_of_stops hstops⟩
    · -- the occurrence has taken something, so that there is less text left for less fuel
      have hshorter : w.length < rest.length := htail.length_lt (Nat.ne_of_gt hlt)
      obtain ⟨offsets, last, others, hstops, hloop⟩ := ih (htail.trans hrest) (by omega) (some (w.start : Int))
      refine ⟨w.start :: offsets, last, .next hrun htail hlt others, hstops, ?_⟩
      have hmoves : (w.start : Int) ≠ rest.start := by omega
      rw [extendRun, hrun]
      show (if (w.start : Int) = rest.start then _ else v.advanceTo w.start >>= _) = _
      rw [if_neg hmoves, hadvance]
      show extendRun m.run v fuel (some (w.start : Int)) w = _
      rw [hloop, if_neg (List.cons_ne_nil _ _)]
      -- without more occurrences the run ends where this one does
      cases others with
      | here => rfl
      | next => rfl

/-! ## 3. Runs -/

/-- Runs of matchers that cannot take one at once are taken by the loop. -/
theorem run_many_of_not_supportsMany (hm : m.supportsMany = false) (v : View) :
    (Matcher.many m).run v = repeatedRun m.run v := by
  have hnone : m.runMany? = none := by
    rw [← Option.not_isSome_iff_eq_none, isSome_runMany?, hm]
    exact Bool.false_ne_true
  rw [run_many_eq, hnone]
  rfl

/-- Where a loop ends at once there is no run. -/
theorem Stops.run_many (h : m.Stops v) (hm : m.supportsMany = false) : (Matcher.many m).run v = .ok none := by
  rw [run_many_of_not_supportsMany hm, repeatedRun, extendRun_of_stops h]
  rfl

/-- **A run taken occurrence by occurrence ends, and is maximal.** Take any matcher that cannot take a run of itself at
once, and a window to whose tails it keeps. The run comes to an answer. There is none exactly where the matcher does
not match or takes nothing. Otherwise the run has a width, it is cut up into occurrences that each take something, and
behind it the matcher does not match or takes nothing, so that there is no run. -/
theorem repeated_maximal (m : Matcher κ) (hm : m.supportsMany = false) (v : View) (hslice : m.KeepsSlice v) :
    ∃ found, (Matcher.many m).run v = .ok found ∧ (found = none ↔ m.Stops v) ∧
      ∀ span, found = some span → ∃ offsets rest, span = ⟨v.start, rest.start⟩ ∧ rest.TailOf v ∧ v.start < rest.start ∧
        m.Occurs v offsets rest ∧ (v.start :: offsets).IsChain (· < ·) ∧
        (v.start :: offsets).getLast (List.cons_ne_nil _ _) = rest.start ∧
        m.Stops rest ∧ (Matcher.many m).run rest = .ok none := by
  obtain ⟨offsets, rest, hoccurs, hstops, hloop⟩ := hslice.extendRun_eq (.refl v) (Nat.lt_succ_self v.length) none
  have hrun : (Matcher.many m).run v = .ok (if offsets = [] then none else some ⟨v.start, rest.start⟩) := by
    rw [run_many_of_not_supportsMany hm, repeatedRun, hloop]
    show Except.ok (Option.map _ (if offsets = [] then none else some (rest.start : Int))) = _
    split <;> rfl
  refine ⟨_, hrun, ?_, fun span hspan => ?_⟩
  · constructor
    · intro hnone
      split at hnone
      next hempty =>
        subst hempty
        cases hoccurs
        exact hstops
      next => cases hnone
    · intro hv
      rw [hv.run_many hm] at hrun
      exact (Except.ok.inj hrun).symm
  · split at hspan
    next => cases hspan
    next hne =>
      cases hspan
      exact ⟨offsets, rest, rfl, hoccurs.tailOf, hoccurs.start_lt hne, hoccurs, hoccurs.isChain, hoccurs.getLast_eq,
        hstops, hstops.run_many hm⟩

end Matcher

/-- A matcher of a user: two characters at a time, and nothing where fewer are left. -/
inductive PairMatcher where
  | pair

instance : CustomMatcher PairMatcher where
  run _ v := .ok (some ⟨v.start, if v.start + 2 ≤ v.stop then v.start + 2 else v.start⟩)
  description _ := "pair"

theorem PairMatcher.keepsSlice (v : View) : (Matcher.custom PairMatcher.pair).KeepsSlice v := by
  intro w _
  refine ⟨_, rfl, ?_⟩
  rintro span ⟨⟩
  have hends := w.start_le_stop
  refine ⟨rfl, ?_, ?_⟩
  all_goals
    dsimp only
    split <;> omega

/-- Of five characters a run of pairs takes four, and the last one is too few for another pair. So does a run of a text
of two characters that is there twice. -/
theorem repeated_maximal_fiveLetters :
    let m : Matcher PairMatcher := .custom .pair
    let v := View.ofSource ⟨0, ['a', 'b', 'c', 'd', 'e']⟩
    let word : Matcher PairMatcher := .literal "ab" true
    let w := View.ofSource ⟨1, ['a', 'b', 'a', 'b', 'a']⟩
    m.supportsMany = false ∧ m.KeepsSlice v ∧ (Matcher.many m).run v = .ok (some ⟨0, 4⟩) ∧
      (∃ offsets rest, rest.start = 4 ∧ m.Occurs v offsets rest ∧ (0 :: offsets).IsChain (· < ·) ∧ m.Stops rest ∧
        (Matcher.many m).run rest = .ok none) ∧
      word.KeepsSlice w ∧ (Matcher.many word).run w = .ok (some ⟨0, 4⟩) ∧
      ∃ offsets rest, rest.start = 4 ∧ word.Occurs w offsets rest ∧ word.Stops rest := by
  intro m v word w
  have hslice : m.KeepsSlice v := PairMatcher.keepsSlice v
  have hword : word.KeepsSlice w := by
    refine Matcher.EngineAnswers.keepsSlice (fun r hr => ?_) rfl w
    cases hr
  have htaken : (Matcher.many m).run v = .ok (some ⟨0, 4⟩) := rfl
  have htaken' : (Matcher.many word).run w = .ok (some ⟨0, 4⟩) := by decide
  refine ⟨rfl, hslice, htaken, ?_, hword, htaken', ?_⟩
  · obtain ⟨found, hrun, -, hfound⟩ := Matcher.repeated_maximal m rfl v hslice
    obtain ⟨offsets, rest, hspan, -, -, hoccurs, hchain, -, hstops, hagain⟩ :=
      hfound ⟨0, 4⟩ (Except.ok.inj (hrun.symm.trans htaken))
    have hstart : ((4 : Nat) : Int) = rest.start := congrArg Span.stop hspan
    exact ⟨offsets, rest, (Int.ofNat.inj hstart).symm, hoccurs, hchain, hstops, hagain⟩
  · obtain ⟨found, hrun, -, hfound⟩ := Matcher.repeated_maximal word rfl w hword
    obtain ⟨offsets, rest, hspan, -, -, hoccurs, -, -, hstops, -⟩ :=
      hfound ⟨0, 4⟩ (Except.ok.inj (hrun.symm.trans htaken'))
    have hstart : ((4 : Nat) : Int) = rest.start := congrArg Span.stop hspan
    exact ⟨offsets, rest, (Int.ofNat.inj hstart).symm, hoccurs, hstops⟩

end Descent
