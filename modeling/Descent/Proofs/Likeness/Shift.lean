import Descent.Matcher.Fixed
import Descent.Proofs.Likeness.Run
import Descent.Proofs.Run.Fuel
import Descent.Proofs.Run.Replay
import Descent.Proofs.Run.Success

/-!
# A run sees its window only

Where a window lies, and what is before and behind it, is nothing that a run can find out. Fresh runs in two windows
that show the same text come to the same, in the one window as far from its beginning as in the other: the value with
its windows, what is left, the failure, and the failure on record (`Grammar.sees_window_only`).

Two runs of one grammar do not both find the bookkeeping of derivations as the first one does. So this is said twice:
from one and the same bookkeeping, where faults are the same too, and of runs one after the other.
-/

namespace Descent

variable {κ : Type} [DecidableEq κ] [CustomMatcher κ] {g : Grammar κ} {C : View → Prop}

/-- **A run sees its window only.** For windows that show the same text and equal policies, runs in fresh contexts that
find the same kept end in the same fault, or in results that correspond with records that correspond. If the one run
has come to a result from rest, the other comes to the corresponding one from all that keep what the first left, with
as much fuel or more. -/
theorem Grammar.sees_window_only (hg : g.LooksAtText C) (K : Likeness) (fuel : Nat) (id : RuleId)
    (policy : Option RuleId) (verbosity verbosity' : Int) (d : Derivation κ) :
    EnsuresBoth (g.parse fuel id K.here) ⟨d, .fresh policy verbosity⟩
        (g.parse fuel id K.there) ⟨d, .fresh policy verbosity'⟩
        (fun r t r' t' => K.Results C r r' ∧ K.Contexts t.context t'.context)
        (fun t t' => K.Contexts t.context t'.context) ∧
      ∀ r t, d.AtRest → g.parse fuel id K.here ⟨d, .fresh policy verbosity⟩ = .ok r t →
        ∀ fuel' ≥ fuel, ∀ d' : Derivation κ, d'.Keeps t.derivation →
          ∃ r' t', g.parse fuel' id K.there ⟨d', .fresh policy verbosity'⟩ = .ok r' t' ∧
            K.Results C r r' ∧ K.Contexts t.context t'.context := by
  have alike := Likeness.parse_alike hg fuel id K.here K.there ⟨d, .fresh policy verbosity⟩
    ⟨d, .fresh policy verbosity'⟩ K.views ⟨rfl, rfl, rfl, .none⟩
  refine ⟨alike.imp (fun r t r' t' h => ⟨h.1, h.2.context⟩) fun t t' h => h.context, ?_⟩
  intro r t hrest hrun fuel' hfuel d' hkeeps
  obtain ⟨r', t', hrun', hr, ht⟩ := alike.ok hrun
  -- the second run, made from what the first left
  obtain ⟨-, again⟩ := g.parse_isRepeatable fuel id K.there _ r' t' hrest hrun'
  obtain ⟨d'', hagain, -⟩ := again d' (ht.derivation ▸ hkeeps)
  exact ⟨r', { t' with derivation := d'' }, (g.parse_extendedBy hfuel id K.there).ok hagain, hr, ht.context⟩

/-- Letters with blanks between them up to the end of the input, each of them captured. -/
def letters : Grammar FixedMatcher where
  rules := #[⟨none, .token (.charClass ⟨.set (.between ' ' ' '), " ", false⟩) none⟩,
    ⟨none, .capture (.charClass ⟨.set (.between 'b' 'b'), "b", false⟩)⟩, ⟨none, .skipping 1⟩, ⟨none, .repeated 2 0 2⟩,
    ⟨none, .sequence [1, 3]⟩, ⟨none, .map 4 Value.consed⟩, ⟨none, .token .endOfInput (some fun _ => .ok .none)⟩,
    ⟨none, .sequence [5, 6]⟩, ⟨none, .map 7 (Value.element 0)⟩]
  names := []
  customs := 0

theorem letters_looksAtText : letters.LooksAtText fun _ => False where
  library := by decide
  matchers := Grammar.forall_rule?_iff.mpr (by decide)
  transforms := by
    refine Grammar.forall_rule?_iff.mpr ?_
    have constant : (Value.none : Value FixedMatcher).IsConstant fun _ => False := fun _ _ => .none
    simp [letters, Body.transform?, Value.element_isBlind, Value.consed_isBlind, constant.isBlind]
  defaults := by
    intro id label inner default h
    have hmem := Array.mem_of_getElem? h
    simp [letters] at hmem

/-- Two letters that are followed by a third one, and the same two in a source of their own, where the run comes after
the first one and finds what that has kept. -/
theorem sees_window_only_letters :
    let K : Likeness := ⟨⟨⟨0, ['a', 'b', ' ', 'b', 'b']⟩, 1, 4, by decide, by decide⟩,
      .ofSource ⟨1, ['b', ' ', 'b']⟩, rfl⟩
    letters.LooksAtText (fun _ => False) ∧ K.shift = -1 ∧
      ∃ x w t, letters.parse 7 8 K.here ⟨.fresh, .fresh (some 0) 0⟩ = .ok (.parsed x w) t ∧ w.start = 4 ∧
        ∃ x' w' t', letters.parse 9 8 K.there ⟨t.derivation, .fresh (some 0) 2⟩ = .ok (.parsed x' w') t' ∧
          w'.start = 3 ∧ Value.Rel (K.Seen fun _ => False) x x' ∧ K.Contexts t.context t'.context := by
  intro K
  obtain ⟨_, t, hx, x, w, rfl, hfour⟩ := Ensures.exists_ok (x := letters.parse 7 8 K.here)
    (s := ⟨.fresh, .fresh (some 0) 0⟩) (Q := fun r _ => ∃ x w, r = .parsed x w ∧ w.start = 4) (by decide +kernel)
  obtain ⟨-, again⟩ := Grammar.sees_window_only letters_looksAtText K 7 8 (some 0) 0 2 .fresh
  obtain ⟨r', t', hx', hr, ht⟩ := again _ t ⟨rfl, rfl⟩ hx 9 (by decide) t.derivation fun _ _ h => h
  refine ⟨letters_looksAtText, by decide, x, w, t, hx, hfour, ?_⟩
  cases hr with
  | @parsed _ x' _ w' hvalues hw =>
    refine ⟨x', w', t', hx', ?_, hvalues, ht⟩
    have hstart := hw.start_eq
    have hshift : K.shift = -1 := by decide
    rw [hfour, hshift] at hstart
    exact Int.ofNat.inj hstart

end Descent
