import Descent.Proofs.Run.Plan

/-!
# Tails of a window

A parser moves forward in the window that it is given and nowhere else. `View.TailOf` is what that comes to: the same
source, the same end, and a beginning that lies no earlier. It is a preorder, so what holds of one move holds of a
row of them, and there are only two moves to look at: the cut that a matcher makes, and the one that a hand-written
rule asks for. Both go through `View.split`, which checks the offset; no property of a matcher is needed, and a
user's matcher may answer what it likes.
-/

namespace Descent

/-- What is left of a window from one of its offsets on. -/
def View.TailOf (w v : View) : Prop := w.source = v.source ∧ w.stop = v.stop ∧ v.start ≤ w.start

namespace View.TailOf

variable {u v w : View}

@[refl] theorem refl (v : View) : v.TailOf v := ⟨rfl, rfl, Nat.le_refl _⟩

theorem trans (h : u.TailOf v) (h' : v.TailOf w) : u.TailOf w :=
  ⟨h.1.trans h'.1, h.2.1.trans h'.2.1, Nat.le_trans h'.2.2 h.2.2⟩

theorem start_le_stop (h : w.TailOf v) : w.start ≤ v.stop := h.2.1 ▸ w.start_le_stop

theorem length_le (h : w.TailOf v) : w.length ≤ v.length := by
  have hs := h.2.1
  have hl := h.2.2
  unfold View.length
  omega

/-- A tail that begins elsewhere is shorter. -/
theorem length_lt (h : w.TailOf v) (hne : w.start ≠ v.start) : w.length < v.length := by
  have hs := h.2.1
  have hl := h.2.2
  have hw := w.start_le_stop
  unfold View.length
  omega

/-- A tail of the whole of a source is a tail of that very buffer. -/
theorem isSuffixOf {s : Source} (h : w.TailOf (.ofSource s)) : w.IsSuffixOf s := ⟨h.1, h.2.1⟩

end View.TailOf

theorem View.tailOf_of_split {v : View} {offset : Int} {halves : View × View} (h : v.split offset = .ok halves) :
    halves.2.TailOf v := by
  obtain ⟨n, hn, hn', -, rfl⟩ := View.split_eq_ok_iff.mp h
  exact ⟨rfl, rfl, hn⟩

theorem View.tailOf_of_advanceTo {v w : View} {offset : Int} (h : v.advanceTo offset = .ok w) : w.TailOf v := by
  obtain ⟨halves, hs, hw⟩ := except_bind_eq_ok.mp h
  cases hw
  exact View.tailOf_of_split hs

variable {κ : Type}

/-- What a result leaves, or where it stopped. -/
def Result.view : Result κ → View
  | .parsed _ rest => rest
  | .failed f => f.rest

/-! ## Single matches -/

section Single

variable [CustomMatcher κ]

/-- A matcher that applies cuts the window. -/
theorem Matcher.exists_split {m : Matcher κ} {v : View} {halves : View × View} (h : m.split v = .ok (some halves)) :
    ∃ offset, v.split offset = .ok halves := by
  obtain ⟨span, -, h⟩ := except_bind_eq_ok.mp h
  cases span with
  | none => cases h
  | some span =>
    by_cases hs : span.start = v.start
    · simp only [hs, ne_eq, not_true_eq_false, if_false] at h
      obtain ⟨halves, hc, h⟩ := except_bind_eq_ok.mp h
      cases h
      exact ⟨_, hc⟩
    · simp only [ne_eq, hs, not_false_eq_true, if_true] at h
      cases h

theorem Matcher.tailOf_of_split {m : Matcher κ} {v matched rest : View}
    (h : m.split v = .ok (some (matched, rest))) : rest.TailOf v := by
  obtain ⟨offset, hc⟩ := Matcher.exists_split h
  exact View.tailOf_of_split hc

/-- One match fails where it began, with the matcher expected there, or leaves a tail. -/
theorem Matcher.taken_ok {m : Matcher κ} {v : View} {value : View → Except Fault (Value κ)} {r : Result κ}
    (h : m.taken v value = .ok r) :
    r = .failed ⟨v, [m], []⟩ ∨ ∃ x rest, r = .parsed x rest ∧ rest.TailOf v := by
  obtain ⟨halves, hs, h⟩ := except_bind_eq_ok.mp h
  rcases halves with - | ⟨matched, rest⟩
  · cases h
    exact Or.inl rfl
  · obtain ⟨x, -, h⟩ := except_bind_eq_ok.mp h
    cases h
    exact Or.inr ⟨x, rest, rfl, Matcher.tailOf_of_split hs⟩

theorem Matcher.taken_error {m : Matcher κ} {v : View} {value : View → Except Fault (Value κ)} {e : Fault}
    (h : m.taken v value = .error e) : m.split v = .error e ∨ ∃ matched, value matched = .error e := by
  rcases except_bind_eq_error.mp h with hs | ⟨halves, -, h⟩
  · exact Or.inl hs
  · rcases halves with - | ⟨matched, rest⟩
    · cases h
    · rcases except_bind_eq_error.mp h with hv | ⟨x, -, h⟩
      · exact Or.inr ⟨matched, hv⟩
      · cases h

/-- A choice over matchers fails where it began, with all of them expected there, or leaves a tail. -/
theorem chosen_ok {all ms : List (Matcher κ)} {v : View} {r : Result κ} (h : chosen all v ms = .ok r) :
    r = .failed ⟨v, all, []⟩ ∨ ∃ x rest, r = .parsed x rest ∧ rest.TailOf v := by
  induction ms with
  | nil =>
    cases h
    exact Or.inl rfl
  | cons m ms ih =>
    obtain ⟨halves, hs, h⟩ := except_bind_eq_ok.mp h
    rcases halves with - | ⟨matched, rest⟩
    · exact ih h
    · cases h
      exact Or.inr ⟨.matcher m, rest, rfl, Matcher.tailOf_of_split hs⟩

theorem chosen_error {all ms : List (Matcher κ)} {v : View} {e : Fault} (h : chosen all v ms = .error e) :
    ∃ m ∈ ms, m.split v = .error e := by
  induction ms with
  | nil => cases h
  | cons m ms ih =>
    rcases except_bind_eq_error.mp h with hs | ⟨halves, -, h⟩
    · exact ⟨m, List.mem_cons_self, hs⟩
    · rcases halves with - | ⟨matched, rest⟩
      · obtain ⟨m', hm, he⟩ := ih h
        exact ⟨m', List.mem_cons_of_mem _ hm, he⟩
      · cases h

end Single

/-! ## Hand-written moves -/

theorem Answer.placed_ok {v : View} {a : Answer κ} {r : Result κ} (h : a.placed v = .ok r) :
    r.view.TailOf v := by
  cases a <;>
  · obtain ⟨w, hw, h⟩ := except_bind_eq_ok.mp h
    cases h
    exact View.tailOf_of_advanceTo hw

theorem Answer.placed_error {v : View} {a : Answer κ} {e : Fault} (h : a.placed v = .error e) :
    ∃ offset, v.advanceTo offset = .error e := by
  cases a <;>
  · rcases except_bind_eq_error.mp h with ha | ⟨w, -, h⟩
    · exact ⟨_, ha⟩
    · cases h

end Descent
