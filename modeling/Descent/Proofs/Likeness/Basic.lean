import Descent.Context
import Descent.Proofs.Matcher.Width
import Descent.Proofs.Pairs
import Mathlib.Data.List.Forall2

/-!
# Windows that show the same text

Two windows may show the same text in different places: of two sources, or of one. A `Likeness` is such a pair. It
tells for every part of the first window which part of the second one it corresponds to, the one that lies as far from
the beginning (`Likeness.Views`), and from there it goes on to everything that is made of windows: values, failures,
results.

Values need some care. A window in a value may have been captured, and then it corresponds to another one. Or it may
have been there before any input was, in a constant that somebody wrote into the grammar, and then it is what it was.
`C` says which windows are such constants. **A transform is blind** if it treats windows with the same text alike; in
which way windows correspond to each other is not for the transform to know, so this is asked for every way.
-/

namespace Descent

variable {κ : Type}

/-! ## 1. Views -/

/-- Two windows that show the same text. -/
structure Likeness where
  here : View
  there : View
  chars_eq : here.chars = there.chars

/-- A part of a window, by the characters of the window. -/
theorem View.chars_of_inside {w v : View} (hsource : w.source = v.source) (hstart : v.start ≤ w.start)
    (hstop : w.stop ≤ v.stop) : w.chars = (v.chars.drop (w.start - v.start)).take (w.stop - w.start) := by
  have hle := w.start_le_stop
  have hdrop : v.start + (w.start - v.start) = w.start := by omega
  simp only [chars, hsource, List.drop_take, List.drop_drop, List.take_take, hdrop]
  congr 1
  omega

namespace Likeness

/-- How far the second window lies behind the first. -/
def shift (K : Likeness) : Int := K.there.start - K.here.start

/-- A part of the first window and the part of the second one that lies in the same place of it. -/
structure Views (K : Likeness) (w w' : View) : Prop where
  source : w.source = K.here.source
  source' : w'.source = K.there.source
  start_eq : (w'.start : Int) = w.start + K.shift
  stop_eq : (w'.stop : Int) = w.stop + K.shift
  le_start : K.here.start ≤ w.start
  stop_le : w.stop ≤ K.here.stop

variable {K : Likeness} {v v' w w' : View}

theorem length_eq (K : Likeness) : K.here.length = K.there.length := by
  rw [← View.length_chars, K.chars_eq, View.length_chars]

theorem views (K : Likeness) : K.Views K.here K.there where
  source := rfl
  source' := rfl
  start_eq := by rw [shift]; omega
  stop_eq := by
    have hlength := K.length_eq
    have h := K.here.start_le_stop
    have h' := K.there.start_le_stop
    rw [View.length, View.length] at hlength
    rw [shift]
    omega
  le_start := Nat.le_refl _
  stop_le := Nat.le_refl _

namespace Views

theorem start_eq_iff (hv : K.Views v v') (hw : K.Views w w') : w.start = v.start ↔ w'.start = v'.start := by
  have h := hv.start_eq
  have h' := hw.start_eq
  omega

theorem start_lt_iff (hv : K.Views v v') (hw : K.Views w w') : v.start < w.start ↔ v'.start < w'.start := by
  have h := hv.start_eq
  have h' := hw.start_eq
  omega

theorem length_eq (h : K.Views w w') : w.length = w'.length := by
  have hstart := h.start_eq
  have hstop := h.stop_eq
  have hle := w.start_le_stop
  have hle' := w'.start_le_stop
  rw [View.length, View.length]
  omega

/-- Parts in the same place show the same text. -/
theorem chars_eq (h : K.Views w w') : w.chars = w'.chars := by
  have hstart := h.start_eq
  have hstop := h.stop_eq
  have hlength := h.length_eq
  have hle := w.start_le_stop
  have hbounds := K.views.stop_eq
  have hlow := h.le_start
  have hhigh := h.stop_le
  rw [shift] at hstart hstop hbounds
  rw [View.length, View.length] at hlength
  have hoffset : w.start - K.here.start = w'.start - K.there.start := by omega
  rw [View.chars_of_inside h.source hlow hhigh, View.chars_of_inside h.source' (by omega) (by omega), K.chars_eq, hoffset,
    hlength]

/-- Both are cut alike. -/
theorem split (h : K.Views w w') {n : Nat} (hn : n ≤ w.chars.length) :
    ∃ a b a' b', w.split (w.start + n) = .ok (a, b) ∧ w'.split (w'.start + n) = .ok (a', b') ∧
      K.Views a a' ∧ K.Views b b' := by
  obtain ⟨hcut, hsplit⟩ := View.split_add_eq_ok hn
  obtain ⟨hcut', hsplit'⟩ := View.split_add_eq_ok (h.chars_eq ▸ hn)
  have hstart := h.start_eq
  have hlow := h.le_start
  have hhigh := h.stop_le
  refine ⟨_, _, _, _, hsplit, hsplit', ?_, ?_⟩
  · refine ⟨h.source, h.source', h.start_eq, ?_, h.le_start, Nat.le_trans hcut hhigh⟩
    dsimp only
    omega
  · refine ⟨h.source, h.source', ?_, h.stop_eq, Nat.le_trans hlow (Nat.le_add_right _ _), h.stop_le⟩
    dsimp only
    omega

end Views

end Likeness

/-! ## 2. Values -/

/-- Values of one shape whose windows are related. -/
inductive Value.Rel (R : View → View → Prop) : Value κ → Value κ → Prop
  | none : Value.Rel R .none .none
  | bool (b : Bool) : Value.Rel R (.bool b) (.bool b)
  | int (n : Int) : Value.Rel R (.int n) (.int n)
  | str (s : String) : Value.Rel R (.str s) (.str s)
  | matcher (m : Matcher κ) : Value.Rel R (.matcher m) (.matcher m)
  | tuple {xs ys : List (Value κ)} (h : List.Forall₂ (Value.Rel R) xs ys) : Value.Rel R (.tuple xs) (.tuple ys)
  | list {xs ys : List (Value κ)} (h : List.Forall₂ (Value.Rel R) xs ys) : Value.Rel R (.list xs) (.list ys)
  | view {v w : View} (h : R v w) : Value.Rel R (.view v) (.view w)

/-- A value all of whose windows are constants. -/
def Value.IsConstant (C : View → Prop) (x : Value κ) : Prop :=
  ∀ R : View → View → Prop, (∀ c, C c → R c c) → Value.Rel R x x

/-- A transform that looks at windows through their text only: whichever windows with the same text are taken for one
another, the transform does not tell them apart. It may know constants. -/
def Transform.IsBlind (C : View → Prop) (f : Transform κ) : Prop :=
  ∀ R : View → View → Prop, (∀ v w, R v w → v.chars = w.chars) → (∀ c, C c → R c c) →
    ∀ x y, Value.Rel R x y → Except.Both (Value.Rel R) (f x) (f y)

section Blind

variable {C : View → Prop} {R : View → View → Prop}

theorem forall₂_getElem? {xs ys : List (Value κ)} (h : List.Forall₂ (Value.Rel R) xs ys) (index : Nat) :
    Except.Both (Value.Rel R)
      (match xs[index]? with | some x => .ok x | none => .error Fault.noSuchElement)
      (match ys[index]? with | some y => .ok y | none => .error Fault.noSuchElement) := by
  induction h generalizing index with
  | nil => rfl
  | cons hxy _ ih =>
    cases index with
    | zero => exact hxy
    | succ index => exact ih index

/-- Taking an element does not look at windows. -/
theorem Value.element_isBlind (index : Nat) : Transform.IsBlind C (Value.element index : Transform κ) := by
  intro R _ _ x y hxy
  cases hxy with
  | tuple h => exact forall₂_getElem? h index
  | list h => exact forall₂_getElem? h index
  | str s =>
    refine forall₂_getElem? ?_ index
    exact List.forall₂_same.mpr fun x hx => by
      obtain ⟨c, -, rfl⟩ := List.mem_map.mp hx
      exact .str _
  | _ => rfl

/-- Nor does putting one before others. -/
theorem Value.consed_isBlind : Transform.IsBlind C (Value.consed : Transform κ) := by
  intro R _ _ x y hxy
  cases hxy with
  | tuple h =>
    cases h with
    | nil => rfl
    | cons hhead h =>
      cases h with
      | nil => rfl
      | cons htail h =>
        cases h with
        | cons _ _ => cases htail <;> rfl
        | nil =>
          cases htail with
          | list h => exact Value.Rel.list (.cons hhead h)
          | _ => rfl
  | _ => rfl

/-- A constant is the same for all. -/
theorem Value.IsConstant.isBlind {x : Value κ} (hx : x.IsConstant C) : Transform.IsBlind C fun _ => .ok x :=
  fun R _ hC _ _ _ => hx R hC

end Blind

/-! ## 3. Results -/

namespace Likeness

variable (K : Likeness) (C : View → Prop)

/-- Windows that a value may hold: parts in the same place, or one constant. -/
def Seen (w w' : View) : Prop := K.Views w w' ∨ (w = w' ∧ C w)

/-- Failures in the same place that name the same. -/
structure Failures (f f' : Failure κ) : Prop where
  rest : K.Views f.rest f'.rest
  expected : f.expected = f'.expected
  whitespace : f.whitespace = f'.whitespace

/-- Values that correspond and leave the same part, or failures in the same place. -/
inductive Results : Result κ → Result κ → Prop
  | parsed {x x' : Value κ} {w w' : View} (hx : Value.Rel (K.Seen C) x x') (hw : K.Views w w') :
      Results (.parsed x w) (.parsed x' w')
  | failed {f f' : Failure κ} (hf : K.Failures f f') : Results (.failed f) (.failed f')

variable {K C}

theorem Seen.chars_eq {w w' : View} (h : K.Seen C w w') : w.chars = w'.chars := by
  rcases h with h | ⟨rfl, -⟩
  · exact h.chars_eq
  · rfl

theorem Seen.const {c : View} (h : C c) : K.Seen C c c := Or.inr ⟨rfl, h⟩

variable {f f' best best' : Failure κ}

theorem Failures.offset_eq_iff (hf : K.Failures f f') {v v' : View} (hv : K.Views v v') :
    f.offset = v.start ↔ f'.offset = v'.start := hv.start_eq_iff hf.rest

/-- Merged with a record in the same place, failures in the same place are in the same place. -/
theorem Failures.deepest [DecidableEq κ] (hbest : K.Failures best best') (hf : K.Failures f f') :
    K.Failures (Context.deepest (some best) f) (Context.deepest (some best') f') := by
  have hlt : best.offset < f.offset ↔ best'.offset < f'.offset := hbest.rest.start_lt_iff hf.rest
  have heq : f.offset = best.offset ↔ f'.offset = best'.offset := hbest.rest.start_eq_iff hf.rest
  rw [Context.deepest, Context.deepest]
  by_cases h : best.offset < f.offset
  · rw [if_pos h, if_pos (hlt.mp h)]
    exact hf
  · rw [if_neg h, if_neg fun h' => h (hlt.mpr h')]
    by_cases h : f.offset = best.offset
    · rw [if_pos h, if_pos (heq.mp h), Failure.merge, Failure.merge, hbest.expected, hbest.whitespace, hf.expected,
        hf.whitespace]
      exact ⟨hbest.rest, rfl, rfl⟩
    · rw [if_neg h, if_neg fun h' => h (heq.mpr h')]
      exact hbest

end Likeness

end Descent
