import Descent.Matcher.Fixed
import Descent.Proofs.Matcher.Runs

/-!
# Literals up to case

A literal up to case is compared with the folding of what it is matched against, and folding changes the number of
characters: one character of the input may cover several of the folded text. So the match goes character by character,
each folded whole, and gives up as soon as one of them does not fit what is left of the folded text.

**It loses nothing by that.** What it takes is the beginning of the window that folds to what the text folds to, and it
fails only where no beginning does (`Matcher.caseless_exact`). There is no choice between two beginnings, since no
character folds to nothing (`Text.foldChar_ne_nil`), so that a longer beginning has a longer folding. A text that
stands there letter by letter is a case of this.
-/

namespace Descent

/-! ## 1. Foldings -/

namespace Text

/-- No character is folded away. -/
theorem foldChar_ne_nil (c : Char) : foldChar c ≠ [] := by
  have long : ∀ p ∈ longFoldings, p.2 ≠ [] := by decide
  rw [foldChar, foldCode]
  split
  next folded hfound =>
    have := long _ (List.mem_of_find?_eq_some hfound)
    simpa using this
  next => simp

@[simp] theorem fold_nil : fold [] = [] := rfl

@[simp] theorem fold_cons (c : Char) (text : List Char) : fold (c :: text) = foldChar c ++ fold text := rfl

@[simp] theorem fold_eq_nil_iff {text : List Char} : fold text = [] ↔ text = [] := by
  cases text with
  | nil => simp
  | cons c text => simp [foldChar_ne_nil]

end Text

/-- A text begins with a part and goes on with the rest of itself. -/
theorem append_eq_iff_drop {α : Type} {first rest whole : List α} :
    first ++ rest = whole ↔ first <+: whole ∧ rest = whole.drop first.length := by
  constructor
  · rintro rfl
    simp
  · rintro ⟨⟨others, rfl⟩, rfl⟩
    simp

/-- **What is taken folds to the target**, and whatever folds to it is taken. The cases are those of the match. -/
theorem foldedWidth?_eq_some_iff {target chars : List Char} {n : Nat} :
    foldedWidth? target chars = some n ↔ n ≤ chars.length ∧ Text.fold (chars.take n) = target := by
  fun_induction foldedWidth? target chars generalizing n with
  | case1 chars =>
    -- an empty target is covered by nothing, and by nothing else
    constructor
    · intro h
      cases h
      simp
    · rintro ⟨hn, hfold⟩
      rw [Text.fold_eq_nil_iff, List.take_eq_nil_iff] at hfold
      rcases hfold with rfl | rfl
      · rfl
      · simp_all
  | case2 t target => simp
  | case3 t target c chars piece hpiece =>
    rename_i ih
    have hpiece : Text.foldChar c <+: t :: target := List.isPrefixOf_iff_prefix.mp hpiece
    cases n with
    | zero => simp
    | succ n => simp [ih, append_eq_iff_drop, hpiece, piece]
  | case4 t target c chars piece =>
    rename_i hpiece
    have hpiece : ¬ Text.foldChar c <+: t :: target := fun h => hpiece (List.isPrefixOf_iff_prefix.mpr h)
    cases n with
    | zero => simp
    | succ n => simp [append_eq_iff_drop, hpiece]

/-! ## 2. Matches -/

/-- A window up to an offset folds to a text. -/
structure View.FoldsUpTo (v : View) (offset : Nat) (folded : List Char) : Prop where
  start_le : v.start ≤ offset
  le_stop : offset ≤ v.stop
  fold_eq : Text.fold ((v.source.chars.take offset).drop v.start) = folded

/-- The same, of the first characters of the window. -/
theorem View.foldsUpTo_iff {v : View} {n : Nat} {folded : List Char} :
    v.FoldsUpTo (v.start + n) folded ↔ n ≤ v.chars.length ∧ Text.fold (v.chars.take n) = folded := by
  have hle := v.start_le_stop
  have hpart (h : n ≤ v.length) : (v.source.chars.take (v.start + n)).drop v.start = v.chars.take n := by
    rw [length] at h
    rw [List.drop_take, chars, List.take_take, Nat.min_eq_left h, Nat.add_sub_cancel_left]
  rw [length_chars]
  constructor
  · rintro ⟨-, hstop, hfold⟩
    have hn : n ≤ v.length := by
      rw [length]
      omega
    exact ⟨hn, hpart hn ▸ hfold⟩
  · rintro ⟨hn, hfold⟩
    refine ⟨Nat.le_add_right _ _, ?_, (hpart hn).symm ▸ hfold⟩
    rw [length] at hn
    omega

section Run

variable {κ : Type} [CustomMatcher κ] {v : View} {text : String}

/-- A literal up to case takes a beginning of the window with the folding of its text. -/
theorem Matcher.caseless_run_iff {offset : Nat} :
    (Matcher.literal text false : Matcher κ).run v = .ok (some ⟨v.start, offset⟩) ↔
      v.FoldsUpTo offset (Text.fold text.toList) := by
  have width {n : Nat} : (Matcher.literal text false : Matcher κ).width? v.chars = .ok (some n) ↔
      v.FoldsUpTo (v.start + n) (Text.fold text.toList) := by
    rw [View.foldsUpTo_iff, ← foldedWidth?_eq_some_iff, width?, Except.ok.injEq]
  rw [run_eq_some_iff (m := .literal text false) rfl]
  constructor
  · rintro ⟨n, hn, hspan⟩
    have hoffset : offset = v.start + n := by
      have := congrArg Span.stop hspan
      simp only [Span.ofWidth] at this
      omega
    exact hoffset ▸ width.mp hn
  · intro h
    obtain ⟨n, rfl⟩ := Nat.exists_eq_add_of_le h.start_le
    exact ⟨n, width.mpr h, by simp [Span.ofWidth]⟩

/-- **A literal up to case is exact.** It takes a window up to an offset just if the window up to there folds to what
the text folds to. There is at most one such offset, and it fails only if there is none. Where the text itself is
matched, it takes the same. -/
theorem Matcher.caseless_exact (text : String) (v : View) :
    (∀ offset : Nat, (Matcher.literal text false : Matcher κ).run v = .ok (some ⟨v.start, offset⟩) ↔
      v.FoldsUpTo offset (Text.fold text.toList)) ∧
    (∀ offset offset', v.FoldsUpTo offset (Text.fold text.toList) → v.FoldsUpTo offset' (Text.fold text.toList) →
      offset = offset') ∧
    ((Matcher.literal text false : Matcher κ).run v = .ok none ↔
      ∀ offset, ¬ v.FoldsUpTo offset (Text.fold text.toList)) ∧
    ∀ span, (Matcher.literal text true : Matcher κ).run v = .ok (some span) →
      (Matcher.literal text false : Matcher κ).run v = .ok (some span) := by
  have exact {offset : Nat} : (Matcher.literal text false : Matcher κ).run v = .ok (some ⟨v.start, offset⟩) ↔
      v.FoldsUpTo offset (Text.fold text.toList) := caseless_run_iff
  refine ⟨fun offset => exact, fun offset offset' h h' => ?_, ?_, fun span h => ?_⟩
  · -- the match is one and the same
    have h := (exact.mpr h).symm.trans (exact.mpr h')
    simp only [Except.ok.injEq, Option.some.injEq, Span.mk.injEq] at h
    omega
  · constructor
    · intro hnone offset h
      cases hnone.symm.trans (exact.mpr h)
    · intro hno
      cases hw : foldedWidth? (Text.fold text.toList) v.chars with
      | none => rw [run, hw, Option.map_none]
      | some n =>
        rw [foldedWidth?_eq_some_iff, ← View.foldsUpTo_iff] at hw
        exact absurd hw (hno _)
  · obtain ⟨n, hn, rfl⟩ := (run_eq_some_iff (m := .literal text true) rfl).mp h
    obtain ⟨hbegins, rfl⟩ := literalWidth?_eq_some_iff.mp (Except.ok.inj hn)
    apply exact.mpr
    rw [View.foldsUpTo_iff, ← List.prefix_iff_eq_take.mp hbegins]
    exact ⟨hbegins.length_le, rfl⟩

end Run

/-- Two letters are matched by the one that folds to them, and a window that ends between the two is not. -/
theorem Matcher.caseless_exact_sharpS :
    let source : Source := ⟨0, ['x', 'S', 's', 'y']⟩
    let whole : View := ⟨source, 1, 4, by decide, by decide⟩
    let cut : View := ⟨source, 1, 2, by decide, by decide⟩
    let literal : Matcher FixedMatcher := .literal "ß" false
    literal.run whole = .ok (some ⟨1, 3⟩) ∧ whole.FoldsUpTo 3 ['s', 's'] ∧
      (∀ offset, whole.FoldsUpTo offset ['s', 's'] → offset = 3) ∧
      literal.run cut = .ok none ∧ (∀ offset, ¬ cut.FoldsUpTo offset ['s', 's']) ∧
      (.literal "Ss" false : Matcher FixedMatcher).run whole = .ok (some ⟨1, 3⟩) := by
  intro source whole cut literal
  have hfold : Text.fold "ß".toList = ['s', 's'] := by decide +kernel
  have hfolds : whole.FoldsUpTo 3 ['s', 's'] := ⟨by decide, by decide, by decide +kernel⟩
  have hwhole := Matcher.caseless_exact (κ := FixedMatcher) "ß" whole
  have hcut := Matcher.caseless_exact (κ := FixedMatcher) "ß" cut
  rw [hfold] at hwhole hcut
  obtain ⟨hexact, hunique, -, -⟩ := hwhole
  obtain ⟨-, -, hnone, -⟩ := hcut
  have hno : literal.run cut = .ok none := rfl
  refine ⟨(hexact 3).mpr hfolds, hfolds, fun offset h => hunique offset 3 h hfolds, hno, hnone.mp hno, ?_⟩
  obtain ⟨-, -, -, hsame⟩ := Matcher.caseless_exact (κ := FixedMatcher) "Ss" whole
  exact hsame ⟨1, 3⟩ rfl

end Descent
