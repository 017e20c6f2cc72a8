import Descent.Matcher.Fixed
import Descent.Proofs.WholeInput.Coherent

/-!
# Places are exact

A place is found by one pass over the text before it. Here it is compared with the text itself. A line and a column
belong to an offset if that many lines end before it, and that many characters of its own line do (`Location.Marks`).
Nothing else can be said of an offset in this way, so there is one place for it; and going over the lines that end
before it, and that many characters further, leads back to it (`Location.offsetIn_of_marks`). In the order of lines,
and of columns within a line, places come as their offsets do.

So **locating is exact and can be undone** (`Source.places_exact`), for what is left of the very buffer that is asked.
Whatever else is asked about has no place there.
-/

namespace Descent

namespace Location

/-! ## 1. The order of places -/

/-- By lines, and within a line by columns. -/
instance : LT Location where
  lt l m := l.line < m.line ∨ l.line = m.line ∧ l.column < m.column

theorem lt_iff {l m : Location} : l < m ↔ l.line < m.line ∨ l.line = m.line ∧ l.column < m.column := Iff.rfl

theorem lt_trans {l m n : Location} (h : l < m) (h' : m < n) : l < n := by
  simp only [lt_iff] at *
  omega

theorem lt_after (l : Location) (c : Char) : l < l.after c := by
  by_cases h : c = '\n' <;> simp [after, h, lt_iff]

/-- Every text leads further on, unless it is empty. -/
theorem lt_foldl_after (l : Location) {text : List Char} (h : text ≠ []) : l < text.foldl after l := by
  induction text generalizing l with
  | nil => exact absurd rfl h
  | cons c text ih =>
    rw [List.foldl_cons]
    by_cases htext : text = []
    · simpa [htext] using lt_after l c
    · exact lt_trans (lt_after l c) (ih _ htext)

/-! ## 2. The place of an offset -/

/-- A place is that of an offset: so many lines end before it, and so many characters of its own line stand before
it. -/
structure Marks (l : Location) (text : List Char) (offset : Nat) : Prop where
  line : l.line - 1 = (text.take offset).count '\n'
  one_le_line : 1 ≤ l.line
  column_le : l.column ≤ offset
  /-- the characters counted in the column are of one line -/
  sameLine : '\n' ∉ (text.take offset).drop (offset - l.column)
  /-- and that line begins with them -/
  lineStart : offset - l.column = 0 ∨ text[offset - l.column - 1]? = some '\n'

variable {text : List Char} {offset : Nat} {l m : Location}

/-- A line feed before an offset stands in one of the columns before it. -/
theorem mem_columns {column i : Nat} (hi : i < offset) (hcolumn : offset - column ≤ i) (hc : text[i]? = some '\n') :
    '\n' ∈ (text.take offset).drop (offset - column) := by
  apply List.mem_of_getElem? (i := i - (offset - column))
  rw [List.getElem?_drop, Nat.add_sub_of_le hcolumn, List.getElem?_take_of_lt hi, hc]

/-- **An offset has one place.** -/
theorem Marks.unique (hl : l.Marks text offset) (hm : m.Marks text offset) : l = m := by
  -- a line that began earlier would have a line feed in it
  have column_le {l m : Location} (hl : l.Marks text offset) (hm : m.Marks text offset) : l.column ≤ m.column := by
    by_contra hlt
    have hcolumn := hl.column_le
    rcases hm.lineStart with hzero | hfeed
    · omega
    · exact hl.sameLine (mem_columns (by omega) (by omega) hfeed)
  have hline : l.line = m.line := by
    have := hl.line.trans hm.line.symm
    have := hl.one_le_line
    have := hm.one_le_line
    omega
  have hcolumn := Nat.le_antisymm (column_le hl hm) (column_le hm hl)
  cases l
  cases m
  simp_all

/-- Counting through the text before an offset finds its place. -/
theorem marks_afterText (h : offset ≤ text.length) : (afterText (text.take offset)).Marks text offset := by
  obtain ⟨hno, lines, hbefore, hlines⟩ := lastLine_spec (text.take offset)
  rw [afterText_eq]
  generalize lastLine (text.take offset) = last at *
  have hlength : offset = lines.length + last.length := by
    rw [← List.length_append, ← hbefore, List.length_take_of_le h]
  have hstart : offset - last.length = lines.length := by omega
  constructor
  case line => rfl
  case one_le_line => exact Nat.le_add_left 1 _
  case column_le => exact hlength ▸ Nat.le_add_left _ _
  case sameLine =>
    rw [hstart, hbefore, List.drop_left]
    exact hno
  case lineStart =>
    rw [hstart]
    rcases hlines with rfl | ⟨whole, rfl⟩
    · exact Or.inl rfl
    · right
      have hlt : whole.length < offset := by
        simp at hlength
        omega
      rw [List.length_append, List.length_singleton, Nat.add_sub_cancel, ← List.getElem?_take_of_lt hlt, hbefore]
      simp

/-! ## 3. Back to the offset -/

/-- The offset at a place of a text: the lines before it, each with the line feed that ends it, and the columns. -/
def offsetIn (text : List Char) (l : Location) : Nat :=
  (((text.splitOn '\n').take (l.line - 1)).flatMap (· ++ ['\n'])).length + l.column

/-- A text has one line more than line feeds. -/
theorem length_splitOn (text : List Char) : (text.splitOn '\n').length = text.count '\n' + 1 := by
  induction text with
  | nil => simp
  | cons c text ih =>
    rw [List.splitOn_cons_eq_if_modifyHead]
    by_cases hc : c = '\n'
    · simp [hc, ih]
    · simp [hc, ih, List.count_cons_of_ne]

/-- The lines of a text make it up, with one line feed more. -/
theorem flatMap_splitOn (text : List Char) : (text.splitOn '\n').flatMap (· ++ ['\n']) = text ++ ['\n'] := by
  induction text with
  | nil => simp
  | cons c text ih =>
    rw [List.splitOn_cons_eq_if_modifyHead]
    by_cases hc : c = '\n'
    · simp [hc, ih]
    · obtain ⟨line, lines, hsplit⟩ := List.exists_cons_of_ne_nil (List.splitOn_ne_nil '\n' text)
      rw [hsplit] at ih ⊢
      simpa [hc] using ih

/-- Whole lines are the first of a text, whatever comes after them. -/
theorem flatMap_take_splitOn {lines : List Char} (h : lines = [] ∨ ∃ l, lines = l ++ ['\n']) (after : List Char) :
    (((lines ++ after).splitOn '\n').take (lines.count '\n')).flatMap (· ++ ['\n']) = lines := by
  rcases h with rfl | ⟨whole, rfl⟩
  · simp
  · have hcount : (whole ++ ['\n']).count '\n' = (whole.splitOn '\n').length := by
      simp [length_splitOn, List.count_append]
    rw [hcount, List.append_assoc, List.singleton_append, List.splitOn_append_cons_self, List.take_left,
      flatMap_splitOn]

/-- **A place leads back to its offset.** -/
theorem offsetIn_afterText (h : offset ≤ text.length) : offsetIn text (afterText (text.take offset)) = offset := by
  have hlength : (text.take offset).length = offset := List.length_take_of_le h
  obtain ⟨hno, lines, hbefore, hlines⟩ := lastLine_spec (text.take offset)
  have htext : text = lines ++ (lastLine (text.take offset) ++ text.drop offset) := by
    rw [← List.append_assoc, ← hbefore, List.take_append_drop]
  have hcount : (text.take offset).count '\n' = lines.count '\n' := by
    conv_lhs => rw [hbefore, List.count_append, List.count_eq_zero_of_not_mem hno, Nat.add_zero]
  have hlines := flatMap_take_splitOn hlines (lastLine (text.take offset) ++ text.drop offset)
  rw [← htext] at hlines
  rw [afterText_eq, offsetIn, Nat.add_sub_cancel, hcount, hlines]
  conv_rhs => rw [← hlength, hbefore, List.length_append]

theorem offsetIn_of_marks (hoffset : offset ≤ text.length) (h : l.Marks text offset) : offsetIn text l = offset := by
  rw [h.unique (marks_afterText hoffset), offsetIn_afterText hoffset]

/-- Places come in the order of their offsets. -/
theorem afterText_lt {before offset : Nat} (h : before < offset) (hoffset : offset ≤ text.length) :
    afterText (text.take before) < afterText (text.take offset) := by
  have hsplit : text.take offset = text.take before ++ (text.take offset).drop before := by
    conv_lhs => rw [← List.take_append_drop before (text.take offset), List.take_take, Nat.min_eq_left (Nat.le_of_lt h)]
  rw [hsplit, afterText_append]
  apply lt_foldl_after
  intro hnil
  have := congrArg List.length hnil
  simp at this
  omega

end Location

/-- Whatever is left of a source has a place in it. -/
theorem Source.locate_of_isSuffixOf {source : Source} {rest : View} (h : rest.IsSuffixOf source) :
    source.locate rest = .ok (.afterText (source.chars.take rest.start)) := by
  rw [locate, if_pos h]

/-- **Places are exact and can be undone.** What is left of a source from an offset on has one place in it: the line
feeds before the offset are one fewer than its line, the characters counted in its column are of one line, and that
line begins with them. The lines of the source lead from the place back to the offset, and what begins earlier has a
smaller place. A window that is no tail of that very buffer has none. -/
theorem Source.places_exact (source : Source) :
    (∀ rest : View, rest.IsSuffixOf source → ∃ l, source.locate rest = .ok l ∧
      l.Marks source.chars rest.start ∧ (∀ m, m.Marks source.chars rest.start → m = l) ∧
      l.offsetIn source.chars = rest.start) ∧
    (∀ rest rest' : View, rest.IsSuffixOf source → rest'.IsSuffixOf source → rest.start < rest'.start →
      ∃ l m, source.locate rest = .ok l ∧ source.locate rest' = .ok m ∧ l < m) ∧
    ∀ rest : View, ¬ rest.IsSuffixOf source →
      source.locate rest = .error (.foreignBuffer rest.shown source.length) := by
  refine ⟨fun rest h => ?_, fun rest rest' h h' hlt => ?_, fun rest h => if_neg h⟩
  · have hmarks := Location.marks_afterText h.start_le
    exact ⟨_, locate_of_isSuffixOf h, hmarks, fun m hm => hm.unique hmarks, Location.offsetIn_of_marks h.start_le hmarks⟩
  · exact ⟨_, _, locate_of_isSuffixOf h, locate_of_isSuffixOf h', Location.afterText_lt hlt h'.start_le⟩

/-- Behind two line feeds is the third line, and a window that ends before its buffer does is refused. -/
theorem places_exact_thirdLine :
    let source : Source := ⟨0, ['b', '\n', '\n', 'c', 'd']⟩
    let rest : View := ⟨source, 4, 5, by decide, by decide⟩
    let rest' : View := ⟨source, 1, 5, by decide, by decide⟩
    let cut : View := ⟨source, 1, 4, by decide, by decide⟩
    rest.IsSuffixOf source ∧ rest'.IsSuffixOf source ∧ ¬ cut.IsSuffixOf source ∧
      source.locate rest = .ok ⟨3, 1⟩ ∧ (⟨3, 1⟩ : Location).Marks source.chars 4 ∧
      (⟨3, 1⟩ : Location).offsetIn source.chars = 4 ∧
      (∃ l, source.locate rest' = .ok l ∧ l < ⟨3, 1⟩) ∧
      source.locate cut = .error (.foreignBuffer cut.shown 5) := by
  intro source rest rest' cut
  have h : rest.IsSuffixOf source := by decide
  have h' : rest'.IsSuffixOf source := by decide
  have hcut : ¬ cut.IsSuffixOf source := by decide
  have hplace : source.locate rest = .ok ⟨3, 1⟩ := rfl
  obtain ⟨hexact, hordered, hforeign⟩ := Source.places_exact source
  obtain ⟨l, hl, hmarks, -, hback⟩ := hexact rest h
  obtain ⟨l', m, hl', hm, hlt⟩ := hordered rest' rest h' h (by decide)
  cases hl.symm.trans hplace
  cases hm.symm.trans hplace
  exact ⟨h, h', hcut, hplace, hmarks, hback, ⟨l', hl', hlt⟩, hforeign cut hcut⟩

end Descent
