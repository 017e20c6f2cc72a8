/-!
# Lists without repeats

Diagnostics name things in the order in which they come up, each once. `distinct` is that rule for one list and
`orderedUnion` for two; lists of expected matchers are joined in no other way.
-/

namespace Descent

variable {α : Type} [DecidableEq α]

/-- The elements of a list in the order in which they first appear, each once. -/
def distinct : List α → List α
  | [] => []
  | a :: l => a :: (distinct l).filter (· ≠ a)

@[simp] theorem mem_distinct {a : α} {l : List α} : a ∈ distinct l ↔ a ∈ l := by
  induction l with
  | nil => simp [distinct]
  | cons b l ih =>
    by_cases h : a = b
    · simp [distinct, h]
    · simp [distinct, h, ih]

theorem nodup_distinct (l : List α) : (distinct l).Nodup := by
  induction l with
  | nil => simp [distinct]
  | cons a l ih =>
    rw [distinct, List.nodup_cons]
    exact ⟨by simp, ih.filter _⟩

theorem distinct_of_nodup {l : List α} (h : l.Nodup) : distinct l = l := by
  induction l with
  | nil => rfl
  | cons a l ih =>
    obtain ⟨ha, hl⟩ := List.nodup_cons.mp h
    rw [distinct, ih hl, List.filter_eq_self.mpr]
    intro b hb
    simp only [ne_eq, decide_eq_true_eq]
    intro e
    exact ha (e ▸ hb)

theorem distinct_append (l m : List α) : distinct (l ++ m) = distinct l ++ (distinct m).filter (· ∉ l) := by
  induction l with
  | nil => exact (List.filter_eq_self.mpr (by simp)).symm
  | cons a l ih =>
    rw [List.cons_append, distinct, distinct, ih, List.filter_append, List.filter_filter, List.cons_append]
    simp [not_or]

/-- Repeats may be dropped early. -/
theorem distinct_distinct_append (l m : List α) : distinct (distinct l ++ m) = distinct (l ++ m) := by
  rw [distinct_append, distinct_append, distinct_of_nodup (nodup_distinct l)]
  simp

theorem distinct_append_distinct (l m : List α) : distinct (l ++ distinct m) = distinct (l ++ m) := by
  rw [distinct_append, distinct_append, distinct_of_nodup (nodup_distinct m)]

/-- What tells the elements of a list apart makes no more of them the same. -/
theorem distinct_map {β : Type} [DecidableEq β] {f : α → β} {l : List α}
    (hf : ∀ a ∈ l, ∀ b ∈ l, f a = f b → a = b) : distinct (l.map f) = (distinct l).map f := by
  induction l with
  | nil => rfl
  | cons a l ih =>
    have hl : distinct (l.map f) = (distinct l).map f :=
      ih fun b hb c hc => hf b (List.mem_cons_of_mem _ hb) c (List.mem_cons_of_mem _ hc)
    have ha : ∀ b ∈ distinct l, (f b = f a ↔ b = a) := by
      intro b hb
      refine ⟨hf b (List.mem_cons_of_mem _ (mem_distinct.mp hb)) a List.mem_cons_self, ?_⟩
      rintro rfl
      rfl
    rw [List.map_cons, distinct, distinct, hl, List.filter_map, List.map_cons]
    congr 2
    refine List.filter_congr fun b hb => ?_
    simp [ha b hb]

/-- One list after another, without repeats. -/
def orderedUnion (first second : List α) : List α := distinct (first ++ second)

@[simp] theorem mem_orderedUnion {a : α} {l m : List α} : a ∈ orderedUnion l m ↔ a ∈ l ∨ a ∈ m := by
  rw [orderedUnion, mem_distinct, List.mem_append]

theorem nodup_orderedUnion (l m : List α) : (orderedUnion l m).Nodup := nodup_distinct _

theorem orderedUnion_self {l : List α} (h : l.Nodup) : orderedUnion l l = l := by
  rw [orderedUnion, distinct_append, distinct_of_nodup h]
  simp

/-- The second list adds what the first one does not name. -/
theorem orderedUnion_of_nodup {m : List α} (h : m.Nodup) (l : List α) :
    orderedUnion l m = distinct l ++ m.filter (· ∉ l) := by
  rw [orderedUnion, distinct_append, distinct_of_nodup h]

theorem orderedUnion_assoc (l m n : List α) : orderedUnion (orderedUnion l m) n = orderedUnion l (orderedUnion m n) := by
  rw [orderedUnion, orderedUnion, orderedUnion, orderedUnion, distinct_distinct_append, distinct_append_distinct,
    List.append_assoc]

/-- What has come first once may come first again. -/
theorem orderedUnion_orderedUnion_left (l m : List α) : orderedUnion l (orderedUnion l m) = orderedUnion l m := by
  rw [← orderedUnion_assoc, orderedUnion, orderedUnion, orderedUnion, distinct_distinct_append, distinct_append,
    distinct_append, distinct_append]
  simp

/-- What names nothing new leaves a list as it is, but for repeats. -/
theorem orderedUnion_of_subset {l m : List α} (h : m ⊆ l) : orderedUnion l m = distinct l := by
  rw [orderedUnion, distinct_append, List.filter_eq_nil_iff.mpr, List.append_nil]
  simpa using fun a ha => h ha

/-- What names nothing new adds nothing. -/
theorem orderedUnion_eq_left_iff {l m : List α} : orderedUnion l m = l ↔ l.Nodup ∧ m ⊆ l := by
  constructor
  · intro h
    refine ⟨h ▸ nodup_orderedUnion l m, fun a ha => ?_⟩
    rw [← h]
    exact mem_orderedUnion.mpr (Or.inr ha)
  · rintro ⟨hl, hm⟩
    rw [orderedUnion_of_subset hm, distinct_of_nodup hl]

/-- What names nothing new may be left out between two others. -/
theorem orderedUnion_orderedUnion_of_subset {l m : List α} (h : m ⊆ l) (n : List α) :
    orderedUnion l (orderedUnion m n) = orderedUnion l n := by
  rw [← orderedUnion_assoc, orderedUnion_of_subset h, orderedUnion, distinct_distinct_append, orderedUnion]

/-- What comes last already may come last again. -/
theorem orderedUnion_orderedUnion_right (l m : List α) : orderedUnion (orderedUnion l m) m = orderedUnion l m := by
  rw [orderedUnion, distinct_append, orderedUnion, distinct_of_nodup (nodup_distinct _)]
  simp +contextual [List.filter_eq_nil_iff]

end Descent
