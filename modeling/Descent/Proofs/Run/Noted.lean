import Descent.Proofs.Run.Final
import Descent.Proofs.Window

/-!
# What has been noted

A context has *noted* a failure if it is none the wiser when the failure is offered to it: failures are not recorded, or
the record stands further on, or it stands there and names all of it. The failure that a run comes to has been noted
when the run ends (`Grammar.parse_noted`). What has been noted stays noted, whatever is run then
(`Grammar.parse_notes`), and so have been all failures at the same place that name nothing else
(`Context.notes_of_named`).

This is why rules that are put around other rules leave no traces on the record. They report at their entry what the
rules inside have said there. Where the bookkeeping is sure, such a rule need not even be one that fails in the end: **a
rule that has failed has had everything noted that it expects at its entry** (`Grammar.parse_entry_noted`), which is
what a choice between rules expects there.
-/

namespace Descent

variable {κ : Type} [DecidableEq κ]

/-! ## 1. Records -/

/-- A failure that adds nothing to a record. -/
inductive Failure.Absorbs (best f : Failure κ) : Prop
  | further (h : f.offset < best.offset) : Absorbs best f
  | here (ho : f.offset = best.offset) (hbest : best.Unrepeated) (hexpected : f.expected ⊆ best.expected)
    (hwhitespace : f.whitespace ⊆ best.whitespace) : Absorbs best f

/-- Offering the failure changes nothing. -/
def Context.Notes (c : Context κ) (f : Failure κ) : Prop := c.record f = c

section Notes

variable {best f f' : Failure κ} {c : Context κ}

theorem Failure.absorbs_iff : best.Absorbs f ↔ Context.deepest (some best) f = best := by
  rw [Context.deepest]
  constructor
  · rintro (h | ⟨ho, hbest, hexpected, hwhitespace⟩)
    · rw [if_neg (Nat.lt_asymm h), if_neg (Nat.ne_of_lt h)]
    · rw [if_neg (Nat.not_lt.mpr (Nat.le_of_eq ho)), if_pos ho, Failure.merge,
        orderedUnion_eq_left_iff.mpr ⟨hbest.expected, hexpected⟩,
        orderedUnion_eq_left_iff.mpr ⟨hbest.whitespace, hwhitespace⟩]
  · intro h
    split at h
    next hlt =>
      subst h
      exact absurd hlt (Nat.lt_irrefl _)
    next hlt =>
      split at h
      next ho =>
        obtain ⟨hexpected, hnamed⟩ := orderedUnion_eq_left_iff.mp (congrArg Failure.expected h)
        obtain ⟨hwhitespace, hnamed'⟩ := orderedUnion_eq_left_iff.mp (congrArg Failure.whitespace h)
        exact .here ho ⟨hexpected, hwhitespace⟩ hnamed hnamed'
      next ho => exact .further (Nat.lt_of_le_of_ne (Nat.le_of_not_lt hlt) ho)

/-- The record changes, and takes all of it along. -/
theorem Failure.Absorbs.deepest (h : best.Absorbs f) (f' : Failure κ) :
    (Context.deepest (some best) f').Absorbs f := by
  have hle : f.offset ≤ best.offset := by
    cases h with
    | further h => exact Nat.le_of_lt h
    | here ho => exact Nat.le_of_eq ho
  rw [Context.deepest]
  split
  next hlt => exact .further (Nat.lt_of_le_of_lt hle hlt)
  next =>
    split
    · cases h with
      | further h => exact .further h
      | here ho _ hexpected hwhitespace =>
        refine .here ho ⟨nodup_orderedUnion _ _, nodup_orderedUnion _ _⟩ (fun m hm => ?_) fun m hm => ?_
        · exact mem_orderedUnion.mpr (Or.inl (hexpected hm))
        · exact mem_orderedUnion.mpr (Or.inl (hwhitespace hm))
    · exact h

theorem Failure.Absorbs.deepestOf (h : best.Absorbs f) (fs : List (Failure κ)) :
    ∃ best', deepestOf (some best) fs = some best' ∧ best'.Absorbs f := by
  induction fs generalizing best with
  | nil => exact ⟨best, rfl, h⟩
  | cons f' fs ih => exact ih (h.deepest f')

theorem Context.notes_iff :
    c.Notes f ↔ c.suspended ≠ 0 ∨ ∃ best, c.furthest = some best ∧ best.Absorbs f := by
  rw [Notes, record]
  split
  next h => exact ⟨fun _ => Or.inl h, fun _ => rfl⟩
  next h =>
    constructor
    · intro hc
      have hfurthest : some (deepest c.furthest f) = c.furthest := congrArg Context.furthest hc
      refine Or.inr ⟨_, hfurthest.symm, Failure.absorbs_iff.mpr ?_⟩
      rw [hfurthest]
    · intro hc
      obtain ⟨best, hbest, habsorbs⟩ := hc.resolve_left h
      rw [hbest, Failure.absorbs_iff.mp habsorbs, ← hbest]

/-- What has been noted at a place makes up for a failure that names nothing else there. -/
theorem Context.notes_of_named (hany : ∃ f', f'.offset = f.offset ∧ c.Notes f')
    (hexpected : ∀ m ∈ f.expected, ∃ f', f'.offset = f.offset ∧ c.Notes f' ∧ m ∈ f'.expected)
    (hwhitespace : ∀ m ∈ f.whitespace, ∃ f', f'.offset = f.offset ∧ c.Notes f' ∧ m ∈ f'.whitespace) : c.Notes f := by
  by_cases hs : c.suspended = 0
  case neg => exact notes_iff.mpr (Or.inl hs)
  have absorbed {f' : Failure κ} (h : c.Notes f') : ∃ best, c.furthest = some best ∧ best.Absorbs f' :=
    (notes_iff.mp h).resolve_left (not_not_intro hs)
  obtain ⟨f₀, ho₀, hnotes₀⟩ := hany
  obtain ⟨best, hbest, habsorbs⟩ := absorbed hnotes₀
  refine notes_iff.mpr (Or.inr ⟨best, hbest, ?_⟩)
  cases habsorbs with
  | further h => exact .further (ho₀ ▸ h)
  | here ho hunrepeated _ _ =>
    -- the record stands where the failure does, so it names what has been noted there
    have named {f' : Failure κ} (ho' : f'.offset = f.offset) (h : c.Notes f') :
        f'.expected ⊆ best.expected ∧ f'.whitespace ⊆ best.whitespace := by
      obtain ⟨best', hbest', habsorbs⟩ := absorbed h
      cases hbest.symm.trans hbest'
      cases habsorbs with
      | further h => omega
      | here _ _ hexpected hwhitespace => exact ⟨hexpected, hwhitespace⟩
    refine .here (ho₀ ▸ ho) hunrepeated (fun m hm => ?_) fun m hm => ?_
    · obtain ⟨f', ho', hnotes, hm⟩ := hexpected m hm
      exact (named ho' hnotes).1 hm
    · obtain ⟨f', ho', hnotes, hm⟩ := hwhitespace m hm
      exact (named ho' hnotes).2 hm

/-- A failure that names no more than one that has been noted there. -/
theorem Context.Notes.of_subset (h : c.Notes f) (ho : f'.offset = f.offset) (hexpected : f'.expected ⊆ f.expected)
    (hwhitespace : f'.whitespace ⊆ f.whitespace) : c.Notes f' :=
  notes_of_named ⟨f, ho.symm, h⟩ (fun _ hm => ⟨f, ho.symm, h, hexpected hm⟩) fun _ hm =>
    ⟨f, ho.symm, h, hwhitespace hm⟩

theorem Context.Notes.of_lt (h : c.Notes f) (ho : f'.offset < f.offset) : c.Notes f' := by
  refine notes_iff.mpr ((notes_iff.mp h).imp_right ?_)
  rintro ⟨best, hbest, habsorbs⟩
  refine ⟨best, hbest, ?_⟩
  cases habsorbs with
  | further h => exact .further (Nat.lt_trans ho h)
  | here ho' => exact .further (ho' ▸ ho)

/-- A failure that was recorded has been noted. -/
theorem Context.notes_record (c : Context κ) (hf : f.Unrepeated) : (c.record f).Notes f := c.record_record hf

/-- Whatever the policy is. -/
theorem Context.notes_under_iff {policy : Option RuleId} :
    Context.Notes { c with whitespace := policy } f ↔ c.Notes f := by
  rw [notes_iff, notes_iff]

end Notes

variable [CustomMatcher κ] {g : Grammar κ} {id : RuleId} {v : View} {f : Failure κ} {s t : ParseState κ} {fuel : Nat}

/-! ## 2. Runs -/

/-- **What has been noted stays noted**, whatever is run. -/
theorem Grammar.parse_notes (g : Grammar κ) (fuel : Nat) (id : RuleId) (v : View) (s : ParseState κ)
    (hs : s.context.Notes f) : Leaves (g.parse fuel id v) s fun t => t.context.Notes f := by
  have kept {t : ParseState κ} (hrestored : s.context.Restored t.context)
      (ht : ∃ log, (moves g).Tracks v s.context.furthest (t, log)) : t.context.Notes f := by
    obtain ⟨log, tracks⟩ := ht
    refine Context.notes_iff.mpr ((Context.notes_iff.mp hs).imp (fun h => hrestored.suspended ▸ h) ?_)
    rintro ⟨best, hbest, habsorbs⟩
    have hfurthest : t.context.furthest = deepestOf s.context.furthest (failures log) := tracks.furthest_eq
    rw [hfurthest, hbest]
    exact habsorbs.deepestOf _
  exact ((g.parse_restored fuel id v s).and ((moves_kept g).parse fuel id v s)).imp
    (fun _ _ h => kept h.1 h.2.2) fun _ _ h => kept h.1 h.2.2

/-- **The failure that a run comes to has been noted.** -/
theorem Grammar.parse_noted (hg : g.IsLibrary) (h : g.parse fuel id v s = .ok (.failed f) t) : t.context.Notes f := by
  have unrepeated : f.Unrepeated := ((((unrepeated_kept hg).parse fuel id v s).ok h).1.2 f rfl).1
  induction fuel generalizing id with
  | zero => cases h
  | succ fuel ih =>
    rcases parse_failed_cases h with ⟨rule, f₀, u, u', -, -, -, -, rfl⟩ | ⟨label, target, -, h⟩
    · exact u'.context.notes_record unrepeated
    · exact ih h

/-! ## 3. What rules say -/

/-- A failure that says already what the rule would say. -/
def Grammar.Says (g : Grammar κ) (P : Option RuleId) (id : RuleId) (v : View) (f : Failure κ) : Prop :=
  ∀ f', g.Stamps P id v f f' → f' = f

section Says

variable {P : Option RuleId} {f₀ : Failure κ}

omit [CustomMatcher κ] in
/-- What is allowed is told by what the rule and the policy show. -/
theorem Grammar.Allows.allowed_eq {e : Expectation κ} {ms ms' : List (Matcher κ)} (h : e.ambient = true → g.Allows P ms)
    (h' : e.ambient = true → g.Allows P ms') : e.allowed ms = e.allowed ms' := by
  cases ha : e.ambient with
  | false => rw [e.allowed_of_not_ambient ha, e.allowed_of_not_ambient ha]
  | true => rw [(h ha).unique (h' ha)]

omit [CustomMatcher κ] in
theorem Grammar.Stamps.said (h : g.Stamps P id v f₀ f) : g.Says P id v f := by
  intro f' h'
  cases h' with
  | deeper => rfl
  | entry ho he hms =>
    cases h with
    | deeper ho' => exact absurd ho ho'
    | entry _ he' hms' =>
      cases he.unique he'
      rw [Allows.allowed_eq hms hms', Failure.stampedBy, Failure.stampedBy, orderedUnion_orderedUnion_left,
        orderedUnion_orderedUnion_left]

/-- The failure that a run comes to says all that the rule has to say. -/
theorem Grammar.parse_said (hg : g.IsStraight) (hs : s.derivation.Sure g)
    (h : g.parse fuel id v s = .ok (.failed f) t) : g.Says s.context.whitespace id v f := by
  obtain ⟨f₀, -, hstamps, -⟩ := Grammar.parse_stamped hg hs h
  exact hstamps.said

omit [CustomMatcher κ] in
/-- **A failure that has been noted and says all that a rule would say is reported by it to no effect.** -/
theorem Grammar.report_said (hg : g.IsStraight) (hid : id < g.rules.size) (run : Runner κ) {r : Result κ}
    (hs : s.derivation.Sure g)
    (hr : ∀ f, r = .failed f → g.Says s.context.whitespace id v f ∧ s.context.Notes f)
    (hpolicy : ∀ e, g.Shows id e → e.ambient = true → ∀ p, s.context.whitespace = some p → p < g.rules.size) :
    ∃ d, g.report run id v r s = .ok r { s with derivation := d } ∧ d.Sure g := by
  cases r with
  | parsed x w => exact ⟨s.derivation, rfl, hs⟩
  | failed f =>
    obtain ⟨hsaid, hnotes⟩ := hr f rfl
    obtain ⟨f', d, hreport, hstamps, hd⟩ := report_stamps hg hid hs hpolicy v f run
    cases hsaid _ hstamps
    exact ⟨d, by rw [hreport, show s.context.record f = s.context from hnotes], hd⟩

/-- The failure at the entry of a rule that names what is expected there, under a policy with some matchers. -/
def Expectation.failureAt (e : Expectation κ) (ms : List (Matcher κ)) (v : View) : Failure κ :=
  ⟨v, e.prefixes, e.allowed ms⟩

/-- **A rule that has failed has had everything noted that it expects at its entry.** -/
theorem Grammar.parse_entry_noted (hg : g.IsStraight) (hs : s.derivation.Sure g)
    (h : g.parse fuel id v s = .ok (.failed f) t) {e : Expectation κ} {ms : List (Matcher κ)} (he : g.Shows id e)
    (hms : e.ambient = true → g.Allows s.context.whitespace ms) : t.context.Notes (e.failureAt ms v) := by
  have noted := Grammar.parse_noted hg.library h
  have tail : f.rest.TailOf v := ((g.parse_window fuel id v s).ok h).1
  by_cases ho : f.offset = v.start
  · have hsaid : f.stampedBy e (e.allowed ms) = f := Grammar.parse_said hg hs h _ (.entry ho he hms)
    refine noted.of_subset ho.symm (fun m hm => ?_) fun m hm => ?_
    · rw [← hsaid]
      exact mem_orderedUnion.mpr (Or.inl hm)
    · rw [← hsaid]
      exact mem_orderedUnion.mpr (Or.inl hm)
  · exact noted.of_lt (Nat.lt_of_le_of_ne tail.2.2 (Ne.symm ho))

end Says

end Descent
