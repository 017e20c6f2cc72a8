import Descent.Matcher.Fixed
import Descent.Proofs.Run.Law
import Descent.Proofs.WholeInput.Coherent

/-!
# The two ways of reporting agree

A report names the furthest failure on record or the one that the parse ended with; which of them is a setting. The two
come about in ways of their own: the one is merged from all failures of a run, the other is handed upwards from rule to
rule and changed on its way. **They never contradict each other** (`Session.reporting_modes_agree`). The setting has no
say in how a request ends. Where it ends in a report, the furthest failure stands at the greatest offset at which a call
failed, the failure that the parse ended with stands no further, and what it names there the furthest one names too.

The key is that the last failure is on record: a rule changes a failure, and *then* offers it, so the failure that comes
out of a run is one that the record has taken into account as it is (`Grammar.parse_covered`). So the report of the
furthest failure never has to fall back on the other one.
-/

namespace Descent

variable {κ : Type} [DecidableEq κ]

/-! ## 1. The last failure is on record -/

/-- A record that has taken a failure into account. -/
def Context.Covers (c : Context κ) (f : Failure κ) : Prop :=
  ∃ best, c.furthest = some best ∧ f.offset ≤ best.offset ∧
    (f.offset = best.offset → f.expected ⊆ best.expected ∧ f.whitespace ⊆ best.whitespace)

theorem Context.le_offset_deepest (furthest : Option (Failure κ)) (f : Failure κ) :
    f.offset ≤ (deepest furthest f).offset := by
  cases furthest with
  | none => exact Nat.le_refl _
  | some best =>
    rw [deepest]
    split
    · exact Nat.le_refl _
    next hlt =>
      have hle : f.offset ≤ best.offset := Nat.le_of_not_lt hlt
      split <;> exact hle

theorem Context.covers_record {c : Context κ} (hc : c.suspended = 0) (f : Failure κ) : (c.record f).Covers f := by
  refine ⟨deepest c.furthest f, by rw [record, if_neg (by simp [hc])], le_offset_deepest _ _, fun heq => ?_⟩
  cases hfurthest : c.furthest with
  | none => exact ⟨List.Subset.refl _, List.Subset.refl _⟩
  | some best =>
    rw [hfurthest, deepest] at heq
    rw [deepest]
    by_cases hlt : best.offset < f.offset
    · rw [if_pos hlt]
      exact ⟨List.Subset.refl _, List.Subset.refl _⟩
    · rw [if_neg hlt] at heq ⊢
      by_cases h : f.offset = best.offset
      · -- at one offset, what the failure names comes last in the union
        rw [if_pos h]
        exact ⟨fun m hm => mem_orderedUnion.mpr (Or.inr hm), fun m hm => mem_orderedUnion.mpr (Or.inr hm)⟩
      · rw [if_neg h] at heq
        exact absurd heq h

variable [CustomMatcher κ]

/-- A placeholder does what its target does, if it has one. -/
theorem Grammar.step_of_isPlaceholder {g : Grammar κ} {id : RuleId} (h : g.isPlaceholder id = true) (run : Runner κ)
    (v : View) : (∃ label, g.step run id v = throw (.fault (.unresolved label))) ∨
      ∃ target, g.step run id v = run target v := by
  rw [Grammar.isPlaceholder] at h
  split at h
  next label target hr =>
    rw [Grammar.step, hr]
    cases target with
    | none => exact Or.inl ⟨label, rfl⟩
    | some target => exact Or.inr ⟨target, rfl⟩
  next => cases h

/-- **A run that fails has its failure on record**, if failures are recorded in it. -/
theorem Grammar.parse_covered {g : Grammar κ} {fuel : Nat} {id : RuleId} {v : View} {s t : ParseState κ}
    {f : Failure κ} (hs : s.context.suspended = 0) (h : g.parse fuel id v s = .ok (.failed f) t) :
    t.context.Covers f := by
  induction fuel generalizing id v with
  | zero => cases h
  | succ fuel ih =>
    rw [Grammar.parse] at h
    cases hp : g.isPlaceholder id with
    | true =>
      rcases Grammar.step_of_isPlaceholder hp (g.parse fuel) v with ⟨label, hstep⟩ | ⟨target, hstep⟩
      · rw [hstep] at h
        cases h
      · rw [hstep] at h
        exact ih h
    | false =>
      rw [Grammar.step_eq] at h
      obtain ⟨r, u, hplan, h⟩ := bind_eq_ok.mp h
      have hu : u.context.suspended = 0 :=
        ((Plan.exec_restored (g.parse_restored fuel) _ s).ok hplan).suspended.trans hs
      -- what the plan came to is offered before it is the result
      simp only [hp] at h
      obtain ⟨_, t', hoffer, h⟩ := bind_eq_ok.mp h
      obtain ⟨rfl, rfl⟩ := pure_eq_ok.mp h
      cases hoffer
      exact Context.covers_record hu f

/-! ## 2. The record stands furthest -/

omit [CustomMatcher κ] in
theorem offset_le_deepestOf {furthest : Option (Failure κ)} {fs : List (Failure κ)} {best : Failure κ}
    (h : deepestOf furthest fs = some best) : ∀ f ∈ furthest.toList ++ fs, f.offset ≤ best.offset := by
  induction fs generalizing furthest with
  | nil =>
    intro f hf
    cases h
    cases List.mem_singleton.mp hf
    exact Nat.le_refl _
  | cons f fs ih =>
    have rest : ∀ f' ∈ Context.deepest furthest f :: fs, f'.offset ≤ best.offset := ih h
    obtain ⟨hfirst, hrest⟩ := List.forall_mem_cons.mp rest
    intro f' hf'
    rcases List.mem_append.mp hf' with hbefore | hf'
    · cases furthest with
      | none => cases hbefore
      | some before =>
        rw [List.mem_singleton.mp hbefore]
        exact Nat.le_trans (Context.offset_le_deepest _ f) hfirst
    · rcases List.mem_cons.mp hf' with rfl | hf'
      · exact Nat.le_trans (Context.le_offset_deepest furthest f') hfirst
      · exact hrest f' hf'

/-- The furthest failure of a run that starts without one stands at the greatest offset of the failures in the log. -/
theorem Grammar.furthest_logged (g : Grammar κ) (fuel : Nat) (id : RuleId) (v : View) {s : ParseState κ}
    (hs : s.context.furthest = none) {best : Failure κ} :
    let st := Logged.left (g.logged fuel id v (s, []))
    st.1.context.furthest = some best →
      (∃ f ∈ failures st.2, f.offset = best.offset) ∧ ∀ f ∈ failures st.2, f.offset ≤ best.offset := by
  intro st hbest
  have tracks := (moves_kept g).tracks fuel id v s
  rw [tracks.furthest_eq, hs] at hbest
  refine ⟨?_, offset_le_deepestOf hbest⟩
  exact rest_of_deepestOf (P := fun w => ∃ f ∈ failures st.2, f.offset = w.start) (fun f (hf : none = some f) => nomatch hf)
    (fun f hf => ⟨f, hf, rfl⟩) best hbest

/-! ## 3. Reports -/

omit [DecidableEq κ] in
theorem descriptions_subset {ms ms' : List (Matcher κ)} (h : ms ⊆ ms') : descriptions ms ⊆ descriptions ms' := by
  intro d hd
  obtain ⟨m, hm, hd⟩ := mem_descriptions.mp hd
  exact mem_descriptions.mpr ⟨m, h hm, hd⟩

omit [DecidableEq κ] [CustomMatcher κ] in
theorem reported_lastTried (settings : Settings) (f : Failure κ) (furthest : Option (Failure κ)) :
    reported { settings with reportFurthest := false } f furthest = f := by
  cases furthest <;> rfl

omit [DecidableEq κ] [CustomMatcher κ] in
theorem reported_furthest (settings : Settings) {f best : Failure κ} (h : f.offset ≤ best.offset) :
    reported { settings with reportFurthest := true } f (some best) = best := by
  simp [reported, h]

/-- The run of a prepared request, with a log. -/
def Preparation.logged (p : Preparation) (source : Source) (s : Session κ) :
    EStateM.Result Stop (ParseState κ × List (Call κ)) (Result κ) :=
  s.grammar.logged runDepth p.anchor (.ofSource source) (p.start s, [])

namespace Session

/-- The stop that a problem is to a request, unless it is a rejection. -/
def stop? : Problem → Option Stop
  | .fault e => some (.fault e)
  | .rejected _ => none
  | .unfinished => some .unfinished

/-- How a request ends and what it leaves, but for what is said of it: reports and messages. -/
def ending : EStateM.Result Problem (Session κ) (Value κ) → Except (Option Stop) (Value κ) × Session κ
  | .ok x u => (.ok x, { u with journal := [] })
  | .error p u => (.error (stop? p), { u with journal := [] })

/-- The ending that a run in a session leads to. -/
def endingOf (s : Session κ) :
    EStateM.Result Stop (ParseState κ) (Result κ) → Except (Option Stop) (Value κ) × Session κ
  | .ok (.parsed x _) t => (.ok x, s.resumed t [])
  | .ok (.failed _) t => (.error none, s.resumed t [])
  | .error why t => (.error (some why), s.resumed t [])

/-- How a request ends is up to its run, and not to its settings. -/
theorem Concludes.ending_eq {settings : Settings} {source : Source} {p : Preparation} {s : Session κ}
    {x : EStateM.Result Problem (Session κ) (Value κ)} (h : Concludes settings source p s x) :
    ending x = s.endingOf (p.run source s) := by
  cases h with
  | value hrun =>
    rw [hrun]
    rfl
  | rejected hrun hreport =>
    rw [hrun]
    rfl
  | @stopped why t journal hrun =>
    rw [hrun]
    cases why <;> rfl

/-- **The two ways of reporting agree.** Whether the furthest failure is reported or the one that a parse ended with
does not change how a request ends: in which value, in a report, or in which fault; nor what it leaves. If it ends in
reports, the one of the furthest failure is about the furthest failure on record, which stands at the greatest offset
of the failures that calls returned while failures were recorded. The other one is about no later place, and if it is
about the same one, then it describes nothing that the first does not describe. -/
theorem reporting_modes_agree (settings : Settings) (o : Operand κ) (source : Source) (whitespace : Operand κ)
    (s : Session κ) :
    let furthest := parseToEnd { settings with reportFurthest := true } o source whitespace s
    let lastTried := parseToEnd { settings with reportFurthest := false } o source whitespace s
    ending furthest = ending lastTried ∧
    ∀ e u e' u', furthest = .error (.rejected e) u → lastTried = .error (.rejected e') u' →
      ∃ p s' best, prepared o whitespace s = .ok p s' ∧
        u.context.furthest = some best ∧ u'.context.furthest = some best ∧ e.position = best.offset ∧
        Logged.forget (p.logged source s') = p.run source s' ∧
        (∃ f ∈ failures (Logged.left (p.logged source s')).2, f.offset = best.offset) ∧
        (∀ f ∈ failures (Logged.left (p.logged source s')).2, f.offset ≤ best.offset) ∧
        e'.position ≤ e.position ∧
        (e'.position = e.position → e'.expected ⊆ e.expected ∧ e'.whitespace ⊆ e.whitespace) := by
  intro furthest lastTried
  cases hp : prepared o whitespace s with
  | error why u =>
    -- what cannot be prepared ends in one fault both ways
    obtain ⟨⟨fault, rfl⟩, -⟩ := (prepared_ensures o whitespace s).error hp
    have stopped (settings : Settings) :
        parseToEnd settings o source whitespace s = .error (.fault fault) u := by
      rw [parseToEnd_eq, bind_apply_of_error hp]
    refine ⟨?_, fun e v e' v' he => ?_⟩
    · exact congrArg ending ((stopped _).trans (stopped _).symm)
    · cases (stopped _).symm.trans he
  | ok p s' =>
    have concludes := parseToEnd_concludes { settings with reportFurthest := true } source hp
    have concludes' := parseToEnd_concludes { settings with reportFurthest := false } source hp
    refine ⟨concludes.ending_eq.trans concludes'.ending_eq.symm, fun e u e' u' he he' => ?_⟩
    obtain ⟨f, t, _, hrun, hreport, rfl⟩ := concludes.of_rejected he
    obtain ⟨f', t', _, hrun', hreport', rfl⟩ := concludes'.of_rejected he'
    cases hrun.symm.trans hrun'
    -- the record was cleared, and the failure of the run is on it
    have hcontext : s'.context = s.context.reset := ((prepared_ensures o whitespace s).ok hp).context
    have hsuspended : (p.start s').context.suspended = 0 := congrArg Context.suspended hcontext
    have hfurthest : (p.start s').context.furthest = none := congrArg Context.furthest hcontext
    obtain ⟨best, hbest, hle, hnamed⟩ : t.context.Covers f := Grammar.parse_covered hsuspended hrun
    rw [hbest] at hreport hreport'
    -- the one report is about the failure on the record, the other about the failure of the run
    obtain ⟨-, rfl⟩ := Source.report_eq hreport
    obtain ⟨-, rfl⟩ := Source.report_eq hreport'
    simp only [reported_furthest settings hle, reported_lastTried]
    -- the log that the run could have kept
    have forget : Logged.forget (p.logged source s') = p.run source s' :=
      s'.grammar.forget_logged runDepth p.anchor _ _ []
    have left : (Logged.left (p.logged source s')).1.context.furthest = some best := by
      rw [Logged.left_of_forget (forget.trans hrun)]
      exact hbest
    obtain ⟨attained, greatest⟩ := s'.grammar.furthest_logged runDepth p.anchor _ hfurthest left
    refine ⟨p, s', best, rfl, hbest, hbest, rfl, forget, attained, greatest, ?_, fun heq => ?_⟩
    · exact_mod_cast hle
    · obtain ⟨hsub, hsub'⟩ := hnamed (by exact_mod_cast heq)
      exact ⟨descriptions_subset hsub, descriptions_subset hsub'⟩

end Session

/-- Two letters in a row, or another one; and that other one twice, with a letter between that may be left out. -/
def pairOrOther : Grammar FixedMatcher where
  rules := #[⟨none, .token (.charClass ⟨.set (.between 'b' 'b'), "b", false⟩) none⟩,
    ⟨none, .token (.charClass ⟨.set (.between 'd' 'd'), "d", false⟩) none⟩, ⟨none, .sequence [0, 0]⟩,
    ⟨none, .either [2, 1]⟩, ⟨none, .optional 0 .none⟩, ⟨none, .sequence [1, 4, 1]⟩]
  names := []
  customs := 0

/-- After one letter of the pair the second branch is tried last, at the start; the furthest failure is behind it.
Where the letter between the others is not there, the two reports stand at one place, and the one of the furthest
failure names that letter as well. -/
theorem reporting_modes_agree_pairOrOther :
    let s : Session FixedMatcher := { Session.fresh with grammar := pairOrOther }
    let request (reportFurthest : Bool) (rule : RuleId) (text : List Char) :=
      Session.parseToEnd { Settings.default with reportFurthest } (.rule rule) ⟨0, text⟩ .absent s
    (∃ e u e' u', request true 3 ['b', 'c'] = .error (.rejected e) u ∧
      request false 3 ['b', 'c'] = .error (.rejected e') u' ∧
      e'.position < e.position ∧ ∃ best, u.context.furthest = some best ∧ e.position = best.offset) ∧
    ∃ e u e' u', request true 5 ['d', 'c'] = .error (.rejected e) u ∧
      request false 5 ['d', 'c'] = .error (.rejected e') u' ∧
      e.position = 1 ∧ e'.position = 1 ∧ e.expected = ["[b]", "[d]"] ∧ e'.expected = ["[d]"] ∧
      e'.expected ⊆ e.expected := by
  intro s request
  constructor
  · obtain ⟨_, u, he, e, rfl, hposition⟩ := Ensures.exists_error (s := s)
      (x := Session.parseToEnd { Settings.default with reportFurthest := true } (.rule 3) ⟨0, ['b', 'c']⟩ .absent)
      (E := fun why _ => ∃ e, why = .rejected e ∧ e.position = 1) (by decide +kernel)
    obtain ⟨_, u', he', e', rfl, hposition'⟩ := Ensures.exists_error (s := s)
      (x := Session.parseToEnd { Settings.default with reportFurthest := false } (.rule 3) ⟨0, ['b', 'c']⟩ .absent)
      (E := fun why _ => ∃ e, why = .rejected e ∧ e.position = 0) (by decide +kernel)
    obtain ⟨-, agree⟩ := Session.reporting_modes_agree .default (.rule 3) ⟨0, ['b', 'c']⟩ .absent s
    obtain ⟨-, -, best, -, hbest, -, hoffset, -⟩ := agree e u e' u' he he'
    refine ⟨e, u, e', u', he, he', ?_, best, hbest, hoffset⟩
    rw [hposition, hposition']
    decide
  · obtain ⟨_, u, he, e, rfl, hposition, hexpected⟩ := Ensures.exists_error (s := s)
      (x := Session.parseToEnd { Settings.default with reportFurthest := true } (.rule 5) ⟨0, ['d', 'c']⟩ .absent)
      (E := fun why _ => ∃ e, why = .rejected e ∧ e.position = 1 ∧ e.expected = ["[b]", "[d]"]) (by decide +kernel)
    obtain ⟨_, u', he', e', rfl, hposition', hexpected'⟩ := Ensures.exists_error (s := s)
      (x := Session.parseToEnd { Settings.default with reportFurthest := false } (.rule 5) ⟨0, ['d', 'c']⟩ .absent)
      (E := fun why _ => ∃ e, why = .rejected e ∧ e.position = 1 ∧ e.expected = ["[d]"]) (by decide +kernel)
    obtain ⟨-, agree⟩ := Session.reporting_modes_agree .default (.rule 5) ⟨0, ['d', 'c']⟩ .absent s
    obtain ⟨-, -, -, -, -, -, -, -, -, -, -, subset⟩ := agree e u e' u' he he'
    exact ⟨e, u, e', u', he, he', hposition, hposition', hexpected, hexpected',
      (subset (hposition'.trans hposition.symm)).1⟩

end Descent
