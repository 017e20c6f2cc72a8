import Descent.Matcher.Fixed
import Descent.Proofs.Requests
import Descent.Proofs.UserCode

/-!
# Parses stay in their window

Whatever the rules of a grammar are, and whatever the matchers and hand-written rules of a user answer, a run that was
given a window leaves a tail of it, stops in a tail of it, and remembers as its furthest failure one in a tail of it.
A report looks a failure up in the source that was parsed, and refuses a remainder that is no tail of that source: this
**never comes to pass** (`windows_kept`), unless a user's code meets the very fault by itself.

That results are tails is the plainest law of runs. It is kept because every move goes through one checked cut, so
the only thing to look at is which windows rules pass on to one another, and `Body.plan_holds` has looked.
-/

namespace Descent

variable {κ : Type} [CustomMatcher κ]

/-! ## 1. Runs -/

section Run

variable [DecidableEq κ]

/-- The law that results are tails, and that the fault of a foreign remainder is a user's. -/
def moves (g : Grammar κ) : Law κ where
  answer _ v r := r.view.TailOf v
  halt why := ∀ e, why = .fault e → e.IsForeign → g.Raises e

theorem moves_kept (g : Grammar κ) : (moves g).Kept g where
  tail h := h
  target _ h := h
  reported _ hy hr := by
    show Result.view _ |>.TailOf _
    rw [hr.view_eq]
    exact hy.tail id
  stops hr h _ hwhy he := h.raises hr hwhy he
  unresolved label e hwhy he := by
    cases hwhy
    exact he.elim
  unfinished e hwhy := nomatch hwhy
  underived {id d e d'} h := by
    intro e' hwhy he
    cases hwhy
    exact (Grammar.expectationWithin_error _ id d).error h he

/-- A window that shares its source and its end with another. -/
def View.InLineWith (w v : View) : Prop := w.source = v.source ∧ w.stop = v.stop

/-- A run leaves a tail and keeps the furthest failure in line, however it ends. -/
theorem Grammar.parse_window (g : Grammar κ) (fuel : Nat) (id : RuleId) (v : View) (s : ParseState κ) :
    Ensures (g.parse fuel id v) s
      (fun r t => r.view.TailOf v ∧ ((∀ f, s.context.furthest = some f → f.rest.InLineWith v) →
        ∀ f, t.context.furthest = some f → f.rest.InLineWith v))
      (fun why t => (∀ e, why = .fault e → e.IsForeign → g.Raises e) ∧
        ((∀ f, s.context.furthest = some f → f.rest.InLineWith v) →
          ∀ f, t.context.furthest = some f → f.rest.InLineWith v)) := by
  have inLine : ∀ w : View, w.TailOf v → w.InLineWith v := fun w hw => ⟨hw.1, hw.2.1⟩
  refine ((moves_kept g).parse fuel id v s).imp ?_ ?_
  · rintro r t ⟨hr, log, ht⟩
    exact ⟨hr, fun h => ht.furthest_rest (fun h => h) h inLine⟩
  · rintro why t ⟨hwhy, log, ht⟩
    exact ⟨hwhy, fun h => ht.furthest_rest (fun h => h) h inLine⟩

end Run

/-! ## 2. Whole inputs -/

theorem Session.anchored_sound (top : RuleId) : Build.Sound (Session.anchored top : Build κ RuleId) :=
  .bind (.skipping _) fun _ => .bind (.token _ _) fun _ => .bind (.skipping _) fun _ =>
    .bind (.sequence _) fun _ => .map _ _

theorem Session.building_foreign {α : Type} {x : Build κ α} {s : Session κ} {Q : α → Session κ → Prop}
    (hx : x.Sound) (h : ∀ a g, Q a { s with grammar := g }) :
    Ensures (Session.building x) s Q fun p t => ∀ e, p = .fault e → e.IsForeign → t.grammar.Raises e := by
  rw [Session.ensures_building]
  refine (hx s.grammar).imp (fun a g _ => h a g) fun e g he e' hp he' => ?_
  cases hp
  exact absurd he' he

/-- A report on failures in tails of the source is made. -/
theorem Source.report_ok {source : Source} {settings : Settings} {f : Failure κ} {furthest : Option (Failure κ)}
    (hf : f.rest.IsSuffixOf source) (hbest : ∀ best, furthest = some best → best.rest.IsSuffixOf source) :
    ∃ error, source.report settings f furthest = .ok error := by
  have h : (Descent.reported settings f furthest).rest.IsSuffixOf source := by
    unfold Descent.reported
    split
    · exact hf
    next best =>
      split
      · exact hbest best rfl
      · exact hf
  rw [Source.report, Source.locate, if_pos h]
  exact ⟨_, rfl⟩

variable [DecidableEq κ]

/-- The part of a request that runs a rule: from a session without a furthest failure. -/
theorem Session.run_window (settings : Settings) (source : Source) (anchor : RuleId) (policy : Option RuleId)
    (s : Session κ) (hs : s.context.furthest = none) :
    Ensures (Session.afterwards
        (Session.parsing (Parse.underPolicy policy (s.grammar.parse runDepth anchor (.ofSource source))))
        (if settings.logTiming then Session.log 2 "Time to parse" else pure ())) s
      (fun r t => r.view.IsSuffixOf source ∧ ∀ f, t.context.furthest = some f → f.rest.IsSuffixOf source)
      (fun p t => ∀ e, p = .fault e → e.IsForeign → t.grammar.Raises e) := by
  apply Session.ensures_timed
  rw [Session.ensures_parsing]
  rw [Parse.underPolicy, Parse.ensures_bracketed]
  have start : ∀ f, s.context.furthest = some f → f.rest.InLineWith (.ofSource source) := by simp [hs]
  refine (s.grammar.parse_window runDepth anchor (.ofSource source) _).imp ?_ ?_
  · rintro r t ⟨hr, hf⟩ journal
    exact ⟨hr.isSuffixOf, hf start⟩
  · rintro why t ⟨hwhy, -⟩ journal e hp he
    cases why with
    | fault _ => cases hp; exact hwhy e rfl he
    | unfinished => cases hp

theorem Session.parseUnder_foreign (settings : Settings) (top : RuleId) (policy : Option RuleId) (source : Source)
    (s : Session κ) (hs : s.context.furthest = none) :
    Ensures (Session.parseUnder settings top policy source) s (fun _ _ => True)
      fun p t => ∀ e, p = .fault e → e.IsForeign → t.grammar.Raises e := by
  rw [Session.parseUnder, ensures_bind]
  refine Session.building_foreign (Session.anchored_sound top) fun anchor g => ?_
  rw [ensures_bind, ensures_get, ensures_bind]
  refine Session.ensures_log fun journal => ?_
  rw [ensures_bind, ensures_get, ensures_bind]
  refine (Session.run_window settings source anchor policy ⟨g, s.derivation, s.context, journal⟩ hs).imp_ok ?_
  rintro r t ⟨hr, hf⟩
  cases r with
  | parsed value rest => trivial
  | failed f =>
    -- both failures that may be reported are in tails of the source, so the report is made
    obtain ⟨error, herror⟩ : ∃ error, source.report settings f t.context.furthest = .ok error := Source.report_ok hr hf
    dsimp only
    rw [ensures_bind, ensures_get, ensures_bind]
    refine Session.ensures_ofExcept (fun error _ => ?_) fun e he => ?_
    · rw [ensures_bind]
      exact Session.ensures_log fun journal e hp => nomatch hp
    · rw [herror] at he
      cases he

theorem Session.parseToEnd_foreign (settings : Settings) (o : Operand κ) (source : Source) (whitespace : Operand κ)
    (s : Session κ) :
    Ensures (Session.parseToEnd settings o source whitespace) s (fun _ _ => True)
      fun p t => ∀ e, p = .fault e → e.IsForeign → t.grammar.Raises e := by
  rw [Session.parseToEnd, ensures_bind]
  refine Session.building_foreign (.asRule o) fun top g => ?_
  rw [ensures_bind, Session.modifyContext, ensures_modify]
  have rest (policy : Option RuleId) (g : Grammar κ) :
      Ensures (Session.parseUnder settings top policy source) ⟨g, s.derivation, s.context.reset, s.journal⟩
        (fun _ _ => True) fun p t => ∀ e, p = .fault e → e.IsForeign → t.grammar.Raises e :=
    Session.parseUnder_foreign settings top policy source _ rfl
  cases whitespace with
  | absent =>
    simp only [ensures_bind, ensures_get, ensures_pure]
    exact rest _ g
  | _ =>
    rw [ensures_bind]
    exact Session.building_foreign (.policy _) fun policy g => rest policy g

/-- **Parses stay in their window.** Whatever a grammar is made of, a run that ends in a result leaves a tail of its
window, or stops in one, and keeps the furthest failure in a tail if it was in one. So a parse of a whole input never
meets the fault of a remainder that is no tail of the source, unless the code of a user meets it. -/
theorem windows_kept :
    (∀ (g : Grammar κ) (fuel : Nat) (id : RuleId) (v : View) (s : ParseState κ) (r : Result κ) (t : ParseState κ),
      g.parse fuel id v s = .ok r t →
        r.view.source = v.source ∧ r.view.stop = v.stop ∧ v.start ≤ r.view.start ∧ r.view.start ≤ v.stop ∧
          ((∀ f, s.context.furthest = some f → f.rest.InLineWith v) →
            ∀ f, t.context.furthest = some f → f.rest.InLineWith v)) ∧
    (∀ (settings : Settings) (o : Operand κ) (source : Source) (whitespace : Operand κ) (s t : Session κ)
      (remainder : String) (n : Nat),
      Session.parseToEnd settings o source whitespace s = .error (.fault (.foreignBuffer remainder n)) t →
        t.grammar.Raises (.foreignBuffer remainder n)) := by
  refine ⟨fun g fuel id v s r t h => ?_, fun settings o source whitespace s t remainder n h => ?_⟩
  · obtain ⟨hr, hf⟩ := (g.parse_window fuel id v s).ok h
    exact ⟨hr.1, hr.2.1, hr.2.2, hr.start_le_stop, hf⟩
  · exact (Session.parseToEnd_foreign settings o source whitespace s).error h _ rfl trivial

/-- A rule that stops one character further on, and one with a transform that meets the fault itself. -/
def stepping : Grammar FixedMatcher where
  rules := #[⟨none, .handWritten (fun _ => .ok (.failed 1 [] [])) none⟩,
    ⟨none, .token .endOfInput (some fun _ => .error (.foreignBuffer "" 0))⟩]
  names := []
  customs := 0

/-- The first stops inside its window, and the fault of the second is its transform's. -/
theorem windows_kept_stepping :
    let v := View.ofSource ⟨0, ['c']⟩
    let s : Session FixedMatcher := { Session.fresh with grammar := stepping }
    (∃ r t, stepping.parse 1 0 v ⟨.fresh, .fresh none 0⟩ = .ok r t ∧ r.view.start = 1 ∧ r.view.start ≤ v.stop ∧
      ∀ f, t.context.furthest = some f → f.rest.InLineWith v) ∧
    ∃ t, Session.parseToEnd .default (.rule 1) ⟨0, []⟩ .absent s = .error (.fault (.foreignBuffer "" 0)) t ∧
      t.grammar.Raises (.foreignBuffer "" 0) := by
  intro v s
  refine ⟨?_, ?_⟩
  · obtain ⟨t, h⟩ : ∃ t, stepping.parse 1 0 v ⟨.fresh, .fresh none 0⟩ =
        .ok (.failed ⟨⟨v.source, 1, 1, by decide, by decide⟩, [], []⟩) t := ⟨_, rfl⟩
    obtain ⟨-, -, -, hstop, hf⟩ := windows_kept.1 stepping 1 0 v _ _ t h
    exact ⟨_, t, h, rfl, hstop, hf fun f hf => nomatch hf⟩
  · obtain ⟨t, h⟩ : ∃ t, Session.parseToEnd .default (.rule 1) ⟨0, []⟩ .absent s =
        .error (.fault (.foreignBuffer "" 0)) t := ⟨_, rfl⟩
    exact ⟨t, h, windows_kept.2 .default (.rule 1) ⟨0, []⟩ .absent s t "" 0 h⟩

end Descent
