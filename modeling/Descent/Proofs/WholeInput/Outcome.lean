import Descent.Proofs.Restored
import Descent.Proofs.Window
import Descent.Proofs.WholeInput.Anchor

/-!
# How a whole-input request ends

A request for a whole input is made of two. The first one *prepares*: it makes rules of what it was given, clears the
record of failures, and builds the anchor. Nothing is read yet, and what the settings say is not asked
(`Session.prepared`). The second one *concludes*: it runs the anchor under the policy and makes a value or a report of
what comes out (`Session.concluded`).

So there is one run, the same for all settings (`Preparation.run`), and how the request ends is read off it: a value is
the value, a failure is reported, a fault is passed on. **The report is always made**, since a run that starts without a
furthest failure keeps it in the source.
-/

namespace Descent

variable {κ : Type}

/-- What is run for a whole input: a rule, under a policy, through its anchor. -/
structure Preparation where
  top : RuleId
  policy : Option RuleId
  anchor : RuleId

/-- What a run starts from, in a session. -/
def Preparation.start (p : Preparation) (s : Session κ) : ParseState κ :=
  ⟨s.derivation, { s.context with whitespace := p.policy }⟩

/-- A session after a run, with its own policy again. -/
def Session.resumed (s : Session κ) (t : ParseState κ) (journal : List String) : Session κ :=
  ⟨s.grammar, t.derivation, { t.context with whitespace := s.context.whitespace }, journal⟩

variable [DecidableEq κ] [CustomMatcher κ]

/-- The run of a prepared request. -/
def Preparation.run (p : Preparation) (source : Source) (s : Session κ) :
    EStateM.Result Stop (ParseState κ) (Result κ) :=
  s.grammar.parse runDepth p.anchor (.ofSource source) (p.start s)

namespace Session

variable {settings : Settings} {source : Source} {o whitespace : Operand κ} {p : Preparation} {s s' : Session κ}

/-! ## 1. Preparing and concluding -/

/-- The policy of a request, which is the context's own one unless it is given another. -/
def chosenPolicy : Operand κ → Request κ (Option RuleId)
  | .absent => do return (← get).context.whitespace
  | whitespace => building (Build.policy whitespace)

/-- The first part of a request for a whole input. -/
def prepared (o whitespace : Operand κ) : Request κ Preparation := do
  let top ← building (Build.asRule o)
  modifyContext Context.reset
  let policy ← chosenPolicy whitespace
  return ⟨top, policy, ← building (anchored top)⟩

/-- The second part of a request for a whole input. -/
def concluded (settings : Settings) (source : Source) (p : Preparation) : Request κ (Value κ) := do
  log 2 s!"Parsing {source.length} characters with {(← get).grammar.shown p.top}"
  let g := (← get).grammar
  let result ← afterwards
    (parsing (Parse.underPolicy p.policy (g.parse runDepth p.anchor (.ofSource source))))
    (if settings.logTiming then log 2 "Time to parse" else pure ())
  match result with
  | .parsed value _ => return value
  | .failed f =>
    let error ← ofExcept (source.report settings f (← get).context.furthest)
    log 1 s!"Parse failed\n{error.message}"
    throw (.rejected error)

theorem parseToEnd_eq (settings : Settings) (o : Operand κ) (source : Source) (whitespace : Operand κ) :
    parseToEnd settings o source whitespace = prepared o whitespace >>= concluded settings source := by
  rw [parseToEnd, prepared]
  simp only [bind_assoc, pure_bind]
  refine bind_congr fun top => bind_congr fun _ => ?_
  cases whitespace with
  | _ => rfl

/-- What a preparation leaves for the conclusion. -/
structure Prepares (o whitespace : Operand κ) (s : Session κ) (p : Preparation) (s' : Session κ) : Prop where
  grammar : s.grammar.IsPartOf s'.grammar
  derivation : s'.derivation = s.derivation
  context : s'.context = s.context.reset
  anchor : s'.grammar.IsAnchor p.top p.anchor
  /-- a rule is run itself -/
  top : ∀ id, o = .rule id → p.top = id
  /-- without a policy the context's own one is meant -/
  own : whitespace = .absent → p.policy = s.context.whitespace
  policy : ∀ id, whitespace = .rule id → p.policy = some id

omit [DecidableEq κ] in
theorem chosenPolicy_ensures (whitespace : Operand κ) (s : Session κ) :
    Ensures (chosenPolicy whitespace) s
      (fun policy s' => (∃ g, s' = { s with grammar := g } ∧ s.grammar.IsPartOf g) ∧
        (whitespace = .absent → policy = s.context.whitespace) ∧ ∀ id, whitespace = .rule id → policy = some id)
      fun why s' => (∃ e, why = .fault e) ∧ s'.context = s.context ∧ ¬ whitespace.IsPolicy := by
  have built (h : whitespace ≠ .absent) : Ensures (building (Build.policy whitespace)) s
      (fun policy s' => (∃ g, s' = { s with grammar := g } ∧ s.grammar.IsPartOf g) ∧
        (whitespace = .absent → policy = s.context.whitespace) ∧ ∀ id, whitespace = .rule id → policy = some id)
      fun why s' => (∃ e, why = .fault e) ∧ s'.context = s.context ∧ ¬ whitespace.IsPolicy := by
    rw [ensures_building]
    refine (Build.policy_ensures whitespace s.grammar).imp ?_ fun e g he => ⟨⟨e, rfl⟩, rfl, he⟩
    rintro policy g ⟨hg, hpolicy⟩
    exact ⟨⟨g, rfl, hg⟩, fun habsent => absurd habsent h, hpolicy⟩
  cases whitespace with
  | absent => exact ⟨⟨s.grammar, rfl, .refl _⟩, fun _ => rfl, fun _ h => nomatch h⟩
  | _ => exact built (by simp)

omit [DecidableEq κ] in
/-- Things that can stand for a rule and a policy are all that a preparation needs. -/
theorem prepared_ensures (o whitespace : Operand κ) (s : Session κ) :
    Ensures (prepared o whitespace) s (Prepares o whitespace s) fun why s' =>
      (∃ e, why = .fault e) ∧ s'.context.whitespace = s.context.whitespace ∧
        ¬ (o.IsRule ∧ whitespace.IsPolicy) := by
  rw [prepared, ensures_bind, ensures_building]
  refine (Build.asRule_ensures o s.grammar).imp ?_ fun e g he => ⟨⟨e, rfl⟩, rfl, fun h => he h.1⟩
  rintro top g ⟨hg, htop⟩
  rw [ensures_bind, modifyContext, ensures_modify, ensures_bind]
  refine (chosenPolicy_ensures whitespace _).imp ?_ ?_
  · rintro policy s' ⟨⟨g', rfl, hg'⟩, hown, hpolicy⟩
    rw [ensures_bind, ensures_building]
    refine (anchored_ensures top g' (E := fun _ _ => False)).imp ?_ fun _ _ h => h.elim
    rintro anchor g'' ⟨hg'', hanchor⟩
    exact ⟨hg.trans (hg'.trans hg''), rfl, rfl, hanchor, htop, hown, hpolicy⟩
  · rintro why s' ⟨hwhy, hcontext, hno⟩
    refine ⟨hwhy, ?_, fun h => hno h.2⟩
    rw [hcontext]
    rfl

/-! ## 2. Endings -/

/-- How a prepared request ends, read off its run. -/
inductive Concludes (settings : Settings) (source : Source) (p : Preparation) (s : Session κ) :
    EStateM.Result Problem (Session κ) (Value κ) → Prop
  | value {x : Value κ} {w : View} {t : ParseState κ} {journal : List String}
      (hrun : p.run source s = .ok (.parsed x w) t) : Concludes settings source p s (.ok x (s.resumed t journal))
  | rejected {f : Failure κ} {t : ParseState κ} {error : ParseError} {journal : List String}
      (hrun : p.run source s = .ok (.failed f) t) (hreport : source.report settings f t.context.furthest = .ok error) :
      Concludes settings source p s (.error (.rejected error) (s.resumed t journal))
  | stopped {why : Stop} {t : ParseState κ} {journal : List String} (hrun : p.run source s = .error why t) :
      Concludes settings source p s (.error why.problem (s.resumed t journal))

namespace Concludes

variable {ending : EStateM.Result Problem (Session κ) (Value κ)}

theorem value_iff (h : Concludes settings source p s ending) {x : Value κ} :
    (∃ u, ending = .ok x u) ↔ ∃ w t, p.run source s = .ok (.parsed x w) t := by
  cases h with
  | value hrun => simp [hrun]
  | rejected hrun hreport => simp [hrun]
  | stopped hrun => simp [hrun]

theorem rejected_of (h : Concludes settings source p s ending) {f : Failure κ} {t : ParseState κ}
    (hf : p.run source s = .ok (.failed f) t) : ∃ error u, ending = .error (.rejected error) u := by
  cases h with
  | value hrun => cases hf.symm.trans hrun
  | rejected hrun hreport => exact ⟨_, _, rfl⟩
  | stopped hrun => cases hf.symm.trans hrun

/-- What is rejected is a run that failed, and is reported as it failed. -/
theorem of_rejected (h : Concludes settings source p s ending) {error : ParseError} {u : Session κ}
    (he : ending = .error (.rejected error) u) :
    ∃ f t journal, p.run source s = .ok (.failed f) t ∧
      source.report settings f t.context.furthest = .ok error ∧ u = s.resumed t journal := by
  cases h with
  | value hrun => cases he
  | rejected hrun hreport =>
    cases he
    exact ⟨_, _, _, hrun, hreport, rfl⟩
  | @stopped why t journal hrun => cases why <;> cases he

/-- A run that stops stops the request. -/
theorem stops_of (h : Concludes settings source p s ending) {why : Stop} {t : ParseState κ}
    (hwhy : p.run source s = .error why t) : ∃ u, ending = .error why.problem u := by
  cases h with
  | value hrun => cases hwhy.symm.trans hrun
  | rejected hrun hreport => cases hwhy.symm.trans hrun
  | stopped hrun =>
    cases hwhy.symm.trans hrun
    exact ⟨_, rfl⟩

end Concludes

/-- The anchor is run under the policy, the policy is put back, and no more than a message is added. -/
theorem run_ensures (settings : Settings) (source : Source) (p : Preparation) (s : Session κ) :
    Ensures (afterwards
        (parsing (Parse.underPolicy p.policy (s.grammar.parse runDepth p.anchor (.ofSource source))))
        (if settings.logTiming then log 2 "Time to parse" else pure ())) s
      (fun r u => ∃ t journal, p.run source s = .ok r t ∧ u = s.resumed t journal)
      (fun e u => ∃ why t journal, p.run source s = .error why t ∧ e = why.problem ∧ u = s.resumed t journal) := by
  apply ensures_timed
  rw [ensures_parsing, Parse.underPolicy, Parse.ensures_bracketed]
  exact (ensures_self _ _).imp (fun r t hrun journal => ⟨t, journal, hrun, rfl⟩)
    fun why t hrun journal => ⟨why, t, journal, hrun, rfl, rfl⟩

/-- **A request ends as its run does.** -/
theorem concluded_concludes (hs : s.context.furthest = none) :
    Concludes settings source p s (concluded settings source p s) := by
  suffices h : Ensures (concluded settings source p) s (fun x u => Concludes settings source p s (.ok x u))
      fun e u => Concludes settings source p s (.error e u) by
    unfold Ensures at h
    cases hx : concluded settings source p s <;> simpa only [hx] using h
  rw [concluded, ensures_bind, ensures_get, ensures_bind]
  refine ensures_log fun journal => ?_
  rw [ensures_bind, ensures_get, ensures_bind]
  refine (run_ensures settings source p _).imp ?_ ?_
  · rintro r u ⟨t, journal, hrun, rfl⟩
    cases r with
    | parsed x w => exact .value hrun
    | failed f =>
      have start : ∀ f, (p.start s).context.furthest = some f → f.rest.InLineWith (.ofSource source) := by
        intro f hf
        cases hs.symm.trans hf
      obtain ⟨hr, hf⟩ := (s.grammar.parse_window runDepth p.anchor (.ofSource source) (p.start s)).ok hrun
      obtain ⟨error, herror⟩ : ∃ error, source.report settings f t.context.furthest = .ok error :=
        Source.report_ok hr.isSuffixOf (hf start)
      dsimp only
      rw [ensures_bind, ensures_get, ensures_bind]
      refine ensures_ofExcept (fun error hreport => ?_) fun e he => ?_
      · rw [ensures_bind]
        exact ensures_log fun journal => .rejected hrun hreport
      · cases herror.symm.trans he
  · rintro e u ⟨why, t, journal, hrun, rfl, rfl⟩
    exact .stopped hrun

/-! ## 3. From start to end -/

/-- What a request for a whole input does after it is prepared. -/
theorem parseToEnd_concludes (settings : Settings) (source : Source) (hp : prepared o whitespace s = .ok p s') :
    Concludes settings source p s' (parseToEnd settings o source whitespace s) := by
  have hs' : s'.context.furthest = none := by
    rw [((prepared_ensures o whitespace s).ok hp).context]
    rfl
  rw [parseToEnd_eq, bind_apply_of_ok hp]
  exact concluded_concludes hs'

end Session

end Descent
