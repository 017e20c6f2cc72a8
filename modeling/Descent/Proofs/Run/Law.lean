import Descent.Proofs.Body
import Descent.Proofs.Run.Log
import Descent.Proofs.Run.Tail

/-!
# Laws of runs

What a rule may answer depends on what other rules answer, and these depend on it: a grammar refers back to itself.
So a law about results is proved the way a specification of recursive procedures is. A `Law` says which answers a
rule may give to a window and why a run may stop. It is *kept* by a grammar if every rule obeys it **provided that
the rules it calls do**, and then it holds of every run, of every call in the log, and however the run ends.

The provision is about plans, where there is no state, so a law is checked against single answers. To spare each law
the walk over the combinators, that walk is done once: `Body.Yields` says what bodies come to, `Body.Stops` why they
stop, and `Result.Reported` what stamping makes of the first.

One statement about the state comes along with every law, because it is the same for all of them: the furthest
failure is the one before, merged with the failures of the log one after another.
-/

namespace Descent

variable {κ α β : Type}

/-- What rules may answer to a window, and why runs may stop. -/
structure Law (κ : Type) where
  answer : RuleId → View → Result κ → Prop
  halt : Stop → Prop

/-! ## 1. Laws on plans -/

/-- The plan asks rules about tails of a window only, ends in `Q` and stops lawfully, as long as its calls are
answered lawfully. -/
def Plan.Holds (L : Law κ) (v : View) : Plan κ α → (α → Prop) → Prop
  | .done a, Q => Q a
  | .stop why, _ => L.halt why
  | .policy next, Q => ∀ p, (next p).Holds L v Q
  | .expect _ next, Q => ∀ e, (next e).Holds L v Q
  | .call _ id w next, Q => w.TailOf v ∧ ∀ r, L.answer id w r → (next r).Holds L v Q

namespace Plan.Holds

variable {L : Law κ} {v : View} {p : Plan κ α} {Q : α → Prop}

theorem imp {Q' : α → Prop} (h : p.Holds L v Q) (hQ : ∀ a, Q a → Q' a) : p.Holds L v Q' := by
  induction p with
  | done a => exact hQ a h
  | stop why => exact h
  | policy next ih => exact fun q => ih q (h q)
  | expect id next ih => exact fun e => ih e (h e)
  | call scope id w next ih => exact ⟨h.1, fun r hr => ih r (h.2 r hr)⟩

theorem bind {f : α → Plan κ β} {R : β → Prop} (h : p.Holds L v fun a => (f a).Holds L v R) :
    (p.bind f).Holds L v R := by
  induction p with
  | done a => exact h
  | stop why => exact h
  | policy next ih => exact fun q => ih q (h q)
  | expect id next ih => exact fun e => ih e (h e)
  | call scope id w next ih => exact ⟨h.1, fun r hr => ih r (h.2 r hr)⟩

theorem ofExcept {x : Except Fault α} (hok : ∀ a, x = .ok a → Q a)
    (herror : ∀ e, x = .error e → L.halt (.fault e)) : (Plan.ofExcept x).Holds L v Q := by
  cases x with
  | ok a => exact hok a rfl
  | error e => exact herror e rfl

/-- Skipping leaves a tail, if the policy does. -/
theorem skip {w : View} (hL : ∀ {id u r}, L.answer id u r → r.view.TailOf u) (hw : w.TailOf v) :
    (Plan.skip w : Plan κ View).Holds L v (·.TailOf w) := by
  intro q
  cases q with
  | none => exact .refl w
  | some q =>
    refine ⟨hw, fun r hr => ?_⟩
    cases r with
    | parsed value rest => exact hL hr
    | failed f => exact .refl w

end Plan.Holds

/-! ## 2. What bodies come to -/

section Body

variable [DecidableEq κ]

/-- The results that a body may have at a window when its calls are answered lawfully. -/
inductive Body.Yields (L : Law κ) (v : View) (b : Body κ) : Result κ → Prop
  | parsed {value : Value κ} {rest : View} (h : rest.TailOf v) : Yields L v b (.parsed value rest)
  /-- nothing matches where the body begins, and what was expected there are the matchers of the body -/
  | entry : Yields L v b (.failed ⟨v, b.leaves, []⟩)
  /-- a failure of another rule, passed on -/
  | passed {id : RuleId} {w : View} {f : Failure κ} (hw : w.TailOf v) (h : L.answer id w (.failed f))
      (hb : b.leaves = []) : Yields L v b (.failed f)
  /-- a failure of another rule after ambient whitespace -/
  | allowing {id : RuleId} {w : View} {f : Failure κ} {ms : List (Matcher κ)} (hw : w.TailOf v)
      (h : L.answer id w (.failed f)) (hb : b.leaves = []) : Yields L v b (.failed (f.allowing ms))
  | handWritten {answer : View → Except Fault (Answer κ)} {derivative : Option (Derivative κ)} {r : Result κ}
      (hb : b = .handWritten answer derivative) (h : r.view.TailOf v) : Yields L v b r

/-- Why a body may stop by itself: a matcher, a transform or the hand-written part meets a fault, a hand-written
move leaves the window, a placeholder stands for nothing, or the rounds of a repetition run out. -/
inductive Body.Stops [CustomMatcher κ] (b : Body κ) : Stop → Prop
  | split {m : Matcher κ} {w : View} {e : Fault} (hm : m ∈ b.leaves) (h : m.split w = .error e) : Stops b (.fault e)
  | transform {f : Transform κ} {x : Value κ} {e : Fault} (hf : b.transform? = some f) (h : f x = .error e) :
    Stops b (.fault e)
  | handWritten {answer : View → Except Fault (Answer κ)} {derivative : Option (Derivative κ)} {w : View}
      {e : Fault} (hb : b = .handWritten answer derivative) (h : answer w = .error e) : Stops b (.fault e)
  | move {w : View} {offset : Int} {e : Fault} (h : w.advanceTo offset = .error e) : Stops b (.fault e)
  | unresolved : Stops b (.fault (.unresolved none))
  | unfinished : Stops b .unfinished

variable {L : Law κ} {v : View}

theorem Body.Yields.tail {b : Body κ} {r : Result κ} (hL : ∀ {id u r}, L.answer id u r → r.view.TailOf u)
    (h : b.Yields L v r) : r.view.TailOf v := by
  cases h with
  | parsed h => exact h
  | entry => exact .refl v
  | passed hw h hb => exact (hL h).trans hw
  | allowing hw h hb => exact (hL h).trans hw
  | handWritten hb h => exact h

theorem closed_yields {b : Body κ} {minimum : Int} {values : List (Value κ)} {rest : View} {last : Result κ}
    (hrest : rest.TailOf v) (hlast : b.Yields L v last) : b.Yields L v (closed minimum values rest last) := by
  rw [closed]
  split
  · exact hlast
  · exact .parsed hrest

theorem sequencePlan_holds {b : Body κ} {parts : List RuleId} {values : List (Value κ)} {rest : View}
    (hL : ∀ {id u r}, L.answer id u r → r.view.TailOf u) (hb : b.leaves = []) (hrest : rest.TailOf v) :
    (sequencePlan parts values rest).Holds L v (b.Yields L v) := by
  induction parts generalizing values rest with
  | nil => exact .parsed hrest
  | cons part parts ih =>
    refine ⟨hrest, fun r hr => ?_⟩
    cases r with
    | parsed value rest' => exact ih ((hL hr).trans hrest)
    | failed f => exact .passed hrest hr hb

theorem eitherPlan_holds {b : Body κ} {branches : List RuleId} {last : Result κ}
    (hL : ∀ {id u r}, L.answer id u r → r.view.TailOf u) (hb : b.leaves = []) (hlast : b.Yields L v last) :
    (eitherPlan v branches last).Holds L v (b.Yields L v) := by
  induction branches generalizing last with
  | nil => exact hlast
  | cons branch branches ih =>
    refine ⟨.refl v, fun r hr => ?_⟩
    cases r with
    | parsed value rest => exact .parsed (hL hr)
    | failed f => exact ih (.passed (.refl v) hr hb)

theorem roundsPlan_holds {b : Body κ} {attempt id : RuleId} {minimum : Int} {fuel : Nat}
    {values : List (Value κ)} {rest : View} {r : Result κ}
    (hL : ∀ {id u r}, L.answer id u r → r.view.TailOf u) (hb : b.leaves = []) (hstop : L.halt .unfinished)
    (hrest : rest.TailOf v) (hr : L.answer id rest r) :
    (roundsPlan attempt minimum fuel values rest r).Holds L v (b.Yields L v) := by
  induction fuel generalizing id values rest r with
  | zero => exact hstop
  | succ fuel ih =>
    cases r with
    | failed f => exact closed_yields hrest (.passed hrest hr hb)
    | parsed value next =>
      have hnext : next.TailOf v := (hL hr).trans hrest
      rw [roundsPlan]
      split
      · exact closed_yields hrest (.parsed hnext)
      · exact ⟨hnext, fun r' hr' => ih hnext hr'⟩

variable [CustomMatcher κ]

theorem Matcher.taken_holds {b : Body κ} {m : Matcher κ} {value : View → Except Fault (Value κ)}
    (hb : b.leaves = [m]) (hstops : ∀ why, b.Stops why → L.halt why)
    (hvalue : ∀ w e, value w = .error e → L.halt (.fault e)) :
    (Plan.ofExcept (m.taken v value)).Holds L v (b.Yields L v) := by
  apply Plan.Holds.ofExcept
  · intro r hr
    rcases Matcher.taken_ok hr with rfl | ⟨x, rest, rfl, hrest⟩
    · rw [← hb]
      exact .entry
    · exact .parsed hrest
  · intro e he
    rcases Matcher.taken_error he with hs | ⟨w, hw⟩
    · exact hstops _ (.split (by simp [hb]) hs)
    · exact hvalue w e hw

/-- **What a body comes to**, one case for each combinator. -/
theorem Body.plan_holds {b : Body κ} (hL : ∀ {id u r}, L.answer id u r → r.view.TailOf u)
    (hstops : ∀ why, b.Stops why → L.halt why) : (b.plan v).Holds L v (b.Yields L v) := by
  cases b with
  | token m f =>
    cases f with
    | none => exact Matcher.taken_holds rfl hstops fun _ _ h => nomatch h
    | some f => exact Matcher.taken_holds rfl hstops fun _ _ h => hstops _ (.transform rfl h)
  | capture m => exact Matcher.taken_holds rfl hstops fun _ _ h => nomatch h
  | sequence parts => exact sequencePlan_holds hL rfl (.refl v)
  | either branches => exact eitherPlan_holds hL rfl .entry
  | oneOf ms =>
    apply Plan.Holds.ofExcept
    · intro r hr
      rcases chosen_ok hr with rfl | ⟨x, rest, rfl, hrest⟩
      · exact .entry
      · exact .parsed hrest
    · intro e he
      obtain ⟨m, hm, hs⟩ := chosen_error he
      exact hstops _ (.split hm hs)
  | optional inner default =>
    refine ⟨.refl v, fun r hr => ?_⟩
    cases r with
    | parsed value rest => exact .parsed (hL hr)
    | failed f => exact .parsed (.refl v)
  | repeated first minimum attempt =>
    exact ⟨.refl v, fun r hr => roundsPlan_holds hL rfl (hstops _ .unfinished) (.refl v) hr⟩
  | map inner f =>
    refine ⟨.refl v, fun r hr => ?_⟩
    cases r with
    | parsed value rest =>
      apply Plan.Holds.ofExcept
      · intro r' hr'
        obtain ⟨x, -, hx⟩ := except_bind_eq_ok.mp hr'
        cases hx
        exact .parsed (hL hr)
      · intro e he
        rcases except_bind_eq_error.mp he with hf | ⟨x, -, hx⟩
        · exact hstops _ (.transform rfl hf)
        · cases hx
    | failed f => exact .passed (.refl v) hr rfl
  | skipping inner =>
    refine .bind ((Plan.Holds.skip hL (.refl v)).imp fun start hstart => ⟨hstart, fun r hr => ?_⟩)
    cases r with
    | parsed value rest => exact .parsed ((hL hr).trans hstart)
    | failed f =>
      dsimp only
      split
      · -- the policy is asked for its matchers only here, where the inner rule failed at its own entry
        intro q
        cases q with
        | none => exact .passed hstart hr rfl
        | some q => exact fun e => .allowing hstart hr rfl
      · exact .passed hstart hr rfl
  | skippingAfter inner =>
    refine ⟨.refl v, fun r hr => ?_⟩
    cases r with
    | parsed value rest => exact .bind ((Plan.Holds.skip hL (hL hr)).imp fun w hw => .parsed (hw.trans (hL hr)))
    | failed f => exact .passed (.refl v) hr rfl
  | within inner policy =>
    refine ⟨.refl v, fun r hr => ?_⟩
    cases r with
    | parsed value rest => exact .parsed (hL hr)
    | failed f => exact .passed (.refl v) hr rfl
  | placeholder target => exact hstops _ .unresolved
  | handWritten answer derivative =>
    apply Plan.Holds.ofExcept
    · intro r hr
      obtain ⟨a, -, ha⟩ := except_bind_eq_ok.mp hr
      exact .handWritten rfl (Answer.placed_ok ha)
    · intro e he
      rcases except_bind_eq_error.mp he with ha | ⟨a, -, ha⟩
      · exact hstops _ (.handWritten rfl ha)
      · obtain ⟨offset, ho⟩ := Answer.placed_error ha
        exact hstops _ (.move ho)

end Body

/-! ## 3. What rules come to -/

section Rule

variable [DecidableEq κ]

/-- How a rule reports what its body came to: a failure at its own entry says first what the rule expects there. -/
inductive Result.Reported (v : View) : Result κ → Result κ → Prop
  | parsed {value : Value κ} {rest : View} : Reported v (.parsed value rest) (.parsed value rest)
  | entry {f : Failure κ} (h : f.offset = v.start) (e : Expectation κ) (whitespace : List (Matcher κ)) :
    Reported v (.failed f) (.failed (f.stampedBy e whitespace))
  | deeper {f : Failure κ} (h : f.offset ≠ v.start) : Reported v (.failed f) (.failed f)

theorem Result.Reported.view_eq {v : View} {r r' : Result κ} (h : r.Reported v r') : r'.view = r.view := by
  cases h <;> rfl

theorem Plan.stamp_holds {L : Law κ} {v : View} {id : RuleId} {r : Result κ} {Q : Result κ → Prop}
    (h : ∀ r', r.Reported v r' → Q r') : (Plan.stamp id v r).Holds L v Q := by
  cases r with
  | parsed value rest => exact h _ .parsed
  | failed f =>
    rw [Plan.stamp]
    split
    next he =>
      intro e
      dsimp only
      split
      · intro q
        cases q with
        | none => exact h _ (.entry he e _)
        | some q => exact fun e' => h _ (.entry he e _)
      · exact h _ (.entry he e _)
    next he => exact h _ (.deeper he)

variable [CustomMatcher κ]

/-- A grammar keeps a law if every rule obeys it provided that the rules it calls do. -/
structure Law.Kept (L : Law κ) (g : Grammar κ) : Prop where
  tail : ∀ {id v r}, L.answer id v r → r.view.TailOf v
  /-- a placeholder answers as its target -/
  target : ∀ {id label target v r}, g.rule? id = some ⟨label, .placeholder (some target)⟩ →
    L.answer target v r → L.answer id v r
  reported : ∀ {id rule v r r'}, g.rule? id = some rule → rule.body.Yields L v r → r.Reported v r' →
    L.answer id v r'
  stops : ∀ {id rule why}, g.rule? id = some rule → rule.body.Stops why → L.halt why
  unresolved : ∀ label, L.halt (.fault (.unresolved label))
  unfinished : L.halt .unfinished
  underived : ∀ {id d e d'}, g.expectation id d = .error e d' → L.halt (.fault e)

theorem Law.Kept.plan_holds {L : Law κ} {g : Grammar κ} (h : L.Kept g) (id : RuleId) (v : View) :
    (g.plan id v).Holds L v (L.answer id v) := by
  rw [Grammar.plan]
  split
  next => exact h.unresolved none
  next label _ => exact h.unresolved label
  next label target hr => exact ⟨.refl v, fun r hr' => h.target hr hr'⟩
  next rule _ _ hr =>
    have hbody := Body.plan_holds (v := v) h.tail fun why hwhy => h.stops hr hwhy
    exact .bind (hbody.imp fun r hy => Plan.stamp_holds fun r' hr' => h.reported hr hy hr')

end Rule

/-! ## 4. What runs come to -/

section Run

variable [DecidableEq κ]

/-- The furthest failure once some failures are taken into account, one after another. -/
def deepestOf (furthest : Option (Failure κ)) (fs : List (Failure κ)) : Option (Failure κ) :=
  fs.foldl (fun best f => some (Context.deepest best f)) furthest

/-- A logged call obeys a law within a window. -/
def Call.Obeys (L : Law κ) (v : View) (c : Call κ) : Prop :=
  c.view.TailOf v ∧ ∀ r, c.outcome = .ok r → L.answer c.rule c.view r

/-- What is true at every moment of a run in a window whose furthest failure was `furthest` when the log was empty:
the record is the summary of the log, and every call in the log obeys the law. -/
structure Law.Tracks (L : Law κ) (v : View) (furthest : Option (Failure κ)) (st : ParseState κ × List (Call κ)) :
    Prop where
  furthest_eq : st.1.context.furthest = deepestOf furthest (failures st.2)
  obeys : ∀ c ∈ st.2, c.Obeys L v

/-- Only the record and the log matter to it. -/
theorem Law.Tracks.congr {L : Law κ} {v : View} {furthest : Option (Failure κ)}
    {st st' : ParseState κ × List (Call κ)} (h : L.Tracks v furthest st)
    (hf : st'.1.context.furthest = st.1.context.furthest) (hl : st'.2 = st.2) : L.Tracks v furthest st' :=
  ⟨by rw [hf, hl]; exact h.furthest_eq, by rw [hl]; exact h.obeys⟩

theorem deepestOf_append (furthest : Option (Failure κ)) (fs fs' : List (Failure κ)) :
    deepestOf furthest (fs ++ fs') = deepestOf (deepestOf furthest fs) fs' := List.foldl_append

/-- The furthest failure stands where one of the failures does that it was merged from. -/
theorem rest_of_deepestOf {furthest : Option (Failure κ)} {fs : List (Failure κ)} {P : View → Prop}
    (hbest : ∀ f, furthest = some f → P f.rest) (hfs : ∀ f ∈ fs, P f.rest) :
    ∀ f, deepestOf furthest fs = some f → P f.rest := by
  induction fs generalizing furthest with
  | nil => exact hbest
  | cons f fs ih =>
    obtain ⟨hf, hfs⟩ := List.forall_mem_cons.mp hfs
    refine ih (fun f' hf' => ?_) hfs
    cases hf'
    cases furthest with
    | none => exact hf
    | some best =>
      rw [Context.deepest]
      split
      · exact hf
      · split <;> exact hbest best rfl

/-- The furthest failure stays where it was or stands in the window. -/
theorem Law.Tracks.furthest_rest {L : Law κ} {v : View} {furthest : Option (Failure κ)}
    {st : ParseState κ × List (Call κ)} {P : View → Prop} (h : L.Tracks v furthest st)
    (hL : ∀ {id u r}, L.answer id u r → r.view.TailOf u) (hbest : ∀ f, furthest = some f → P f.rest)
    (hv : ∀ w, w.TailOf v → P w) : ∀ f, st.1.context.furthest = some f → P f.rest := by
  rw [h.furthest_eq]
  refine rest_of_deepestOf hbest fun f hf => ?_
  obtain ⟨c, hc, hcf⟩ := List.mem_filterMap.mp hf
  obtain ⟨hview, hanswer⟩ := h.obeys c hc
  exact hv _ ((hL (hanswer _ (Call.failure?_eq_some_iff.mp hcf).1)).trans hview)

variable {L : Law κ} {g : Grammar κ} {v : View} {furthest : Option (Failure κ)}
  {st : ParseState κ × List (Call κ)}

/-- Executing a lawful plan is lawful, if its calls are. -/
theorem Plan.Holds.execLogged {run : RuleId → View → Logged κ (Result κ)} {p : Plan κ α} {Q : α → Prop} {w : View}
    (hp : p.Holds L w Q) (hw : w.TailOf v)
    (hexpect : ∀ {id d e d'}, g.expectation id d = .error e d' → L.halt (.fault e))
    (hrun : ∀ id u st, u.TailOf v → L.Tracks v furthest st → Ensures (run id u) st
      (fun r t => L.answer id u r ∧ L.Tracks v furthest t) (fun why t => L.halt why ∧ L.Tracks v furthest t))
    (hst : L.Tracks v furthest st) :
    Ensures (p.execLogged g run) st (fun a t => Q a ∧ L.Tracks v furthest t)
      (fun why t => L.halt why ∧ L.Tracks v furthest t) := by
  induction p generalizing st with
  | done a => exact ⟨hp, hst⟩
  | stop why => exact ⟨hp, hst⟩
  | policy next ih => exact ih st.1.context.whitespace (hp _) hst
  | expect id next ih =>
    rw [Plan.execLogged, ensures_bind, Logged.ensures_lift]
    unfold Ensures Parse.ofDerive
    cases hd : g.expectation id st.1.derivation with
    | ok e d => exact ih e (hp e) (hst.congr rfl rfl)
    | error e d => exact ⟨hexpect hd, hst.congr rfl rfl⟩
  | call scope id u next ih =>
    rw [Plan.execLogged, ensures_bind, Logged.ensures_bracketed]
    -- a scope changes the context, but not the record in it
    have hin : L.Tracks v furthest ({ st.1 with context := scope.enter st.1.context }, st.2) :=
      hst.congr (scope.furthest_enter _) rfl
    refine (hrun id u _ (hp.1.trans hw) hin).imp ?_ ?_
    · rintro r t ⟨hr, ht⟩
      exact ih r (hp.2 r hr) (ht.congr (scope.furthest_leave _ _) rfl)
    · rintro why t ⟨hwhy, ht⟩
      exact ⟨hwhy, ht.congr (scope.furthest_leave _ _) rfl⟩

/-- Writing down a call that offers its result keeps the record the summary of the log. -/
theorem Law.Tracks.offer {id : RuleId} {w : View} {r : Result κ} {s : ParseState κ} {log : List (Call κ)}
    {E : Stop → ParseState κ → Prop} (h : L.Tracks v furthest (s, log)) (hw : w.TailOf v) (hr : L.answer id w r) :
    Ensures (Parse.offer r) s
      (fun _ t => L.Tracks v furthest (t, log ++ [⟨id, w, .ok r, t.context⟩])) E := by
  have obeys (c : Context κ) : ∀ d ∈ log ++ [⟨id, w, .ok r, c⟩], d.Obeys L v := by
    intro d hd
    rcases List.mem_append.mp hd with hd | hd
    · exact h.obeys d hd
    · cases List.mem_singleton.mp hd
      exact ⟨hw, fun r' hr' => by cases hr'; exact hr⟩
  cases r with
  | parsed value rest =>
    refine ⟨?_, obeys _⟩
    rw [failures_append, deepestOf_append, ← h.furthest_eq]
    rfl
  | failed f =>
    refine ⟨?_, obeys _⟩
    rw [failures_append, deepestOf_append, ← h.furthest_eq]
    -- the context that the call leaves tells whether the failure was recorded
    by_cases hc : s.context.suspended = 0
    · simp [failures, Call.failure?, Context.record, deepestOf, hc]
    · simp [failures, Call.failure?, Context.record, deepestOf, hc]

/-- A call that has stopped adds nothing to the summary. -/
theorem Law.Tracks.noted_stop {id : RuleId} {w : View} {why : Stop} {s : ParseState κ} {log : List (Call κ)}
    (h : L.Tracks v furthest (s, log)) (hw : w.TailOf v) :
    L.Tracks v furthest (s, log ++ [⟨id, w, .error why, s.context⟩]) := by
  refine ⟨?_, ?_⟩
  · rw [failures_append, deepestOf_append, ← h.furthest_eq]
    rfl
  · intro c hc
    rcases List.mem_append.mp hc with hc | hc
    · exact h.obeys c hc
    · cases List.mem_singleton.mp hc
      exact ⟨hw, fun r' hr' => nomatch hr'⟩

variable [CustomMatcher κ]

/-- **A law that a grammar keeps holds of its runs**: of the answer, of the reason to stop, and of every call that
is logged on the way. The induction is on fuel; between two calls it is `Plan.Holds.execLogged`. -/
theorem Law.Kept.run (h : L.Kept g) (fuel : Nat) (id : RuleId) (w : View) (hw : w.TailOf v)
    (hst : L.Tracks v furthest st) :
    Ensures (g.logged fuel id w) st (fun r t => L.answer id w r ∧ L.Tracks v furthest t)
      (fun why t => L.halt why ∧ L.Tracks v furthest t) := by
  induction fuel generalizing id w st with
  | zero => exact ⟨h.unfinished, hst⟩
  | succ fuel ih =>
    have follow : Ensures ((g.plan id w).execLogged g (g.logged fuel)) st _ _ :=
      (h.plan_holds id w).execLogged hw h.underived (fun id u st hu hst => ih id u hu hst) hst
    rw [Grammar.logged]
    split
    · -- a placeholder is not logged: the call of its target is
      exact follow
    · rw [Logged.ensures_noted, ensures_bind]
      refine follow.imp ?_ ?_
      · rintro r t ⟨hr, ht⟩
        rw [ensures_bind, Logged.ensures_lift]
        exact (ht.offer hw hr).imp_ok fun _ _ hs => ⟨hr, hs⟩
      · rintro why t ⟨hwhy, ht⟩
        exact ⟨hwhy, ht.noted_stop hw⟩

/-- What a run leaves is as it is at every moment of the run. -/
theorem Law.Kept.tracks (h : L.Kept g) (fuel : Nat) (id : RuleId) (v : View) (s : ParseState κ) :
    L.Tracks v s.context.furthest (Logged.left (g.logged fuel id v (s, []))) := by
  have start : L.Tracks v s.context.furthest (s, []) := ⟨rfl, fun c hc => nomatch hc⟩
  exact Logged.left_of_ensures ((h.run fuel id v (.refl v) start).imp (fun _ _ h => h.2) fun _ _ h => h.2)

/-- A law that a grammar keeps holds of runs without a log too, and there is a log that it could have had. -/
theorem Law.Kept.parse (h : L.Kept g) (fuel : Nat) (id : RuleId) (v : View) (s : ParseState κ) :
    Ensures (g.parse fuel id v) s
      (fun r t => L.answer id v r ∧ ∃ log, L.Tracks v s.context.furthest (t, log))
      (fun why t => L.halt why ∧ ∃ log, L.Tracks v s.context.furthest (t, log)) := by
  have start : L.Tracks v s.context.furthest (s, []) := ⟨rfl, fun c hc => nomatch hc⟩
  have run := h.run fuel id v (.refl v) start
  have forget := g.forget_logged fuel id v s []
  unfold Ensures at *
  rw [← forget]
  split at run
  next r t hx =>
    rw [hx]
    exact ⟨run.1, t.2, run.2⟩
  next why t hx =>
    rw [hx]
    exact ⟨run.1, t.2, run.2⟩

end Run

end Descent
