import Descent.Proofs.Pairs
import Descent.Proofs.Peg.Inert

/-!
# Diagnostics do not move failures

What a run is told of expectations goes into its failures and into nothing else, and of its failures only into what
they say. Where they are, and so where the furthest one on record is, is up to the grammar and the window. Two runs of
a rule against a window, from states that differ in what is kept of derivations and in what failures on record say, end
alike and leave records at the same place (`Grammar.parse_level`).

The two do not ask for the same things: whether a rule asks for the matchers of the policy depends on what it was told
before. So their plans are no longer one plan with several answers. They part where expectations are asked for, but
from there on each of them only asks for more of that, and comes to the same ending (`Plan.Tells`). Rules are called by
both or by none (`Plan.Even`).
-/

namespace Descent

variable {κ : Type}

/-! ## 1. Records that stand level -/

/-- A way in which windows correspond that keeps their order. -/
def Orderly (R : View → View → Prop) : Prop :=
  ∀ {v v' w w'}, R v v' → R w w' → (v.start < w.start ↔ v'.start < w'.start)

theorem Orderly.eq : Orderly Eq := by
  rintro v _ w _ rfl rfl
  rfl

/-- Endings with corresponding values and windows. -/
inductive Ending.Rel (V : Value κ → Value κ → Prop) (R : View → View → Prop) : Ending κ → Ending κ → Prop
  | parsed {x x' w w'} (hx : V x x') (hw : R w w') : Ending.Rel V R (.parsed x w) (.parsed x' w')
  | failed {w w'} (hw : R w w') : Ending.Rel V R (.failed w) (.failed w')

theorem Ending.Rel.of_eq {o o' : Ending κ} (h : o = o') : Ending.Rel Eq Eq o o' := by
  subst h
  cases o with
  | parsed x w => exact .parsed rfl rfl
  | failed w => exact .failed rfl

theorem Ending.Rel.eq {o o' : Ending κ} (h : Ending.Rel Eq Eq o o') : o = o' := by
  cases h with
  | parsed hx hw => rw [hx, hw]
  | failed hw => rw [hw]

/-- Results with corresponding endings. -/
theorem Ending.Rel.results {V : Value κ → Value κ → Prop} {R : View → View → Prop} {r r' : Result κ}
    (h : Ending.Rel V R r.ending r'.ending) :
    (∃ x x' w w', r = .parsed x w ∧ r' = .parsed x' w' ∧ V x x' ∧ R w w') ∨
      ∃ f f', r = .failed f ∧ r' = .failed f' ∧ R f.rest f'.rest := by
  cases r with
  | parsed x w =>
    cases r' with
    | failed f' => cases h
    | parsed x' w' =>
      cases h with
      | parsed hx hw => exact Or.inl ⟨x, x', w, w', rfl, rfl, hx, hw⟩
  | failed f =>
    cases r' with
    | parsed x' w' => cases h
    | failed f' =>
      cases h with
      | failed hw => exact Or.inr ⟨f, f', rfl, rfl, hw⟩

/-- Contexts under a policy whose records are at corresponding places, whatever they say. -/
structure Context.Level (R : View → View → Prop) (P : Option RuleId) (c c' : Context κ) : Prop where
  whitespace : c.whitespace = P
  whitespace' : c'.whitespace = P
  suspended : c.suspended = c'.suspended
  furthest : Option.Rel (fun f f' => R f.rest f'.rest) c.furthest c'.furthest

namespace Context

variable {R : View → View → Prop} {P : Option RuleId} {c c' d d' : Context κ} {f f' : Failure κ}

theorem Level.enter (h : Level R P c c') (scope : Scope) :
    Level R (scope.policy P) (scope.enter c) (scope.enter c') where
  whitespace := by rw [Scope.whitespace_enter, h.whitespace]
  whitespace' := by rw [Scope.whitespace_enter, h.whitespace']
  suspended := by cases scope <;> simp [Scope.enter, h.suspended]
  furthest := by
    rw [Scope.furthest_enter, Scope.furthest_enter]
    exact h.furthest

theorem Level.leave {scope : Scope} (h : Level R P c c') (h' : Level R (scope.policy P) d d') :
    Level R P (scope.leave c d) (scope.leave c' d') where
  whitespace := by rw [Scope.whitespace_leave (by rw [h.whitespace, h'.whitespace]), h.whitespace]
  whitespace' := by rw [Scope.whitespace_leave (by rw [h.whitespace', h'.whitespace']), h.whitespace']
  suspended := by cases scope <;> simp [Scope.leave, h'.suspended]
  furthest := by
    rw [Scope.furthest_leave, Scope.furthest_leave]
    exact h'.furthest

variable [DecidableEq κ]

/-- A record is where the later of the two failures is that it is made of, and where the first of them is if neither
is later. -/
theorem rest_deepest (best f : Failure κ) :
    (deepest (some best) f).rest = if best.offset < f.offset then f.rest else best.rest := by
  rw [deepest]
  split
  · rfl
  · split <;> rfl

/-- Failures at corresponding places leave records at corresponding places. -/
theorem Level.record (hR : Orderly R) (h : Level R P c c') (hf : R f.rest f'.rest) :
    Level R P (c.record f) (c'.record f') := by
  rw [Context.record, Context.record]
  by_cases hc : c.suspended = 0
  · rw [if_neg (not_not_intro hc), if_neg (not_not_intro (h.suspended ▸ hc))]
    refine ⟨h.whitespace, h.whitespace', h.suspended, .some ?_⟩
    have hfurthest := h.furthest
    generalize c.furthest = a at hfurthest
    generalize c'.furthest = b at hfurthest
    cases hfurthest with
    | none => exact hf
    | @some best best' hbest =>
      have later : best.offset < f.offset ↔ best'.offset < f'.offset := hR hbest hf
      rw [rest_deepest, rest_deepest]
      by_cases hlt : best.offset < f.offset
      · rw [if_pos hlt, if_pos (later.mp hlt)]
        exact hf
      · rw [if_neg hlt, if_neg fun h => hlt (later.mpr h)]
        exact hbest
  · rw [if_pos hc, if_pos (h.suspended ▸ hc)]
    exact h

end Context

/-! ## 2. Plans that differ in diagnostics -/

/-- A plan that asks for the policy and for expectations at most, and comes to an ending whatever it is told. -/
inductive Plan.Tells (g : Grammar κ) (o : Ending κ) : Plan κ (Result κ) → Prop
  | done {r} (h : r.ending = o) : Tells g o (.done r)
  | policy {next} (h : ∀ P, g.Has P → Tells g o (next P)) : Tells g o (.policy next)
  | expect {id next} (hid : id < g.rules.size) (h : ∀ e, Tells g o (next e)) : Tells g o (.expect id next)

/-- Plans that call the same rules, as long as these end alike, until both of them come to the same ending or stop. -/
inductive Plan.Even (g : Grammar κ) : Plan κ (Result κ) → Plan κ (Result κ) → Prop
  | told {p p' o} (h : p.Tells g o) (h' : p'.Tells g o) : Even g p p'
  | stop (why) : Even g (.stop why) (.stop why)
  | policy {next next'} (h : ∀ P, g.Has P → Even g (next P) (next' P)) : Even g (.policy next) (.policy next')
  | call {scope id v next next'} (hid : id < g.rules.size) (hscope : ∀ P, g.Has P → g.Has (scope.policy P))
      (h : ∀ r r' : Result κ, r.ending = r'.ending → Even g (next r) (next' r')) :
      Even g (.call scope id v next) (.call scope id v next')

namespace Plan.Even

variable {g : Grammar κ} {v : View}

theorem done {r r' : Result κ} (h : r.ending = r'.ending) : Even g (.done r) (.done r') := .told (.done h) (.done rfl)

theorem ofExcept (x : Except Fault (Result κ)) : Even g (Plan.ofExcept x) (Plan.ofExcept x) := by
  cases x with
  | ok r => exact .done rfl
  | error e => exact .stop _

/-- A rule that is run as it is, and what is done with its endings. -/
theorem run {id : RuleId} {next next' : Result κ → Plan κ (Result κ)} (hid : id < g.rules.size)
    (hparsed : ∀ x w, Even g (next (.parsed x w)) (next' (.parsed x w)))
    (hfailed : ∀ f f', f.rest = f'.rest → Even g (next (.failed f)) (next' (.failed f'))) :
    Even g (.call .plain id v next) (.call .plain id v next') := by
  refine .call hid (fun _ hP => hP) fun r r' hr => ?_
  rcases (Ending.Rel.of_eq hr).results with ⟨x, _, w, _, rfl, rfl, rfl, rfl⟩ | ⟨f, f', rfl, rfl, hf⟩
  · exact hparsed x w
  · exact hfailed f f' hf

/-- Ambient whitespace in front of something. -/
theorem skip {f f' : View → Plan κ (Result κ)} (h : ∀ w, Even g (f w) (f' w)) :
    Even g ((Plan.skip v).bind f) ((Plan.skip v).bind f') := by
  refine .policy fun P hP => ?_
  cases P with
  | none => exact h v
  | some p =>
    refine .call (hP p rfl) (fun _ hP => hP) fun r r' hr => ?_
    rcases (Ending.Rel.of_eq hr).results with ⟨x, _, w, _, rfl, rfl, rfl, rfl⟩ | ⟨f, f', rfl, rfl, -⟩
    · exact h w
    · exact h v

end Plan.Even

section Bodies

variable {g : Grammar κ} {v : View}

theorem sequencePlan_even {ids : List RuleId} (hids : ∀ id ∈ ids, id < g.rules.size) (values : List (Value κ)) :
    Plan.Even g (sequencePlan ids values v) (sequencePlan ids values v) := by
  induction ids generalizing values v with
  | nil => exact .done rfl
  | cons id ids ih =>
    obtain ⟨hid, hids⟩ := List.forall_mem_cons.mp hids
    exact .run hid (fun x w => ih hids _) fun f f' hf => .done (congrArg Ending.failed hf)

theorem eitherPlan_even {ids : List RuleId} (hids : ∀ id ∈ ids, id < g.rules.size) {r r' : Result κ}
    (hr : r.ending = r'.ending) : Plan.Even g (eitherPlan v ids r) (eitherPlan v ids r') := by
  induction ids generalizing r r' with
  | nil => exact .done hr
  | cons id ids ih =>
    obtain ⟨hid, hids⟩ := List.forall_mem_cons.mp hids
    exact .run hid (fun x w => .done rfl) fun f f' hf => ih hids (congrArg Ending.failed hf)

theorem roundsPlan_even {attempt : RuleId} (hattempt : attempt < g.rules.size) (minimum : Int) (fuel : Nat)
    (values : List (Value κ)) {r r' : Result κ} (hr : r.ending = r'.ending) :
    Plan.Even g (roundsPlan attempt minimum fuel values v r) (roundsPlan attempt minimum fuel values v r') := by
  induction fuel generalizing values v r r' with
  | zero => exact .stop _
  | succ fuel ih =>
    rcases (Ending.Rel.of_eq hr).results with ⟨x, _, w, _, rfl, rfl, rfl, rfl⟩ | ⟨f, f', rfl, rfl, -⟩
    · rw [roundsPlan]
      split
      · exact .done rfl
      · exact .call hattempt (fun _ hP => hP) fun r r' hr => ih _ hr
    · exact .done (by rw [ending_closed, ending_closed, hr])

variable [DecidableEq κ]

/-- What a policy allows before a failure does not move it. -/
theorem Plan.allow_tells (f : Failure κ) :
    ((Plan.allow f).bind fun f => .done (.failed f)).Tells g (.failed f.rest) := by
  refine .policy fun P hP => ?_
  cases P with
  | none => exact .done rfl
  | some p => exact .expect (hP p rfl) fun e => .done rfl

/-- Nor does the stamp of a rule. -/
theorem Plan.stamp_tells {id : RuleId} (hid : id < g.rules.size) (r : Result κ) :
    (Plan.stamp id v r).Tells g r.ending := by
  cases r with
  | parsed x w => exact .done rfl
  | failed f =>
    rw [Plan.stamp]
    split
    · refine .expect hid fun e => ?_
      split
      · refine .policy fun P hP => ?_
        cases P with
        | none => exact .done rfl
        | some p => exact .expect (hP p rfl) fun e' => .done rfl
      · exact .done rfl
    · exact .done rfl

variable [CustomMatcher κ]

/-- A body calls the same rules whatever it is told of failures. -/
theorem Body.plan_even {b : Body κ} (hrefs : ∀ ref ∈ b.refs, ref < g.rules.size) :
    Plan.Even g (b.plan v) (b.plan v) := by
  cases b with
  | token m f => cases f <;> exact .ofExcept _
  | capture m => exact .ofExcept _
  | oneOf ms => exact .ofExcept _
  | handWritten answer derivative => exact .ofExcept _
  | placeholder target => exact .stop _
  | sequence ids => exact sequencePlan_even hrefs []
  | either ids => exact eitherPlan_even hrefs rfl
  | optional inner default =>
    exact .run (hrefs inner List.mem_cons_self) (fun x w => .done rfl) fun f f' hf => .done rfl
  | repeated first minimum attempt =>
    have hattempt : attempt < g.rules.size := hrefs attempt (List.mem_cons_of_mem _ List.mem_cons_self)
    exact .call (hrefs first List.mem_cons_self) (fun _ hP => hP) fun r r' hr => roundsPlan_even hattempt _ _ _ hr
  | map inner f =>
    refine .run (hrefs inner List.mem_cons_self) (fun x w => .ofExcept _) fun f f' hf => ?_
    exact .done (congrArg Ending.failed hf)
  | skipping inner =>
    refine .skip fun w => .run (hrefs inner List.mem_cons_self) (fun x w => .done rfl) fun f f' hf => ?_
    have same : f.offset = w.start ↔ f'.offset = w.start := by rw [Failure.offset, Failure.offset, hf]
    dsimp only
    by_cases h : f.offset = w.start
    · rw [if_pos h, if_pos (same.mp h)]
      exact .told (Plan.allow_tells f) (hf ▸ Plan.allow_tells f')
    · rw [if_neg h, if_neg fun h' => h (same.mpr h')]
      exact .done (congrArg Ending.failed hf)
  | skippingAfter inner =>
    refine .run (hrefs inner List.mem_cons_self) (fun x w => ?_) fun f f' hf => .done (congrArg Ending.failed hf)
    exact .skip fun w => .done rfl
  | within inner policy =>
    refine .call (hrefs inner List.mem_cons_self) ?_ fun r r' hr => .done hr
    rintro _ - p rfl
    exact hrefs p (by simp [refs])

end Bodies

/-! ## 3. Runs -/

/-- A run that stops for a derivation that does not end. -/
def Grammar.StopsEndless (g : Grammar κ) (why : Stop) : Prop := ∃ e, why = .fault e ∧ g.Endless e

section Run

variable [DecidableEq κ] {g : Grammar κ} {R : View → View → Prop} {P : Option RuleId} {run : Runner κ}
  {s s' : ParseState κ}

/-- Telling changes nothing but the bookkeeping of derivations. -/
theorem Plan.Tells.exec (hg : g.IsLibrary) (hclosed : g.IsClosed) (hP : g.Has P) {p : Plan κ (Result κ)} {o : Ending κ}
    (h : p.Tells g o) (hs : s.context.whitespace = P) :
    Ensures (p.exec g run) s (fun r t => r.ending = o ∧ t.context = s.context) fun why _ => g.StopsEndless why := by
  induction h generalizing s with
  | done h => exact ⟨h, rfl⟩
  | policy h ih =>
    rw [ensures_exec_policy, hs]
    exact ih P hP hs
  | expect hid h ih =>
    rw [Plan.exec, ensures_bind, Parse.ensures_ofDerive]
    refine (g.expectation_endless hg hclosed hid s.derivation).imp (fun e d _ => ?_) fun e d he => ⟨e, rfl, he⟩
    exact ih e hs

/-- Two that tell leave level what is level. -/
theorem Plan.Tells.level (hg : g.IsLibrary) (hclosed : g.IsClosed) (hP : g.Has P) {p p' : Plan κ (Result κ)}
    {o o' : Ending κ} (h : p.Tells g o) (h' : p'.Tells g o') (hs : Context.Level R P s.context s'.context) :
    EnsuresBothUnless g.StopsEndless (p.exec g run) s (p'.exec g run) s'
      fun r t r' t' => r.ending = o ∧ r'.ending = o' ∧ Context.Level R P t.context t'.context := by
  refine .of_ensures (h.exec hg hclosed hP hs.whitespace) (h'.exec hg hclosed hP hs.whitespace') ?_
  rintro r t r' t' ⟨hr, ht⟩ ⟨hr', ht'⟩
  rw [ht, ht']
  exact ⟨hr, hr', hs⟩

/-- Runs of rules that end alike and leave level records. -/
def Runner.Even (g : Grammar κ) (run : Runner κ) : Prop :=
  ∀ P id v s s', g.Has P → id < g.rules.size → Context.Level Eq P s.context s'.context →
    EnsuresBothUnless g.StopsEndless (run id v) s (run id v) s'
      fun r t r' t' => r.ending = r'.ending ∧ Context.Level Eq P t.context t'.context

theorem Plan.Even.exec (hg : g.IsLibrary) (hclosed : g.IsClosed) (hrun : run.Even g) {p p' : Plan κ (Result κ)}
    (h : p.Even g p') (hP : g.Has P) (hs : Context.Level Eq P s.context s'.context) :
    EnsuresBothUnless g.StopsEndless (p.exec g run) s (p'.exec g run) s'
      fun r t r' t' => r.ending = r'.ending ∧ Context.Level Eq P t.context t'.context := by
  induction h generalizing P s s' with
  | told h h' =>
    refine (h.level hg hclosed hP h' hs).imp ?_
    rintro r t r' t' ⟨hr, hr', ht⟩
    exact ⟨hr.trans hr'.symm, ht⟩
  | stop why => exact Or.inr (Or.inr ⟨rfl, trivial⟩)
  | @policy next next' h ih =>
    have here := ih P hP hP hs
    show EnsuresBothUnless _ ((next s.context.whitespace).exec g run) s ((next' s'.context.whitespace).exec g run) s' _
    rwa [hs.whitespace, hs.whitespace']
  | @call scope id v next next' hid hscope h ih =>
    rw [Plan.exec, Plan.exec, Scope.around_eq]
    have called := hrun (scope.policy P) id v { s with context := scope.enter s.context }
      { s' with context := scope.enter s'.context } (hscope P hP) hid (hs.enter scope)
    have around : EnsuresBothUnless g.StopsEndless (Parse.bracketed scope.enter scope.leave (run id v)) s
        (Parse.bracketed scope.enter scope.leave (run id v)) s'
        fun r t r' t' => r.ending = r'.ending ∧ Context.Level Eq P t.context t'.context :=
      .bracketed (called.imp fun r t r' t' h => ⟨h.1, hs.leave h.2⟩)
    refine around.bind ?_
    rintro r t r' t' ⟨hr, ht⟩
    exact ih r r' hr hP ht

/-- What is done with the results of a body: they are stamped and offered. -/
def Grammar.reported (g : Grammar κ) (run : Runner κ) (id : RuleId) (v : View) (r : Result κ) : Parse κ (Result κ) := do
  let r ← (Plan.stamp id v r).exec g run
  Parse.offer r
  return r

variable {V : Value κ → Value κ → Prop} {r r' : Result κ}

/-- Offering results that correspond leaves records that do. -/
theorem Parse.offer_level (hR : Orderly R) (hr : Ending.Rel V R r.ending r'.ending)
    (hs : Context.Level R P s.context s'.context) :
    EnsuresBoth (Parse.offer r) s (Parse.offer r') s' (fun _ t _ t' => Context.Level R P t.context t'.context)
      fun _ _ => True := by
  rcases hr.results with ⟨x, x', w, w', rfl, rfl, -, -⟩ | ⟨f, f', rfl, rfl, hf⟩
  · exact hs
  · exact hs.record hR hf

/-- Results that correspond are reported so, from whichever windows the rule was run at, and leave level records. -/
theorem Grammar.reported_level (hg : g.IsLibrary) (hclosed : g.IsClosed) (hP : g.Has P) (hR : Orderly R) {id : RuleId}
    (hid : id < g.rules.size) {run : Runner κ} {v v' : View} (hr : Ending.Rel V R r.ending r'.ending)
    (hs : Context.Level R P s.context s'.context) :
    EnsuresBothUnless g.StopsEndless (g.reported run id v r) s (g.reported run id v' r') s'
      fun y t y' t' => y.ending = r.ending ∧ y'.ending = r'.ending ∧ Context.Level R P t.context t'.context := by
  refine ((Plan.stamp_tells hid r).level hg hclosed hP (Plan.stamp_tells hid r') hs).bind ?_
  rintro y t y' t' ⟨hy, hy', ht⟩
  refine EnsuresBothUnless.bind (Or.inr (Or.inr (Parse.offer_level hR (hy ▸ hy' ▸ hr) ht))) fun _ u _ u' hu => ?_
  exact Or.inr (Or.inr ⟨hy, hy', hu⟩)

/-- Reporting a result where nothing is recorded changes nothing. -/
theorem Grammar.ensures_reported_quiet (hg : g.IsLibrary) (hclosed : g.IsClosed) (run : Runner κ) {id : RuleId}
    (hid : id < g.rules.size) (hP : g.Has s.context.whitespace) (hs : s.context.suspended ≠ 0) (v : View)
    (r : Result κ) :
    Ensures (g.reported run id v r) s (fun y t => y.ending = r.ending ∧ t.context = s.context)
      fun why _ => g.StopsEndless why := by
  rw [reported, ensures_bind]
  refine ((Plan.stamp_tells hid r).exec hg hclosed hP rfl).imp_ok ?_
  rintro y t ⟨hy, ht⟩
  rw [ensures_bind]
  cases y with
  | parsed x w => exact ⟨hy, ht⟩
  | failed f =>
    refine ⟨hy, ?_⟩
    show t.context.record f = s.context
    rw [ht, Context.record, if_pos hs]

variable [CustomMatcher κ]

/-- A rule proper follows the plan of its body and reports what that comes to. -/
theorem Grammar.parse_eq_reported {id : RuleId} {rule : Rule κ} (hr : g.rule? id = some rule)
    (hproper : ∀ target, rule.body ≠ .placeholder target) (fuel : Nat) (v : View) :
    g.parse (fuel + 1) id v = (rule.body.plan v).exec g (g.parse fuel) >>= g.reported (g.parse fuel) id v := by
  have hplaceholder : g.isPlaceholder id = false := by
    rw [isPlaceholder, hr]
    obtain ⟨label, body⟩ := rule
    cases body with
    | placeholder target => exact absurd rfl (hproper target)
    | _ => rfl
  have hplan : g.plan id v = (rule.body.plan v).bind (Plan.stamp id v) := by
    rw [plan, hr]
    obtain ⟨label, body⟩ := rule
    cases body with
    | placeholder target => exact absurd rfl (hproper target)
    | _ => rfl
  rw [parse, step_eq, hplan, hplaceholder, Plan.exec_bind, bind_assoc]
  rfl

/-- A rule proper ends in results that correspond if its body does, from whichever windows. -/
theorem Grammar.parse_of_body_level (hg : g.IsLibrary) (hclosed : g.IsClosed) (hP : g.Has P) (hR : Orderly R)
    {id : RuleId} {rule : Rule κ} (hr : g.rule? id = some rule) (hproper : ∀ target, rule.body ≠ .placeholder target)
    {fuel : Nat} {v v' : View}
    (h : EnsuresBothUnless g.StopsEndless ((rule.body.plan v).exec g (g.parse fuel)) s
      ((rule.body.plan v').exec g (g.parse fuel)) s'
      fun r t r' t' => Ending.Rel V R r.ending r'.ending ∧ Context.Level R P t.context t'.context) :
    EnsuresBothUnless g.StopsEndless (g.parse (fuel + 1) id v) s (g.parse (fuel + 1) id v') s'
      fun r t r' t' => Ending.Rel V R r.ending r'.ending ∧ Context.Level R P t.context t'.context := by
  rw [parse_eq_reported hr hproper, parse_eq_reported hr hproper]
  refine h.bind ?_
  rintro r t r' t' ⟨hrr, ht⟩
  refine (reported_level hg hclosed hP hR (lt_size_of_rule? hr) hrr ht).imp ?_
  rintro y u y' u' ⟨hy, hy', hu⟩
  exact ⟨hy ▸ hy' ▸ hrr, hu⟩

/-- **Diagnostics do not move failures.** Runs of a rule against one window, from states under one policy whose records
are at one place, end alike and leave records at one place, unless one of them asks for a derivation that does not end.
The induction is on fuel. -/
theorem Grammar.parse_level (hg : g.IsLibrary) (hclosed : g.IsClosed) (fuel : Nat) : (g.parse fuel).Even g := by
  induction fuel with
  | zero => exact fun P id v s s' hP hid hs => Or.inr (Or.inr ⟨rfl, trivial⟩)
  | succ fuel ih =>
    intro P id v s s' hP hid hs
    obtain ⟨rule, hr⟩ := Option.ne_none_iff_exists'.mp (rule?_ne_none hid)
    by_cases hproper : ∀ target, rule.body ≠ .placeholder target
    · have body := (Body.plan_even (v := v) (hclosed id rule hr)).exec hg hclosed ih hP hs
      have rule := parse_of_body_level hg hclosed hP Orderly.eq hr hproper
        (body.imp fun r t r' t' h => ⟨Ending.Rel.of_eq h.1, h.2⟩)
      exact rule.imp fun r t r' t' h => ⟨h.1.eq, h.2⟩
    · obtain ⟨target, hb⟩ := not_forall_not.mp hproper
      obtain ⟨label, body⟩ := rule
      cases (hb : body = .placeholder target)
      rw [parse, step, hr]
      cases target with
      | none => exact Or.inr (Or.inr ⟨rfl, trivial⟩)
      | some target => exact ih P target v s s' hP (hclosed id _ hr target List.mem_cons_self) hs

end Run

end Descent
