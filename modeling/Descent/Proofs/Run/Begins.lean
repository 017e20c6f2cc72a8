import Descent.Proofs.Body
import Descent.Proofs.Derivation.Reach
import Descent.Proofs.Run.Log
import Descent.Proofs.Run.Tail

/-!
# What a run tries where it begins

The rules that a rule begins with are those at its entry (`Grammar.Entry`), and these are what its expectation is
derived from. A run may get further than that without moving: an operand of a sequence that succeeds where it began
hands its place on to the next one. `Grammar.Follows` adds these edges, for operands that are known to stand still.

**A run tries nothing else where it begins** (`Grammar.logged_runsAt`): each call that is logged there, unless it is
made to skip whitespace, is that of a rule to which such edges lead, and the operands that they pass stood still in that
very run. Whitespace is skipped quietly, so the calls made for it are told by the depth at which they end.

What is read off a plan is which calls it makes at the start of its window, given the operands that it was told to
stand still by then (`Plan.Begins`). A run then adds the log.
-/

namespace Descent

variable {κ α β : Type}

/-! ## 1. What plans begin with -/

/-- One rule begins with another, where some rules stand still: at the entry of the first, or as an operand of it
behind operands that all stand still. -/
def Grammar.Follows (g : Grammar κ) (still : RuleId → Prop) (p q : RuleId) : Prop :=
  g.Entry p q ∨ ∃ label before after, g.rule? p = some ⟨label, .sequence (before ++ q :: after)⟩ ∧ ∀ b ∈ before, still b

theorem Grammar.Follows.mono {g : Grammar κ} {still still' : RuleId → Prop} {p q : RuleId} (h : g.Follows still p q)
    (hstill : ∀ b, still b → still' b) : g.Follows still' p q := by
  refine h.imp_right ?_
  rintro ⟨label, before, after, hr, hbefore⟩
  exact ⟨label, before, after, hr, fun b hb => hstill b (hbefore b hb)⟩

/-- A success that leaves a window from its start on. -/
def Result.StandsAt (v : View) : Result κ → Prop
  | .parsed _ rest => rest.start = v.start
  | .failed _ => False

/-- The plan asks rules about tails of a window only, and at the start of the window only those that follow it, unless
it asks quietly. What follows depends on the rules that it was told to stand still; every answer may tell it of one. -/
def Plan.Begins (follows : (RuleId → Prop) → RuleId → Prop) (v : View) :
    Plan κ α → (RuleId → Prop) → (α → Prop) → Prop
  | .done a, _, Q => Q a
  | .stop _, _, _ => True
  | .policy next, told, Q => ∀ p, (next p).Begins follows v told Q
  | .expect _ next, told, Q => ∀ e, (next e).Begins follows v told Q
  | .call scope id w next, told, Q =>
    w.TailOf v ∧ (scope ≠ .quiet → w.start = v.start → follows told id) ∧ ∀ r, r.view.TailOf w →
      (next r).Begins follows v (fun b => told b ∨ b = id ∧ scope ≠ .quiet ∧ r.StandsAt v) Q

namespace Plan.Begins

variable {follows : (RuleId → Prop) → RuleId → Prop} {v : View} {told : RuleId → Prop} {p : Plan κ α} {Q : α → Prop}

theorem bind {f : α → Plan κ β} {R : β → Prop}
    (h : p.Begins follows v told fun a => ∀ told, (f a).Begins follows v told R) :
    (p.bind f).Begins follows v told R := by
  induction p generalizing told with
  | done a => exact h told
  | stop why => exact trivial
  | policy next ih => exact fun q => ih q (h q)
  | expect id next ih => exact fun e => ih e (h e)
  | call scope id w next ih => exact ⟨h.1, h.2.1, fun r hr => ih r (h.2.2 r hr)⟩

theorem imp {R : α → Prop} (h : p.Begins follows v told Q) (hQ : ∀ a, Q a → R a) : p.Begins follows v told R := by
  induction p generalizing told with
  | done a => exact hQ a h
  | stop why => exact trivial
  | policy next ih => exact fun q => ih q (h q)
  | expect id next ih => exact fun e => ih e (h e)
  | call scope id w next ih => exact ⟨h.1, h.2.1, fun r hr => ih r (h.2.2 r hr)⟩

theorem ofExcept {x : Except Fault α} (h : ∀ a, x = .ok a → Q a) :
    (Plan.ofExcept x : Plan κ α).Begins follows v told Q := by
  cases x with
  | ok a => exact h a rfl
  | error e => exact trivial

/-- Whitespace is skipped quietly. -/
theorem skip {w : View} (hw : w.TailOf v) :
    (Plan.skip w : Plan κ View).Begins follows v told fun rest => rest.TailOf w := by
  intro q
  cases q with
  | none => exact .refl w
  | some q =>
    refine ⟨hw, fun h => absurd rfl h, fun r hr => ?_⟩
    cases r with
    | parsed value rest => exact hr
    | failed f => exact .refl w

end Plan.Begins

section Body

variable {g : Grammar κ} {id : RuleId} {v : View} {told : RuleId → Prop}

/-- An operand is asked at the start of the window only if all operands before it stood still. -/
theorem sequencePlan_begins {label : Option String} {before parts : List RuleId} {values : List (Value κ)}
    {rest : View} (hr : g.rule? id = some ⟨label, .sequence (before ++ parts)⟩) (hrest : rest.TailOf v)
    (htold : rest.start = v.start → ∀ b ∈ before, told b) :
    (sequencePlan parts values rest).Begins (g.Follows · id) v told (·.view.TailOf v) := by
  induction parts generalizing before values rest told with
  | nil => exact hrest
  | cons part parts ih =>
    refine ⟨hrest, fun _ h => .inr ⟨label, before, parts, hr, htold h⟩, fun r hanswer => ?_⟩
    cases r with
    | failed f => exact hanswer.trans hrest
    | parsed x w =>
      rw [List.append_cons] at hr
      refine ih hr (hanswer.trans hrest) fun hw b hb => ?_
      have hstart : rest.start = v.start := Nat.le_antisymm (hw ▸ hanswer.2.2) hrest.2.2
      rcases List.mem_append.mp hb with hb | hb
      · exact .inl (htold hstart b hb)
      · exact .inr ⟨List.mem_singleton.mp hb, nofun, hw⟩

theorem eitherPlan_begins {branches : List RuleId} {last : Result κ} (h : ∀ b ∈ branches, g.Entry id b)
    (hlast : last.view.TailOf v) :
    (eitherPlan v branches last).Begins (g.Follows · id) v told (·.view.TailOf v) := by
  induction branches generalizing last told with
  | nil => exact hlast
  | cons branch branches ih =>
    obtain ⟨hbranch, h⟩ := List.forall_mem_cons.mp h
    refine ⟨.refl v, fun _ _ => .inl hbranch, fun r hr => ?_⟩
    cases r with
    | parsed x w => exact hr
    | failed f => exact ih h hr

theorem closed_tail {minimum : Int} {values : List (Value κ)} {rest : View} {last : Result κ}
    (hrest : rest.TailOf v) (hlast : last.view.TailOf v) : (closed minimum values rest last).view.TailOf v := by
  rw [closed]
  split
  · exact hlast
  · exact hrest

/-- After its first round a repetition has moved on. -/
theorem roundsPlan_begins {attempt : RuleId} {minimum : Int} {fuel : Nat} {values : List (Value κ)} {rest : View}
    {r : Result κ} (hrest : rest.TailOf v) (hr : r.view.TailOf rest) :
    (roundsPlan attempt minimum fuel values rest r).Begins (g.Follows · id) v told (·.view.TailOf v) := by
  induction fuel generalizing values rest r told with
  | zero => exact trivial
  | succ fuel ih =>
    cases r with
    | failed f => exact closed_tail hrest (hr.trans hrest)
    | parsed x w =>
      rw [roundsPlan]
      split
      next => exact closed_tail hrest (hr.trans hrest)
      next hw =>
        have moved : v.start < w.start := Nat.lt_of_le_of_lt hrest.2.2 (Nat.lt_of_le_of_ne hr.2.2 (Ne.symm hw))
        exact ⟨hr.trans hrest, fun _ h => absurd h (Nat.ne_of_gt moved), fun r' hr' => ih (hr.trans hrest) hr'⟩

variable [CustomMatcher κ]

theorem Matcher.taken_begins {follows : (RuleId → Prop) → RuleId → Prop} {m : Matcher κ}
    {value : View → Except Fault (Value κ)} :
    (Plan.ofExcept (m.taken v value) : Plan κ (Result κ)).Begins follows v told (·.view.TailOf v) := by
  refine Plan.Begins.ofExcept fun r hr => ?_
  rcases Matcher.taken_ok hr with rfl | ⟨x, rest, rfl, hrest⟩
  · exact .refl v
  · exact hrest

variable [DecidableEq κ]

/-- **What a body asks for where it begins**, one case for each combinator. -/
theorem Body.plan_begins {rule : Rule κ} (hr : g.rule? id = some rule) :
    (rule.body.plan v).Begins (g.Follows · id) v told (·.view.TailOf v) := by
  obtain ⟨label, b⟩ := rule
  have enters {q : RuleId} (hq : q ∈ b.entries) {told : RuleId → Prop} : g.Follows told id q := .inl ⟨_, hr, hq⟩
  cases b with
  | token m f => cases f <;> exact Matcher.taken_begins
  | capture m => exact Matcher.taken_begins
  | sequence parts =>
    have hr : g.rule? id = some ⟨label, .sequence ([] ++ parts)⟩ := hr
    exact sequencePlan_begins hr (.refl v) fun _ _ => nofun
  | either branches => exact eitherPlan_begins (fun b hb => ⟨_, hr, hb⟩) (.refl v)
  | oneOf ms =>
    refine Plan.Begins.ofExcept fun r h => ?_
    rcases chosen_ok h with rfl | ⟨x, rest, rfl, hrest⟩
    · exact .refl v
    · exact hrest
  | optional inner default =>
    refine ⟨.refl v, fun _ _ => enters List.mem_cons_self, fun r hr => ?_⟩
    cases r with
    | parsed x w => exact hr
    | failed f => exact .refl v
  | repeated first minimum attempt =>
    exact ⟨.refl v, fun _ _ => enters List.mem_cons_self, fun r hr => roundsPlan_begins (.refl v) hr⟩
  | map inner f =>
    refine ⟨.refl v, fun _ _ => enters List.mem_cons_self, fun r hr => ?_⟩
    cases r with
    | parsed x w =>
      refine Plan.Begins.ofExcept fun r' hr' => ?_
      obtain ⟨y, -, hy⟩ := except_bind_eq_ok.mp hr'
      cases hy
      exact hr
    | failed f => exact hr
  | skipping inner =>
    refine .bind ((Plan.Begins.skip (.refl v)).imp fun start hstart told => ?_)
    refine ⟨hstart, fun _ _ => enters List.mem_cons_self, fun r hr => ?_⟩
    cases r with
    | parsed x w => exact hr.trans hstart
    | failed f =>
      dsimp only
      split
      · intro q
        cases q with
        | none => exact hr.trans hstart
        | some q => exact fun e => hr.trans hstart
      · exact hr.trans hstart
  | skippingAfter inner =>
    refine ⟨.refl v, fun _ _ => enters List.mem_cons_self, fun r hr => ?_⟩
    cases r with
    | parsed x w => exact .bind ((Plan.Begins.skip hr).imp fun rest hrest told => hrest.trans hr)
    | failed f => exact hr
  | within inner policy => exact ⟨.refl v, fun _ _ => enters List.mem_cons_self, fun r hr => hr⟩
  | placeholder target => exact trivial
  | handWritten answer derivative =>
    refine Plan.Begins.ofExcept fun r hr => ?_
    obtain ⟨a, -, ha⟩ := except_bind_eq_ok.mp hr
    exact Answer.placed_ok ha

omit [CustomMatcher κ] in
/-- Stamping a failure asks for no rule. -/
theorem Plan.stamp_begins {follows : (RuleId → Prop) → RuleId → Prop} {r : Result κ} (hr : r.view.TailOf v) :
    (Plan.stamp id v r).Begins follows v told (·.view.TailOf v) := by
  cases r with
  | parsed x w => exact hr
  | failed f =>
    rw [Plan.stamp]
    split
    · intro e
      dsimp only
      split
      · intro q
        cases q with
        | none => exact hr
        | some q => exact fun e' => hr
      · exact hr
    · exact hr

theorem Grammar.plan_begins (g : Grammar κ) (id : RuleId) (v : View) :
    (g.plan id v).Begins (g.Follows · id) v told (·.view.TailOf v) := by
  rw [Grammar.plan]
  split
  next => exact trivial
  next => exact trivial
  next label target hr => exact ⟨.refl v, fun _ _ => .inl ⟨_, hr, List.mem_singleton.mpr rfl⟩, fun r hr => hr⟩
  next rule _ _ hr => exact .bind ((Body.plan_begins hr).imp fun r hr told => Plan.stamp_begins hr)

end Body

/-! ## 2. What runs begin with -/

section Calls

variable {g : Grammar κ}

/-- By the log, a rule stood still at an offset: it was called there, not to skip whitespace, and succeeded without
moving. -/
def Grammar.StoodStill (g : Grammar κ) (log : List (Call κ)) (offset : Nat) (depth : Int) (p : RuleId) : Prop :=
  ∃ c ∈ log, Relation.ReflTransGen g.HandsOn p c.rule ∧ c.view.start = offset ∧ c.context.suspended = depth ∧
    ∃ x rest, c.outcome = .ok (.parsed x rest) ∧ rest.start = offset

/-- By the log, one rule began with another at an offset. -/
def Grammar.Began (g : Grammar κ) (log : List (Call κ)) (offset : Nat) (depth : Int) : RuleId → RuleId → Prop :=
  g.Follows (g.StoodStill log offset depth)

theorem Grammar.StoodStill.mono {log log' : List (Call κ)} {offset : Nat} {depth : Int} {p : RuleId}
    (h : g.StoodStill log offset depth p) (hlog : log ⊆ log') : g.StoodStill log' offset depth p := by
  obtain ⟨c, hc, rest⟩ := h
  exact ⟨c, hlog hc, rest⟩

theorem Grammar.began_mono {log log' : List (Call κ)} (hlog : log ⊆ log') {offset : Nat} {depth : Int} {p q : RuleId}
    (h : Relation.ReflTransGen (g.Began log offset depth) p q) :
    Relation.ReflTransGen (g.Began log' offset depth) p q :=
  h.lift (fun p => p) fun _ _ hab => Follows.mono hab fun _ hb => hb.mono hlog

/-- The calls that the run of a rule at a window has made so far: they are about tails of the window, no less deep than
the run itself, and those that are made where it began, as deep as the run, are of rules that it began with. -/
structure Grammar.Ran (g : Grammar κ) (id : RuleId) (v : View) (depth : Int) (calls : List (Call κ)) : Prop where
  tail : ∀ c ∈ calls, c.view.TailOf v
  depth_le : ∀ c ∈ calls, depth ≤ c.context.suspended
  begins : ∀ c ∈ calls, c.view.start = v.start → c.context.suspended = depth →
    Relation.ReflTransGen (g.Began calls v.start depth) id c.rule

theorem Scope.suspended_enter {scope : Scope} (h : scope ≠ .quiet) (c : Context κ) :
    (scope.enter c).suspended = c.suspended := by
  cases scope with
  | quiet => exact absurd rfl h
  | _ => rfl

theorem Scope.suspended_le_enter (scope : Scope) (c : Context κ) : c.suspended ≤ (scope.enter c).suspended := by
  cases scope with
  | quiet => exact Int.le_add_of_nonneg_right (by decide)
  | _ => exact Int.le_refl _

theorem Scope.suspended_leave {scope : Scope} {c c' : Context κ} (h : c'.suspended = (scope.enter c).suspended) :
    (scope.leave c c').suspended = c.suspended := by
  cases scope with
  | quiet =>
    have h : c'.suspended = c.suspended + 1 := h
    show c'.suspended - 1 = c.suspended
    omega
  | _ => exact h

namespace Grammar.Ran

variable {id : RuleId} {v : View} {depth : Int} {calls : List (Call κ)}

theorem nil : g.Ran id v depth [] where
  tail _ h := absurd h List.not_mem_nil
  depth_le _ h := absurd h List.not_mem_nil
  begins _ h := absurd h List.not_mem_nil

/-- A call made within the run adds its own calls. -/
theorem call {q : RuleId} {w : View} {scope : Scope} {c : Context κ} {inner : List (Call κ)}
    (h : g.Ran id v c.suspended calls) (hw : w.TailOf v)
    (hfollows : scope ≠ .quiet → w.start = v.start → g.Began calls v.start c.suspended id q)
    (hinner : g.Ran q w (scope.enter c).suspended inner) : g.Ran id v c.suspended (calls ++ inner) := by
  refine ⟨fun d hd => ?_, fun d hd => ?_, fun d hd hstart hd' => ?_⟩
  all_goals rcases List.mem_append.mp hd with hd | hd
  · exact h.tail d hd
  · exact (hinner.tail d hd).trans hw
  · exact h.depth_le d hd
  · exact Int.le_trans (scope.suspended_le_enter c) (hinner.depth_le d hd)
  · exact began_mono (List.subset_append_left _ _) (h.begins d hd hstart hd')
  · -- a call that is no deeper was not made quietly, and the call that it belongs to began where the run did
    have hle := hinner.depth_le d hd
    have hquiet : scope ≠ .quiet := by
      rintro rfl
      have : (Scope.quiet.enter c).suspended = c.suspended + 1 := rfl
      omega
    have hwstart : w.start = v.start := Nat.le_antisymm (hstart ▸ (hinner.tail d hd).2.2) hw.2.2
    have hpath := hinner.begins d hd (hstart.trans hwstart.symm) (hd'.trans (Scope.suspended_enter hquiet c).symm)
    rw [hwstart, Scope.suspended_enter hquiet] at hpath
    exact .head (Follows.mono (hfollows hquiet hwstart) fun b hb => hb.mono (List.subset_append_left _ _))
      (began_mono (List.subset_append_right _ _) hpath)

/-- The call of the rule itself is the last to be written down. -/
theorem noted {outcome : Except Stop (Result κ)} {c : Context κ} (h : g.Ran id v c.suspended calls) :
    g.Ran id v c.suspended (calls ++ [⟨id, v, outcome, c⟩]) := by
  refine ⟨fun d hd => ?_, fun d hd => ?_, fun d hd hstart hd' => ?_⟩
  all_goals rcases List.mem_append.mp hd with hd | hd
  · exact h.tail d hd
  · cases List.mem_singleton.mp hd
    exact .refl v
  · exact h.depth_le d hd
  · cases List.mem_singleton.mp hd
    exact Int.le_refl _
  · exact began_mono (List.subset_append_left _ _) (h.begins d hd hstart hd')
  · cases List.mem_singleton.mp hd
    exact .refl

/-- A placeholder begins with its target. -/
theorem target {label : Option String} {t : RuleId} (hr : g.rule? id = some ⟨label, .placeholder (some t)⟩)
    (h : g.Ran t v depth calls) : g.Ran id v depth calls :=
  { h with begins := fun c hc hstart hd =>
      .head (.inl ⟨_, hr, List.mem_singleton.mpr rfl⟩) (h.begins c hc hstart hd) }

end Grammar.Ran

/-- What a run has come to since the log was `log`: the depth is as it was, and these calls have been added. -/
structure Grammar.Since (g : Grammar κ) (id : RuleId) (v : View) (depth : Int) (log calls : List (Call κ))
    (st : ParseState κ × List (Call κ)) : Prop where
  log_eq : st.2 = log ++ calls
  suspended : st.1.context.suspended = depth
  ran : g.Ran id v depth calls

/-- What ends lawfully when a rule is run: the result leaves a tail, and if it stood still, the log says so. -/
def Grammar.RunsAt (g : Grammar κ) (id : RuleId) (v : View) (st : ParseState κ × List (Call κ))
    (x : Logged κ (Result κ)) : Prop :=
  Ensures x st
    (fun r t => r.view.TailOf v ∧ ∃ calls, g.Since id v st.1.context.suspended st.2 calls t ∧
      (r.StandsAt v → g.StoodStill calls v.start st.1.context.suspended id))
    (fun _ t => ∃ calls, g.Since id v st.1.context.suspended st.2 calls t)

end Calls

section Run

variable [DecidableEq κ] {g : Grammar κ} {id : RuleId} {v : View} {depth : Int} {log calls : List (Call κ)}
  {st : ParseState κ × List (Call κ)}

/-- Executing a plan makes the calls that the plan begins with, and those that these make. -/
theorem Plan.Begins.execLogged {run : RuleId → View → Logged κ (Result κ)} {p : Plan κ α} {told : RuleId → Prop}
    {Q : α → Prop} (hp : p.Begins (g.Follows · id) v told Q) (hrun : ∀ q w st, g.RunsAt q w st (run q w))
    (hst : g.Since id v depth log calls st) (htold : ∀ b, told b → g.StoodStill calls v.start depth b) :
    Ensures (p.execLogged g run) st (fun a t => Q a ∧ ∃ calls, g.Since id v depth log calls t)
      (fun _ t => ∃ calls, g.Since id v depth log calls t) := by
  induction p generalizing told calls st with
  | done a => exact ⟨hp, calls, hst⟩
  | stop why => exact ⟨calls, hst⟩
  | policy next ih => exact ih st.1.context.whitespace (hp _) hst htold
  | expect q next ih =>
    rw [Plan.execLogged, ensures_bind, Logged.ensures_lift]
    unfold Ensures Parse.ofDerive
    cases g.expectation q st.1.derivation with
    | ok e d => exact ih e (hp e) ⟨hst.log_eq, hst.suspended, hst.ran⟩ htold
    | error e d => exact ⟨calls, hst.log_eq, hst.suspended, hst.ran⟩
  | call scope q w next ih =>
    obtain ⟨hw, hfollows, hnext⟩ := hp
    obtain ⟨hlog, rfl, hran⟩ := hst
    rw [Plan.execLogged, ensures_bind, Logged.ensures_bracketed]
    have after {inner : List (Call κ)} {t : ParseState κ × List (Call κ)}
        (h : g.Since q w (scope.enter st.1.context).suspended st.2 inner t) :
        g.Since id v st.1.context.suspended log (calls ++ inner)
          ({ t.1 with context := scope.leave st.1.context t.1.context }, t.2) :=
      ⟨by rw [h.log_eq, hlog, List.append_assoc], Scope.suspended_leave h.suspended,
        hran.call hw (fun h h' => (hfollows h h').mono htold) h.ran⟩
    refine (hrun q w ({ st.1 with context := scope.enter st.1.context }, st.2)).imp ?_ ?_
    · rintro r t ⟨hr, inner, hsince, hstands⟩
      refine ih r (hnext r hr) (after hsince) ?_
      rintro b (hb | ⟨rfl, hquiet, hb⟩)
      · exact (htold b hb).mono (List.subset_append_left _ _)
      · cases r with
        | failed f => exact hb.elim
        | parsed x rest =>
          have hwstart : w.start = v.start := Nat.le_antisymm (hb ▸ hr.2.2) hw.2.2
          have hstood := hstands (hb.trans hwstart.symm)
          rw [hwstart, Scope.suspended_enter hquiet] at hstood
          exact hstood.mono (List.subset_append_right _ _)
    · rintro why t ⟨inner, hsince⟩
      exact ⟨calls ++ inner, after hsince⟩

/-- Offering a result to the record does not change how deep recording is suspended. -/
theorem Parse.offer_suspended (r : Result κ) (s : ParseState κ) {E : Stop → ParseState κ → Prop} :
    Ensures (Parse.offer r) s (fun _ t => t.context.suspended = s.context.suspended) E := by
  cases r with
  | parsed x w => rfl
  | failed f =>
    show (s.context.record f).suspended = _
    rw [Context.record]
    split <;> rfl

/-- A placeholder runs as its target. -/
theorem Grammar.RunsAt.target {label : Option String} {t : RuleId}
    (hr : g.rule? id = some ⟨label, .placeholder (some t)⟩) {run : RuleId → View → Logged κ (Result κ)}
    (h : g.RunsAt t v st (run t v)) : g.RunsAt id v st ((Plan.call .plain t v .done).execLogged g run) := by
  rw [RunsAt, Plan.execLogged, ensures_bind, Logged.ensures_bracketed]
  refine Ensures.imp h ?_ ?_
  · rintro r s ⟨htail, calls, hsince, hstands⟩
    refine ⟨htail, calls, ⟨hsince.log_eq, hsince.suspended, hsince.ran.target hr⟩, fun hr' => ?_⟩
    obtain ⟨c, hc, hhands, hrest⟩ := hstands hr'
    exact ⟨c, hc, .head ⟨label, hr⟩ hhands, hrest⟩
  · rintro why s ⟨calls, hsince⟩
    exact ⟨calls, hsince.log_eq, hsince.suspended, hsince.ran.target hr⟩

variable [CustomMatcher κ]

/-- **A run tries nothing else where it begins**, by induction on fuel. -/
theorem Grammar.logged_runsAt (g : Grammar κ) (fuel : Nat) (id : RuleId) (v : View)
    (st : ParseState κ × List (Call κ)) : g.RunsAt id v st (g.logged fuel id v) := by
  induction fuel generalizing id v st with
  | zero => exact ⟨[], (List.append_nil _).symm, rfl, .nil⟩
  | succ fuel ih =>
    have start : g.Since id v st.1.context.suspended st.2 [] st := ⟨(List.append_nil _).symm, rfl, .nil⟩
    have plan : (g.plan id v).Begins (g.Follows · id) v (fun _ => False) (·.view.TailOf v) := g.plan_begins id v
    have follow := plan.execLogged ih start fun _ h => h.elim
    rw [Grammar.logged]
    split
    next hplaceholder =>
      rcases g.plan_of_isPlaceholder hplaceholder v with ⟨label, hplan⟩ | ⟨label, t, hr, hplan⟩
      · rw [hplan]
        exact ⟨[], start⟩
      · rw [hplan]
        exact .target hr (ih t v st)
    next =>
      rw [RunsAt, Logged.ensures_noted, ensures_bind]
      have noted {t : ParseState κ × List (Call κ)} {s' : ParseState κ} {calls : List (Call κ)}
          (h : g.Since id v st.1.context.suspended st.2 calls t)
          (hs' : s'.context.suspended = t.1.context.suspended) (outcome : Except Stop (Result κ)) :
          g.Since id v st.1.context.suspended st.2 (calls ++ [⟨id, v, outcome, s'.context⟩])
            (s', t.2 ++ [⟨id, v, outcome, s'.context⟩]) := by
        have hdepth := hs'.trans h.suspended
        refine ⟨by rw [h.log_eq, List.append_assoc], hdepth, ?_⟩
        rw [← hdepth]
        exact Ran.noted (hdepth ▸ h.ran)
      refine follow.imp ?_ ?_
      · rintro r t ⟨hr, calls, hsince⟩
        rw [ensures_bind, Logged.ensures_lift]
        refine (Parse.offer_suspended r t.1).imp_ok fun _ s' hs' => ?_
        refine ⟨hr, _, noted hsince hs' (.ok r), fun hstands => ?_⟩
        refine ⟨_, List.mem_append_right _ (List.mem_singleton.mpr rfl), .refl, rfl, hs'.trans hsince.suspended, ?_⟩
        cases r with
        | failed f => exact hstands.elim
        | parsed x rest => exact ⟨x, rest, rfl, hstands⟩
      · rintro why t ⟨calls, hsince⟩
        exact ⟨_, noted hsince rfl (.error why)⟩

end Run

end Descent
