import Descent.Grammar.Parse
import Descent.Proofs.Ensures

/-!
# Plans — what a rule asks for, as a tree

`Grammar.step` runs a rule at once: it reads the context, consults expectations and calls other rules, all in one
computation. Laws about runs need to look at those questions one by one and to answer them in other ways: by a rule
that keeps a log, by a semantics that knows no context, by any answer that lies in a window. A `Plan` is the tree of
the questions. A node asks for one thing and goes on with the answer.

`Plan.exec` answers them as a run does, and **`step_eq` says that nothing is lost**: running a rule is executing its
plan and offering a failure to the context. So there is one semantics, and the plan is a way to read it. Laws then
split in two. What *bodies* do with answers is read off their plans, one case for each combinator, with no state
anywhere. What a *run* does to the state is an induction on plans, with five cases.

A rule proper never asks the context to record anything; only the step that runs it does. That is why recording is
no node of a plan, and why a plan cannot tell whether it is run quietly.
-/

namespace Descent

/-- How a rule is called by another: as things stand, under another policy, or with failures not recorded. -/
inductive Scope where
  | plain
  | under (policy : Option RuleId)
  | quiet

/-- A tree of questions with a result at every end. -/
inductive Plan (κ α : Type) where
  | done (a : α)
  | stop (why : Stop)
  /-- asks for the active whitespace policy -/
  | policy (next : Option RuleId → Plan κ α)
  /-- asks for the expectation of a rule -/
  | expect (id : RuleId) (next : Expectation κ → Plan κ α)
  /-- asks a rule to run against a window -/
  | call (scope : Scope) (id : RuleId) (v : View) (next : Result κ → Plan κ α)

variable {κ α β : Type}

namespace Plan

def bind : Plan κ α → (α → Plan κ β) → Plan κ β
  | .done a, f => f a
  | .stop why, _ => .stop why
  | .policy next, f => .policy fun p => (next p).bind f
  | .expect id next, f => .expect id fun e => (next e).bind f
  | .call scope id v next, f => .call scope id v fun r => (next r).bind f

/-- The plan of a computation that may meet a fault and asks for nothing. -/
def ofExcept : Except Fault α → Plan κ α
  | .ok a => .done a
  | .error fault => .stop (.fault fault)

/-- What the active policy leaves of a window. -/
def skip (v : View) : Plan κ View := .policy fun
  | none => .done v
  | some p => .call .quiet p v fun
    | .parsed _ rest => .done rest
    | .failed _ => .done v

end Plan

section Failure

variable [DecidableEq κ]

/-- A failure with the matchers of the active policy among the whitespace that was allowed before it. -/
def Failure.allowing (f : Failure κ) (ms : List (Matcher κ)) : Failure κ :=
  ⟨f.rest, f.expected, orderedUnion f.whitespace ms⟩

/-- A failure with what the active policy allows before it. -/
def Plan.allow (f : Failure κ) : Plan κ (Failure κ) := .policy fun
  | none => .done f
  | some p => .expect p fun e => .done (f.allowing e.prefixes)

/-- A failure at the entry of a rule, as the rule reports it: what the rule expects there comes first. -/
def Failure.stampedBy (f : Failure κ) (e : Expectation κ) (whitespace : List (Matcher κ)) : Failure κ :=
  ⟨f.rest, orderedUnion e.prefixes f.expected, orderedUnion whitespace f.whitespace⟩

/-- A result as a rule reports it that began at a window. -/
def Plan.stamp (id : RuleId) (v : View) : Result κ → Plan κ (Result κ)
  | .parsed value rest => .done (.parsed value rest)
  | .failed f =>
    if f.offset = v.start then .expect id fun e =>
      if e.ambient then .policy fun
        | none => .done (.failed (f.stampedBy e (orderedUnion e.whitespace [])))
        | some p => .expect p fun e' => .done (.failed (f.stampedBy e (orderedUnion e.whitespace e'.prefixes)))
      else .done (.failed (f.stampedBy e e.whitespace))
    else .done (.failed f)

end Failure

/-! ## 1. The plans of bodies -/

section Body

variable [CustomMatcher κ]

/-- One match, with what it leaves. -/
def Matcher.taken (m : Matcher κ) (v : View) (value : View → Except Fault (Value κ)) :
    Except Fault (Result κ) := do
  match ← m.split v with
  | none => return .failed ⟨v, [m], []⟩
  | some (matched, rest) => return .parsed (← value matched) rest

/-- The first of some matchers that applies. -/
def chosen (all : List (Matcher κ)) (v : View) : List (Matcher κ) → Except Fault (Result κ)
  | [] => .ok (.failed ⟨v, all, []⟩)
  | m :: ms => do
    match ← m.split v with
    | some (_, rest) => return .parsed (.matcher m) rest
    | none => chosen all v ms

/-- A window moved as a hand-written rule asks. -/
def Answer.placed (v : View) : Answer κ → Except Fault (Result κ)
  | .parsed advance value => do return .parsed value (← v.advanceTo (v.start + advance))
  | .failed advance expected whitespace => do
    return .failed ⟨← v.advanceTo (v.start + advance), expected, whitespace⟩

def sequencePlan : List RuleId → List (Value κ) → View → Plan κ (Result κ)
  | [], values, rest => .done (.parsed (.tuple values) rest)
  | part :: parts, values, rest => .call .plain part rest fun
    | .failed f => .done (.failed f)
    | .parsed value rest => sequencePlan parts (values ++ [value]) rest

def eitherPlan (v : View) : List RuleId → Result κ → Plan κ (Result κ)
  | [], last => .done last
  | branch :: branches, _ => .call .plain branch v fun
    | .parsed value rest => .done (.parsed value rest)
    | .failed f => eitherPlan v branches (.failed f)

/-- How a repetition ends that got these values and whose last attempt ended in `last`. -/
def closed (minimum : Int) (values : List (Value κ)) (rest : View) (last : Result κ) : Result κ :=
  if (values.length : Int) < minimum then last else .parsed (.list values) rest

/-- The rounds of a repetition after an attempt at `rest` that ended in the given result. -/
def roundsPlan (attempt : RuleId) (minimum : Int) :
    Nat → List (Value κ) → View → Result κ → Plan κ (Result κ)
  | 0, _, _, _ => .stop .unfinished
  | _ + 1, values, rest, .failed f => .done (closed minimum values rest (.failed f))
  | fuel + 1, values, rest, .parsed value next =>
    if next.start = rest.start then .done (closed minimum (values ++ [value]) rest (.parsed value next))
    else .call .plain attempt next fun r => roundsPlan attempt minimum fuel (values ++ [value]) next r

/-- What a body that is no placeholder asks for. -/
def Body.plan [DecidableEq κ] (v : View) : Body κ → Plan κ (Result κ)
  | .token m none => .ofExcept (m.taken v fun matched => .ok (.str matched.text))
  | .token m (some f) => .ofExcept (m.taken v fun matched => f (.str matched.text))
  | .capture m => .ofExcept (m.taken v fun matched => .ok (.view matched))
  | .sequence parts => sequencePlan parts [] v
  | .either branches => eitherPlan v branches (.failed ⟨v, [], []⟩)
  | .oneOf ms => .ofExcept (chosen ms v ms)
  | .optional inner default => .call .plain inner v fun
    | .parsed value rest => .done (.parsed value rest)
    | .failed _ => .done (.parsed default v)
  | .repeated first minimum attempt => .call .plain first v fun r => roundsPlan attempt minimum (v.length + 1) [] v r
  | .map inner f => .call .plain inner v fun
    | .parsed value rest => .ofExcept (do return .parsed (← f value) rest)
    | .failed f => .done (.failed f)
  | .skipping inner => (Plan.skip v).bind fun start => .call .plain inner start fun
    | .parsed value rest => .done (.parsed value rest)
    | .failed f =>
      if f.offset = start.start then (Plan.allow f).bind fun f => .done (.failed f) else .done (.failed f)
  | .skippingAfter inner => .call .plain inner v fun
    | .parsed value rest => (Plan.skip rest).bind fun rest => .done (.parsed value rest)
    | .failed f => .done (.failed f)
  | .within inner policy => .call (.under policy) inner v .done
  | .placeholder _ => .stop (.fault (.unresolved none))
  | .handWritten answer _ => .ofExcept (do (← answer v).placed v)

/-- What a rule asks for. A placeholder asks for its target; any other rule follows its body and stamps the
failures of its entry. -/
def Grammar.plan [DecidableEq κ] (g : Grammar κ) (id : RuleId) (v : View) : Plan κ (Result κ) :=
  match g.rule? id with
  | none => .stop (.fault (.unresolved none))
  | some ⟨label, .placeholder none⟩ => .stop (.fault (.unresolved label))
  | some ⟨_, .placeholder (some target)⟩ => .call .plain target v .done
  | some rule => (rule.body.plan v).bind (Plan.stamp id v)

/-- Whether a rule is a placeholder, which is no rule of its own and reports nothing. -/
def Grammar.isPlaceholder (g : Grammar κ) (id : RuleId) : Bool :=
  match g.rule? id with
  | some ⟨_, .placeholder _⟩ => true
  | _ => false

/-- All that a placeholder asks for is its target, if it has one. -/
theorem Grammar.plan_of_isPlaceholder [DecidableEq κ] {g : Grammar κ} {id : RuleId} (h : g.isPlaceholder id = true)
    (v : View) :
    (∃ label, g.plan id v = .stop (.fault (.unresolved label))) ∨
      ∃ label target, g.rule? id = some ⟨label, .placeholder (some target)⟩ ∧
        g.plan id v = .call .plain target v .done := by
  rw [Grammar.isPlaceholder] at h
  split at h
  next label target hr =>
    rw [Grammar.plan, hr]
    cases target with
    | none => exact Or.inl ⟨label, rfl⟩
    | some target => exact Or.inr ⟨label, target, rfl, rfl⟩
  next => cases h

end Body

/-! ## 2. Executing a plan -/

namespace Parse

variable {s : ParseState κ} {Q : α → ParseState κ → Prop} {E : Stop → ParseState κ → Prop}

theorem ensures_bracketed {enter : Context κ → Context κ} {leave : Context κ → Context κ → Context κ}
    {x : Parse κ α} :
    Ensures (bracketed enter leave x) s Q E ↔ Ensures x { s with context := enter s.context }
      (fun a t => Q a { t with context := leave s.context t.context })
      (fun why t => E why { t with context := leave s.context t.context }) := by
  unfold Ensures bracketed
  cases x { s with context := enter s.context } <;> rfl

theorem ensures_ofDerive {x : Derive κ α} :
    Ensures (ofDerive x) s Q E ↔ Ensures x s.derivation (fun a d => Q a { s with derivation := d })
      (fun e d => E (.fault e) { s with derivation := d }) := by
  unfold Ensures ofDerive
  cases x s.derivation <;> rfl

end Parse

section Scope

def Scope.around : Scope → Parse κ α → Parse κ α
  | .plain, x => x
  | .under policy, x => Parse.underPolicy policy x
  | .quiet, x => Parse.suspended x

/-- How a scope changes the context for a call. -/
def Scope.enter : Scope → Context κ → Context κ
  | .plain, c => c
  | .under policy, c => { c with whitespace := policy }
  | .quiet, c => { c with suspended := c.suspended + 1 }

/-- How a scope changes the context back after a call; the context before the call comes first. -/
def Scope.leave : Scope → Context κ → Context κ → Context κ
  | .plain, _, c' => c'
  | .under _, c, c' => { c' with whitespace := c.whitespace }
  | .quiet, _, c' => { c' with suspended := c'.suspended - 1 }

theorem Scope.furthest_enter (scope : Scope) (c : Context κ) : (scope.enter c).furthest = c.furthest := by
  cases scope <;> rfl

theorem Scope.furthest_leave (scope : Scope) (c c' : Context κ) : (scope.leave c c').furthest = c'.furthest := by
  cases scope <;> rfl

theorem Scope.around_eq (scope : Scope) (x : Parse κ α) :
    scope.around x = Parse.bracketed scope.enter scope.leave x := by
  cases scope with
  | plain =>
    funext s
    rw [Parse.bracketed]
    cases h : x s <;> simp [around, enter, leave, h]
  | under policy => rfl
  | quiet => rfl

end Scope

section Exec

variable [DecidableEq κ]

namespace Plan

/-- Answers the questions of a plan as a run does. -/
def exec (g : Grammar κ) (run : Runner κ) : Plan κ α → Parse κ α
  | .done a => pure a
  | .stop why => throw why
  | .policy next => do exec g run (next (← Parse.context).whitespace)
  | .expect id next => do exec g run (next (← Parse.ofDerive (g.expectation id)))
  | .call scope id v next => do exec g run (next (← scope.around (run id v)))

variable {g : Grammar κ} {run : Runner κ}

theorem exec_policy (next : Option RuleId → Plan κ α) (s : ParseState κ) :
    (policy next).exec g run s = (next s.context.whitespace).exec g run s := rfl

theorem ensures_exec_policy {next : Option RuleId → Plan κ α} {s : ParseState κ} {Q : α → ParseState κ → Prop}
    {E : Stop → ParseState κ → Prop} :
    Ensures ((policy next).exec g run) s Q E ↔ Ensures ((next s.context.whitespace).exec g run) s Q E := Iff.rfl

@[simp] theorem exec_ofExcept (x : Except Fault α) : (ofExcept x).exec g run = Parse.ofExcept x := by
  cases x <;> rfl

@[simp] theorem exec_bind (p : Plan κ α) (f : α → Plan κ β) :
    (p.bind f).exec g run = p.exec g run >>= fun a => (f a).exec g run := by
  induction p with
  | done a => simp [bind, exec]
  | stop why => rfl
  | policy next ih => simp [bind, exec, ih]
  | expect id next ih => simp [bind, exec, ih]
  | call scope id v next ih => simp [bind, exec, ih]

end Plan

end Exec

/-! ## 3. Bodies and rules follow their plans -/

theorem ofExcept_bind {x : Except Fault α} {f : α → Except Fault β} :
    (Parse.ofExcept (x >>= f) : Parse κ β) = Parse.ofExcept x >>= fun a => Parse.ofExcept (f a) := by
  cases x <;> rfl

section Single

variable [CustomMatcher κ]

theorem take_eq_taken (m : Matcher κ) (v : View) (value : View → Except Fault (Value κ)) :
    m.take v (fun w => Parse.ofExcept (value w)) = Parse.ofExcept (m.taken v value) := by
  rw [Matcher.taken, ofExcept_bind]
  refine bind_congr fun halves => ?_
  rcases halves with - | ⟨matched, rest⟩
  · rfl
  · dsimp only
    rw [ofExcept_bind]
    rfl

theorem runOneOf_eq_chosen (all : List (Matcher κ)) (v : View) (ms : List (Matcher κ)) :
    runOneOf all v ms = Parse.ofExcept (chosen all v ms) := by
  induction ms with
  | nil => rfl
  | cons m ms ih =>
    rw [runOneOf, chosen, ofExcept_bind]
    refine bind_congr fun halves => ?_
    cases halves with
    | none => exact ih
    | some halves => rfl

end Single

theorem place_eq_placed (v : View) (a : Answer κ) : a.place v = Parse.ofExcept (a.placed v) := by
  cases a <;> (rw [Answer.place, Answer.placed, ofExcept_bind]; rfl)

section Follow

variable [DecidableEq κ] {g : Grammar κ} {run : Runner κ}

theorem exec_skip (v : View) : (Plan.skip v).exec g run = Parse.skip run v := by
  refine bind_congr fun c => ?_
  cases c.whitespace with
  | none => rfl
  | some p =>
    refine bind_congr fun r => ?_
    cases r <;> rfl

theorem runSequence_eq_exec (parts : List RuleId) (values : List (Value κ)) (rest : View) :
    runSequence run parts values rest = (sequencePlan parts values rest).exec g run := by
  induction parts generalizing values rest with
  | nil => rfl
  | cons part parts ih =>
    refine bind_congr fun r => ?_
    cases r with
    | failed f => rfl
    | parsed value rest => exact ih _ _

theorem runEither_eq_exec (v : View) (branches : List RuleId) (last : Result κ) :
    runEither run v branches last = (eitherPlan v branches last).exec g run := by
  induction branches generalizing last with
  | nil => rfl
  | cons branch branches ih =>
    refine bind_congr fun r => ?_
    cases r with
    | parsed value rest => rfl
    | failed f => exact ih _

theorem runRepeated_eq_exec (attempt : RuleId) (minimum : Int) (fuel : Nat) (values : List (Value κ))
    (rest : View) (r : Result κ) :
    (do
      let (values, rest, last) ← runRepeated (run attempt) fuel values rest r
      if (values.length : Int) < minimum then return last
      else return .parsed (.list values) rest) =
      (roundsPlan attempt minimum fuel values rest r).exec g run := by
  induction fuel generalizing values rest r with
  | zero => rfl
  | succ fuel ih =>
    cases r with
    | failed f =>
      rw [runRepeated, roundsPlan, closed, pure_bind]
      dsimp only
      split <;> rfl
    | parsed value next =>
      rw [runRepeated, roundsPlan]
      split
      · rw [closed, pure_bind]
        dsimp only
        split <;> rfl
      · rw [bind_assoc]
        exact bind_congr fun r => ih _ _ _

theorem exec_allow (f : Failure κ) :
    ((Plan.allow f).bind fun f => .done (.failed f)).exec g run = (do
      if (← Parse.context).whitespace.isSome then
        return .failed ⟨f.rest, f.expected, orderedUnion f.whitespace (← Parse.policyPrefixes g)⟩
      else return .failed f : Parse κ (Result κ)) := by
  funext s
  -- the policy is read twice in a run and once in the plan
  obtain ⟨d, ⟨whitespace, verbosity, furthest, suspended⟩⟩ := s
  cases whitespace with
  | none => rfl
  | some p =>
    show (Parse.ofDerive (g.expectation p) >>= _) _ = ((Parse.ofDerive (g.expectation p) >>= _) >>= _) _
    rw [bind_assoc]
    rfl

theorem exec_stamp (id : RuleId) (v : View) (f : Failure κ) :
    (Plan.stamp id v (.failed f)).exec g run = do return .failed (← g.stamped id v f) := by
  rw [Plan.stamp, Grammar.stamped]
  split
  · rw [bind_assoc]
    refine bind_congr fun e => ?_
    dsimp only
    cases e.ambient with
    | false => rfl
    | true =>
      simp only [if_true, bind_assoc, Parse.policyPrefixes]
      refine bind_congr fun c => ?_
      cases c.whitespace with
      | none => rfl
      | some p => simp only [Plan.exec, bind_assoc, pure_bind]; rfl
  · rfl

variable [CustomMatcher κ]

/-- A body does what its plan asks for. -/
theorem Body.run_eq_exec (v : View) (b : Body κ) : b.run g run v = (b.plan v).exec g run := by
  cases b with
  | token m f =>
    cases f with
    | none =>
      rw [Body.plan, Plan.exec_ofExcept]
      exact take_eq_taken m v fun matched => .ok (.str matched.text)
    | some f =>
      rw [Body.plan, Plan.exec_ofExcept]
      exact take_eq_taken m v fun matched => f (.str matched.text)
  | capture m =>
    rw [Body.plan, Plan.exec_ofExcept]
    exact take_eq_taken m v fun matched => .ok (.view matched)
  | sequence parts => exact runSequence_eq_exec parts [] v
  | either branches => exact runEither_eq_exec v branches _
  | oneOf ms =>
    rw [Body.plan, Plan.exec_ofExcept]
    exact runOneOf_eq_chosen ms v ms
  | optional inner default =>
    refine bind_congr fun r => ?_
    cases r <;> rfl
  | repeated first minimum attempt => exact bind_congr fun r => runRepeated_eq_exec attempt minimum _ [] v r
  | map inner f =>
    refine bind_congr fun r => ?_
    cases r with
    | parsed value rest =>
      dsimp only
      rw [Plan.exec_ofExcept, ofExcept_bind]
      rfl
    | failed f => rfl
  | skipping inner =>
    rw [Body.plan, Plan.exec_bind, exec_skip]
    refine bind_congr fun start => bind_congr fun r => ?_
    cases r with
    | parsed value rest => rfl
    | failed f =>
      dsimp only
      split
      next h =>
        rw [exec_allow]
        simp only [h, decide_true, Bool.true_and]
      next h =>
        simp only [h, decide_false, Bool.false_and]
        rfl
  | skippingAfter inner =>
    refine bind_congr fun r => ?_
    cases r with
    | parsed value rest =>
      dsimp only
      rw [Plan.exec_bind, exec_skip]
      rfl
    | failed f => rfl
  | within inner policy => exact (bind_pure _).symm
  | placeholder target => rfl
  | handWritten answer derivative =>
    rw [Body.plan, Plan.exec_ofExcept, ofExcept_bind]
    exact bind_congr fun a => place_eq_placed v a

/-- Offers a result to the context, which remembers failures only. -/
def Parse.offer : Result κ → Parse κ Unit
  | .parsed _ _ => pure ()
  | .failed f => record f

theorem exec_stamped (b : Body κ) (id : RuleId) (v : View) :
    (do
      match ← b.run g run v with
      | .parsed value rest => return .parsed value rest
      | .failed f =>
        let f ← g.stamped id v f
        Parse.record f
        return .failed f) = (do
      let r ← ((b.plan v).bind (Plan.stamp id v)).exec g run
      Parse.offer r
      return r) := by
  rw [Plan.exec_bind, bind_assoc, Body.run_eq_exec]
  refine bind_congr fun r => ?_
  cases r with
  | parsed value rest => rfl
  | failed f =>
    dsimp only
    rw [exec_stamp, bind_assoc]
    rfl

/-- **A rule does what its plan asks for**, and unless it is a placeholder it offers its result to the context. -/
theorem Grammar.step_eq (id : RuleId) (v : View) :
    g.step run id v = do
      let r ← (g.plan id v).exec g run
      if g.isPlaceholder id then return r
      Parse.offer r
      return r := by
  rw [Grammar.step, Grammar.plan, Grammar.isPlaceholder]
  cases hr : g.rule? id with
  | none => rfl
  | some rule =>
    obtain ⟨label, body⟩ := rule
    cases body with
    | placeholder target =>
      cases target with
      | none => rfl
      | some target =>
        show run target v = ((run target v >>= fun r => pure r) >>= fun r => pure r)
        rw [bind_pure, bind_pure]
    | _ => exact exec_stamped _ id v

end Follow

end Descent
