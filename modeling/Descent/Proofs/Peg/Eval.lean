import Descent.Grammar.Parse
import Descent.Proofs.Peg.Rules
import Mathlib.Order.Filter.AtTopBot.Basic

/-!
# Evaluating what a grammar gives

`Grammar.eval` finds out what a grammar gives, as far as its fuel lasts. It stands between the relation and the runs:
it keeps no state, like the relation, and it spends its fuel where a run spends it. Here it is compared with the
relation. What it finds is given (`eval_sound`); what is given it finds, with enough fuel and then with any more
(`Gives.finds`). So **a grammar gives at most one verdict** (`Gives.unique`).

The one place where the fuel is not that of the depth is a repetition, whose rounds are counted down from the length
of the window. That this is enough needs that every round leaves a shorter tail.
-/

namespace Descent

variable {κ : Type}

/-- What a run without a fault is, for something that may meet one. -/
def Verdict.outcome {α : Type} : Except Fault α → Except Stop α
  | .ok a => .ok a
  | .error e => .error (.fault e)

/-- How rules are evaluated: under a policy, at a window. -/
abbrev Evaluator (κ : Type) := Option RuleId → RuleId → View → Except Stop (Ending κ)

namespace Eval

/-- What the policy leaves of a window. -/
def skip (call : Evaluator κ) (P : Option RuleId) (v : View) : Except Stop (Ending κ) :=
  match P with
  | none => .ok (.parsed .none v)
  | some p => do
    match ← call (some p) p v with
    | .parsed _ w => return .parsed .none w
    | .failed _ => return .parsed .none v

def parts (call : Evaluator κ) (P : Option RuleId) :
    List RuleId → List (Value κ) → View → Except Stop (Ending κ)
  | [], values, v => .ok (.parsed (.tuple values) v)
  | part :: ids, values, v => do
    match ← call P part v with
    | .parsed x w => parts call P ids (values ++ [x]) w
    | .failed w => return .failed w

def branches (call : Evaluator κ) (P : Option RuleId) (v : View) : List RuleId → View → Except Stop (Ending κ)
  | [], last => .ok (.failed last)
  | branch :: ids, _ => do
    match ← call P branch v with
    | .parsed x w => return .parsed x w
    | .failed w => branches call P v ids w

def rounds (call : Evaluator κ) (P : Option RuleId) (attempt : RuleId) (minimum : Int) :
    Nat → List (Value κ) → View → Ending κ → Except Stop (Ending κ)
  | 0, _, _, _ => .error .unfinished
  | _ + 1, values, v, .failed w => .ok (.closing minimum values v (.failed w))
  | fuel + 1, values, v, .parsed x w =>
    if w.start = v.start then .ok (.closing minimum (values ++ [x]) v (.parsed x w))
    else do rounds call P attempt minimum fuel (values ++ [x]) w (← call P attempt w)

variable [CustomMatcher κ]

def body (call : Evaluator κ) (P : Option RuleId) (v : View) : Body κ → Except Stop (Ending κ)
  | .sequence ids => parts call P ids [] v
  | .either ids => branches call P v ids v
  | .optional inner default => do
    match ← call P inner v with
    | .parsed x w => return .parsed x w
    | .failed _ => return .parsed default v
  | .repeated first minimum attempt => do
    rounds call P attempt minimum (v.length + 1) [] v (← call P first v)
  | .map inner f => do
    match ← call P inner v with
    | .parsed x w => return .parsed (← Verdict.outcome (f x)) w
    | .failed w => return .failed w
  | .skipping inner => do call P inner (← skip call P v).rest
  | .skippingAfter inner => do
    match ← call P inner v with
    | .parsed x w => return .parsed x (← skip call P w).rest
    | .failed w => return .failed w
  | .within inner policy => call policy inner v
  | .placeholder none => .error (.fault (.unresolved none))
  | .placeholder (some target) => call P target v
  | b => (b.alone? v).elim (.error .unfinished) Verdict.outcome

end Eval

/-- Evaluates a rule at a window under a policy. -/
def Grammar.eval [CustomMatcher κ] (g : Grammar κ) : Nat → Evaluator κ
  | 0, _, _, _ => .error .unfinished
  | fuel + 1, P, id, v =>
    match g.rule? id with
    | none => .error (.fault (.unresolved none))
    | some ⟨label, .placeholder none⟩ => .error (.fault (.unresolved label))
    | some rule => Eval.body (g.eval fuel) P v rule.body

def Task.eval [CustomMatcher κ] (call : Evaluator κ) (P : Option RuleId) (v : View) :
    Task κ → Except Stop (Ending κ)
  | .rule id => call P id v
  | .body b => Eval.body call P v b
  | .skip => Eval.skip call P v
  | .parts ids values => Eval.parts call P ids values v
  | .branches ids last => Eval.branches call P v ids last
  | .rounds attempt minimum values latest => Eval.rounds call P attempt minimum (v.length + 1) values v latest

/-! ## 1. What is found is given -/

namespace Verdict

variable {y y' : Verdict κ}

theorem outcome_inj (h : outcome y = outcome y') : y = y' := by
  cases y <;> cases y' <;> cases h <;> rfl

theorem eq_ok {o : Ending κ} (h : .ok o = outcome y) : y = .ok o := by
  cases y <;> cases h
  rfl

theorem eq_error {why : Stop} (h : .error why = outcome y) : ∃ e, why = .fault e ∧ y = .error e := by
  cases y <;> cases h
  exact ⟨_, rfl, rfl⟩

end Verdict

section Sound

variable [CustomMatcher κ] {g : Grammar κ} {call : Evaluator κ} {P : Option RuleId} {v : View} {y : Verdict κ}

/-- What an evaluator finds for rules is given. -/
def Evaluator.Sound (call : Evaluator κ) (g : Grammar κ) : Prop :=
  ∀ {P id v} {y : Verdict κ}, call P id v = Verdict.outcome y → g.Gives P (.rule id) v y

variable (hcall : call.Sound g)

include hcall

/-- A call in front of something: it met a fault, which is the verdict, or the rest goes on with its ending. -/
theorem Evaluator.Sound.bind {id : RuleId} {k : Ending κ → Except Stop (Ending κ)}
    (h : (call P id v >>= k) = Verdict.outcome y) :
    (∃ e, g.Gives P (.rule id) v (.error e) ∧ y = .error e) ∨
      ∃ o, g.Gives P (.rule id) v (.ok o) ∧ k o = Verdict.outcome y := by
  cases hc : call P id v with
  | error why =>
    rw [hc] at h
    obtain ⟨e, rfl, rfl⟩ := Verdict.eq_error h
    exact Or.inl ⟨e, hcall hc, rfl⟩
  | ok o =>
    rw [hc] at h
    exact Or.inr ⟨o, hcall hc, h⟩

theorem Eval.skip_sound (h : Eval.skip call P v = Verdict.outcome y) : g.Gives P .skip v y := by
  cases P with
  | none =>
    cases Verdict.eq_ok h
    exact .skipNothing
  | some p =>
    rcases hcall.bind h with ⟨e, hp, rfl⟩ | ⟨o, hp, h⟩
    · exact .skipFault hp
    · cases o with
      | parsed x w => cases Verdict.eq_ok h; exact .skipParsed hp
      | failed w => cases Verdict.eq_ok h; exact .skipFailed hp

theorem Eval.parts_sound {ids : List RuleId} {values : List (Value κ)}
    (h : Eval.parts call P ids values v = Verdict.outcome y) : g.Gives P (.parts ids values) v y := by
  induction ids generalizing values v with
  | nil =>
    cases Verdict.eq_ok h
    exact .partsNil
  | cons part ids ih =>
    rcases hcall.bind h with ⟨e, hp, rfl⟩ | ⟨o, hp, h⟩
    · exact .partsStop hp nofun
    · cases o with
      | parsed x w => exact .partsCons hp (ih h)
      | failed w => cases Verdict.eq_ok h; exact .partsStop hp nofun

theorem Eval.branches_sound {ids : List RuleId} {last : View}
    (h : Eval.branches call P v ids last = Verdict.outcome y) : g.Gives P (.branches ids last) v y := by
  induction ids generalizing last with
  | nil =>
    cases Verdict.eq_ok h
    exact .branchesNil
  | cons branch ids ih =>
    rcases hcall.bind h with ⟨e, hb, rfl⟩ | ⟨o, hb, h⟩
    · exact .branchesStop hb nofun
    · cases o with
      | parsed x w => cases Verdict.eq_ok h; exact .branchesStop hb nofun
      | failed w => exact .branchesNext hb (ih h)

theorem Eval.rounds_sound {attempt : RuleId} {minimum : Int} {fuel : Nat} {values : List (Value κ)}
    {latest : Ending κ} (h : Eval.rounds call P attempt minimum fuel values v latest = Verdict.outcome y) :
    g.Gives P (.rounds attempt minimum values latest) v y := by
  induction fuel generalizing values v latest with
  | zero =>
    obtain ⟨e, he, -⟩ := Verdict.eq_error h
    cases he
  | succ fuel ih =>
    cases latest with
    | failed w =>
      cases Verdict.eq_ok h
      exact .roundsFailed
    | parsed x w =>
      rw [Eval.rounds] at h
      split at h
      next hw =>
        cases Verdict.eq_ok h
        exact .roundsStill hw
      next hw =>
        rcases hcall.bind h with ⟨e, ha, rfl⟩ | ⟨o, ha, h⟩
        · exact .roundsFault hw ha
        · exact .roundsNext hw ha (ih h)

/-- What ambient whitespace leaves is given, or the fault of the policy is the verdict. -/
theorem Eval.skip_bind {k : Ending κ → Except Stop (Ending κ)}
    (h : (Eval.skip call P v >>= k) = Verdict.outcome y) :
    (∃ e, g.Gives P .skip v (.error e) ∧ y = .error e) ∨
      ∃ x w, g.Gives P .skip v (.ok (.parsed x w)) ∧ k (.parsed x w) = Verdict.outcome y := by
  cases hs : Eval.skip call P v with
  | error why =>
    rw [hs] at h
    obtain ⟨e, rfl, rfl⟩ := Verdict.eq_error h
    exact Or.inl ⟨e, Eval.skip_sound hcall hs, rfl⟩
  | ok o =>
    rw [hs] at h
    have hgives : g.Gives P .skip v (.ok o) := Eval.skip_sound hcall hs
    cases o with
    | parsed x w => exact Or.inr ⟨x, w, hgives, h⟩
    | failed w => cases hgives

theorem Eval.body_sound {b : Body κ} (hb : b ≠ .placeholder none) (h : Eval.body call P v b = Verdict.outcome y) :
    g.Gives P (.body b) v y := by
  -- a body that needs no other rule is evaluated as the relation has it
  have alone {z : Verdict κ} (hz : b.alone? v = some z)
      (h : (b.alone? v).elim (.error .unfinished) Verdict.outcome = Verdict.outcome y) : g.Gives P (.body b) v y := by
    rw [hz] at h
    exact .alone (hz.trans (congrArg some (Verdict.outcome_inj h)))
  cases b with
  | token m f => cases f <;> exact alone rfl h
  | capture m => exact alone rfl h
  | oneOf ms => exact alone rfl h
  | handWritten answer derivative => exact alone rfl h
  | sequence ids => exact .sequence (Eval.parts_sound hcall h)
  | either ids => exact .either (Eval.branches_sound hcall h)
  | optional inner default =>
    rcases hcall.bind h with ⟨e, hi, rfl⟩ | ⟨o, hi, h⟩
    · exact .optionalStop hi nofun
    · cases o with
      | parsed x w => cases Verdict.eq_ok h; exact .optionalStop hi nofun
      | failed w => cases Verdict.eq_ok h; exact .optionalDefault hi
  | repeated first minimum attempt =>
    rcases hcall.bind h with ⟨e, hf, rfl⟩ | ⟨o, hf, h⟩
    · exact .repeatedFault hf
    · exact .repeated hf (Eval.rounds_sound hcall h)
  | map inner f =>
    rcases hcall.bind h with ⟨e, hi, rfl⟩ | ⟨o, hi, h⟩
    · exact .mapStop hi nofun
    · cases o with
      | failed w => cases Verdict.eq_ok h; exact .mapStop hi nofun
      | parsed x w =>
        dsimp only at h
        cases hf : f x with
        | ok x' => rw [hf] at h; cases Verdict.eq_ok h; exact .map hi hf
        | error e =>
          rw [hf] at h
          obtain ⟨e', he, rfl⟩ := Verdict.eq_error h
          cases he
          exact .mapFault hi hf
  | skipping inner =>
    rcases Eval.skip_bind hcall h with ⟨e, hs, rfl⟩ | ⟨x, w, hs, h⟩
    · exact .skippingFault hs
    · exact .skipping hs (hcall h)
  | skippingAfter inner =>
    rcases hcall.bind h with ⟨e, hi, rfl⟩ | ⟨o, hi, h⟩
    · exact .skippingAfterStop hi nofun
    · cases o with
      | failed w => cases Verdict.eq_ok h; exact .skippingAfterStop hi nofun
      | parsed x w =>
        rcases Eval.skip_bind hcall h with ⟨e, hs, rfl⟩ | ⟨x', w', hs, h⟩
        · exact .skippingAfterFault hi hs
        · cases Verdict.eq_ok h
          exact .skippingAfter hi hs
  | within inner policy => exact .within (hcall h)
  | placeholder target =>
    cases target with
    | none => exact absurd rfl hb
    | some target => exact .target (hcall h)

end Sound

/-- **What is found is given**, whatever the fuel. -/
theorem Grammar.eval_sound [CustomMatcher κ] (g : Grammar κ) (fuel : Nat) : Evaluator.Sound (g.eval fuel) g := by
  induction fuel with
  | zero =>
    intro P id v y h
    obtain ⟨e, he, -⟩ := Verdict.eq_error h
    cases he
  | succ fuel ih =>
    intro P id v y h
    rw [Grammar.eval] at h
    split at h
    next hr =>
      obtain ⟨e, he, rfl⟩ := Verdict.eq_error h
      cases he
      exact .absent hr
    next label hr =>
      obtain ⟨e, he, rfl⟩ := Verdict.eq_error h
      cases he
      exact .unresolved hr
    next rule hne hr =>
      exact .rule hr (Eval.body_sound ih (fun hb => hne rule.label (by rw [← hb])) h)

/-! ## 2. What is given is found -/

section Call

variable {call : Evaluator κ} {P : Option RuleId} {id : RuleId} {v : View} {k : Ending κ → Except Stop (Ending κ)}

/-- Where only a success goes on, anything else is all that there is. -/
theorem Evaluator.bind_stop {y : Verdict κ} (h : call P id v = Verdict.outcome y) (hy : ¬ y.IsParsed)
    (hk : ∀ w, k (.failed w) = .ok (.failed w)) : (call P id v >>= k) = Verdict.outcome y := by
  match y, hy, h with
  | .error e, _, h => exact except_bind_of_error h
  | .ok (.failed w), _, h => exact (except_bind_of_ok h).trans (hk w)
  | .ok (.parsed x w), hy, _ => exact absurd ⟨x, w, rfl⟩ hy

/-- Where only a failure goes on, anything else is all that there is. -/
theorem Evaluator.bind_settled {y : Verdict κ} (h : call P id v = Verdict.outcome y) (hy : ¬ y.IsFailed)
    (hk : ∀ x w, k (.parsed x w) = .ok (.parsed x w)) : (call P id v >>= k) = Verdict.outcome y := by
  match y, hy, h with
  | .error e, _, h => exact except_bind_of_error h
  | .ok (.parsed x w), _, h => exact (except_bind_of_ok h).trans (hk x w)
  | .ok (.failed w), hy, _ => exact absurd ⟨w, rfl⟩ hy

end Call

section Complete

variable [CustomMatcher κ] {g : Grammar κ} {P : Option RuleId} {v : View} {y : Verdict κ}

theorem Eval.body_alone {call : Evaluator κ} {b : Body κ} (hb : b.alone? v = some y) :
    Eval.body call P v b = Verdict.outcome y := by
  have alone : (b.alone? v).elim (.error .unfinished) Verdict.outcome = Verdict.outcome y := by
    rw [hb]
    rfl
  cases b with
  | token m f => exact alone
  | capture m => exact alone
  | oneOf ms => exact alone
  | handWritten answer derivative => exact alone
  | _ => cases hb

/-- With this fuel the verdict of a task is found. The rounds of a repetition may be counted down from any number that
exceeds the length of the window. -/
def Task.Finds (g : Grammar κ) (P : Option RuleId) (v : View) (y : Verdict κ) (fuel : Nat) : Task κ → Prop
  | .rounds attempt minimum values latest =>
    ∀ k, v.length < k → Eval.rounds (g.eval fuel) P attempt minimum k values v latest = Verdict.outcome y
  | t => t.eval (g.eval fuel) P v = Verdict.outcome y

theorem Grammar.eval_absent {id : RuleId} {fuel : Nat} (hr : g.rule? id = none) :
    g.eval (fuel + 1) P id v = .error (.fault (.unresolved none)) := by
  rw [Grammar.eval, hr]

theorem Grammar.eval_unresolved {id : RuleId} {label : Option String} {fuel : Nat}
    (hr : g.rule? id = some ⟨label, .placeholder none⟩) :
    g.eval (fuel + 1) P id v = .error (.fault (.unresolved label)) := by
  rw [Grammar.eval, hr]

/-- A rule is evaluated with one unit of fuel more than its body. -/
theorem Grammar.eval_rule {id : RuleId} {rule : Rule κ} {fuel : Nat} (hr : g.rule? id = some rule)
    (hb : rule.body ≠ .placeholder none) : g.eval (fuel + 1) P id v = Eval.body (g.eval fuel) P v rule.body := by
  rw [Grammar.eval]
  split
  next hr' => cases hr'.symm.trans hr
  next label hr' =>
    cases hr'.symm.trans hr
    exact absurd rfl hb
  next rule' _ hr' =>
    cases hr'.symm.trans hr
    rfl

theorem eventually_succ {p : Nat → Prop} (h : ∀ᶠ n in Filter.atTop, p n) :
    ∀ᶠ n in Filter.atTop, ∃ m, n = m + 1 ∧ p m := by
  obtain ⟨n, hn⟩ := Filter.eventually_atTop.mp h
  refine Filter.eventually_atTop.mpr ⟨n + 1, fun m hm => ⟨m - 1, by omega, hn _ (by omega)⟩⟩

/-- **What is given is found**, with all fuel from some amount on. The induction is on the derivation. -/
theorem Grammar.Gives.finds {t : Task κ} (h : g.Gives P t v y) :
    t.Placed v → ∀ᶠ fuel in Filter.atTop, t.Finds g P v y fuel := by
  induction h with
  | rule hr h ih =>
    intro _
    filter_upwards [eventually_succ (ih trivial)]
    rintro _ ⟨n, rfl, hn⟩
    exact (eval_rule hr fun hb => by rw [hb] at h; cases h with | alone ha => cases ha).trans hn
  | absent hr =>
    intro _
    filter_upwards [eventually_succ (.of_forall fun _ => trivial)]
    rintro _ ⟨n, rfl, -⟩
    exact eval_absent hr
  | unresolved hr =>
    intro _
    filter_upwards [eventually_succ (.of_forall fun _ => trivial)]
    rintro _ ⟨n, rfl, -⟩
    exact eval_unresolved hr
  | target h ih => exact fun _ => ih trivial
  | alone hb => exact fun _ => .of_forall fun _ => Eval.body_alone hb
  | sequence h ih => exact fun _ => ih trivial
  | partsNil => exact fun _ => .of_forall fun _ => rfl
  | partsCons head tail ih ih' =>
    intro _
    filter_upwards [ih trivial, ih' trivial] with n h h'
    exact (except_bind_of_ok h).trans h'
  | partsStop head hy ih =>
    intro _
    filter_upwards [ih trivial] with n h
    exact Evaluator.bind_stop h hy fun _ => rfl
  | either h ih => exact fun _ => ih (.refl _)
  | branchesNil => exact fun _ => .of_forall fun _ => rfl
  | branchesNext head tail ih ih' =>
    intro _
    filter_upwards [ih trivial, ih' (head.tail trivial _ rfl)] with n h h'
    exact (except_bind_of_ok h).trans h'
  | branchesStop head hy ih =>
    intro _
    filter_upwards [ih trivial] with n h
    exact Evaluator.bind_settled h hy fun _ _ => rfl
  | optionalDefault h ih =>
    intro _
    filter_upwards [ih trivial] with n h
    exact except_bind_of_ok h
  | optionalStop h hy ih =>
    intro _
    filter_upwards [ih trivial] with n h
    exact Evaluator.bind_settled h hy fun _ _ => rfl
  | repeated h rounds ih ih' =>
    intro _
    filter_upwards [ih trivial, ih' (h.tail trivial _ rfl)] with n h h'
    exact (except_bind_of_ok h).trans (h' _ (Nat.lt_succ_self _))
  | repeatedFault h ih =>
    intro _
    filter_upwards [ih trivial] with n h
    exact except_bind_of_error h
  | roundsFailed =>
    refine fun _ => .of_forall fun _ k hk => ?_
    cases k with
    | zero => exact absurd hk (Nat.not_lt_zero _)
    | succ k => rfl
  | roundsStill hw =>
    refine fun _ => .of_forall fun _ k hk => ?_
    cases k with
    | zero => exact absurd hk (Nat.not_lt_zero _)
    | succ k => exact if_pos hw
  | roundsNext hw h rounds ih ih' =>
    intro hplaced
    filter_upwards [ih trivial, ih' (h.tail trivial _ rfl)] with n h h' k hk
    cases k with
    | zero => exact absurd hk (Nat.not_lt_zero _)
    | succ k =>
      -- each round leaves a shorter window, so the count is still large enough
      have hlt := View.TailOf.length_lt hplaced hw
      exact (if_neg hw).trans ((except_bind_of_ok h).trans (h' k (by simp only [Ending.rest] at hlt; omega)))
  | roundsFault hw h ih =>
    intro _
    filter_upwards [ih trivial] with n h k hk
    cases k with
    | zero => exact absurd hk (Nat.not_lt_zero _)
    | succ k => exact (if_neg hw).trans (except_bind_of_error h)
  | map h hf ih =>
    intro _
    filter_upwards [ih trivial] with n h
    exact (except_bind_of_ok h).trans (except_bind_of_ok (congrArg Verdict.outcome hf))
  | mapFault h hf ih =>
    intro _
    filter_upwards [ih trivial] with n h
    exact (except_bind_of_ok h).trans (except_bind_of_error (congrArg Verdict.outcome hf))
  | mapStop h hy ih =>
    intro _
    filter_upwards [ih trivial] with n h
    exact Evaluator.bind_stop h hy fun _ => rfl
  | skipNothing => exact fun _ => .of_forall fun _ => rfl
  | skipParsed h ih =>
    intro _
    filter_upwards [ih trivial] with n h
    exact except_bind_of_ok h
  | skipFailed h ih =>
    intro _
    filter_upwards [ih trivial] with n h
    exact except_bind_of_ok h
  | skipFault h ih =>
    intro _
    filter_upwards [ih trivial] with n h
    exact except_bind_of_error h
  | skipping hs h ih ih' =>
    intro _
    filter_upwards [ih trivial, ih' trivial] with n hs h
    exact (except_bind_of_ok hs).trans h
  | skippingFault hs ih =>
    intro _
    filter_upwards [ih trivial] with n hs
    exact except_bind_of_error hs
  | skippingAfter h hs ih ih' =>
    intro _
    filter_upwards [ih trivial, ih' trivial] with n h hs
    exact (except_bind_of_ok h).trans (except_bind_of_ok hs)
  | skippingAfterFault h hs ih ih' =>
    intro _
    filter_upwards [ih trivial, ih' trivial] with n h hs
    exact (except_bind_of_ok h).trans (except_bind_of_error hs)
  | skippingAfterStop h hy ih =>
    intro _
    filter_upwards [ih trivial] with n h
    exact Evaluator.bind_stop h hy fun _ => rfl
  | within h ih => exact fun _ => ih trivial

/-- **A grammar gives at most one verdict.** -/
theorem Grammar.Gives.unique {id : RuleId} {y' : Verdict κ} (h : g.Gives P (.rule id) v y)
    (h' : g.Gives P (.rule id) v y') : y = y' := by
  obtain ⟨n, hn, hn'⟩ := ((h.finds trivial).and (h'.finds trivial)).exists
  exact Verdict.outcome_inj (hn.symm.trans hn')

end Complete

end Descent
