import Descent.Proofs.Likeness.Basic

/-!
# What rules ask for in windows that show the same text

Run against windows that show the same text, a rule asks for the same things: for the policy, for expectations, and for
other rules to be run, in the same way and against parts in the same place (`Likeness.Plans`). So as long as what it is
answered corresponds, what it does next corresponds, and so does what it comes to.

This is a reading of plans, one lemma for each combinator. Every way in which a rule could find out *where* its window
lies is met with here: it compares offsets with each other, which the shift between the windows does not change, and it
asks matchers, which know the text only.
-/

namespace Descent

variable {κ α β γ δ : Type}

/-- Plans that ask for the same, in the same places, as long as they are answered the same. -/
inductive Likeness.Plans (K : Likeness) (C : View → Prop) (R : α → β → Prop) : Plan κ α → Plan κ β → Prop
  | done {a : α} {b : β} (h : R a b) : Plans K C R (.done a) (.done b)
  | stop (why : Stop) : Plans K C R (.stop why) (.stop why)
  | policy {next : Option RuleId → Plan κ α} {next' : Option RuleId → Plan κ β}
      (h : ∀ p, Plans K C R (next p) (next' p)) : Plans K C R (.policy next) (.policy next')
  | expect (id : RuleId) {next : Expectation κ → Plan κ α} {next' : Expectation κ → Plan κ β}
      (h : ∀ e, Plans K C R (next e) (next' e)) : Plans K C R (.expect id next) (.expect id next')
  | call (scope : Scope) (id : RuleId) {v v' : View} {next : Result κ → Plan κ α} {next' : Result κ → Plan κ β}
      (hv : K.Views v v') (h : ∀ r r', K.Results C r r' → Plans K C R (next r) (next' r')) :
      Plans K C R (.call scope id v next) (.call scope id v' next')

/-- A grammar that looks at windows through their text only: it has no hand-written rules and no matchers of a user,
its transforms are blind, and so are the values that it puts in the place of others. -/
structure Grammar.LooksAtText (g : Grammar κ) (C : View → Prop) : Prop where
  library : g.IsLibrary
  matchers : ∀ id rule, g.rule? id = some rule → ∀ m ∈ rule.body.leaves, m.custom? = none
  transforms : ∀ id rule, g.rule? id = some rule → ∀ f, rule.body.transform? = some f → f.IsBlind C
  defaults : ∀ id label inner default, g.rule? id = some ⟨label, .optional inner default⟩ → default.IsConstant C

namespace Likeness

variable {K : Likeness} {C : View → Prop} {R : α → β → Prop} {S : γ → δ → Prop}

namespace Plans

theorem bind {p : Plan κ α} {q : Plan κ β} {f : α → Plan κ γ} {h : β → Plan κ δ} (hpq : K.Plans C R p q)
    (hfh : ∀ a b, R a b → K.Plans C S (f a) (h b)) : K.Plans C S (p.bind f) (q.bind h) := by
  induction hpq with
  | done hab => exact hfh _ _ hab
  | stop why => exact .stop why
  | policy _ ih => exact .policy ih
  | expect id _ ih => exact .expect id ih
  | call scope id hv _ ih => exact .call scope id hv ih

theorem ofExcept {x : Except Fault α} {y : Except Fault β} (h : Except.Both R x y) :
    K.Plans C R (Plan.ofExcept x : Plan κ α) (Plan.ofExcept y) := by
  cases x with
  | ok a =>
    cases y with
    | ok b => exact .done h
    | error e => exact h.elim
  | error e =>
    cases y with
    | ok b => exact h.elim
    | error e' =>
      cases h
      exact .stop _

/-- A rule that is run as it is, and what is done with its results. -/
theorem run {id : RuleId} {v v' : View} {next : Result κ → Plan κ α} {next' : Result κ → Plan κ β} (hv : K.Views v v')
    (hparsed : ∀ x x' w w', Value.Rel (K.Seen C) x x' → K.Views w w' →
      K.Plans C R (next (.parsed x w)) (next' (.parsed x' w')))
    (hfailed : ∀ f f', K.Failures f f' → K.Plans C R (next (.failed f)) (next' (.failed f'))) :
    K.Plans C R (.call .plain id v next) (.call .plain id v' next') := by
  refine .call .plain id hv fun r r' hr => ?_
  cases hr with
  | parsed hx hw => exact hparsed _ _ _ _ hx hw
  | failed hf => exact hfailed _ _ hf

end Plans

variable {v v' : View}

/-! ## 1. Single matches -/

section Single

variable [CustomMatcher κ]

/-- A matcher of the library applies to both windows or to neither, and cuts them alike. -/
theorem split_alike {m : Matcher κ} (hm : m.custom? = none) (hv : K.Views v v') :
    Except.Both (Option.Rel fun halves halves' => K.Views halves.1 halves'.1 ∧ K.Views halves.2 halves'.2)
      (m.split v) (m.split v') := by
  rw [Matcher.split_eq_width hm v, Matcher.split_eq_width hm v', ← hv.chars_eq]
  cases hw : m.width? v.chars with
  | error e => rfl
  | ok width =>
    cases width with
    | none => exact Option.Rel.none
    | some n =>
      obtain ⟨a, b, a', b', hsplit, hsplit', ha, hb⟩ := hv.split (Matcher.width?_le_length hw)
      show Except.Both _ (do return some (← v.split (v.start + n))) (do return some (← v'.split (v'.start + n)))
      rw [hsplit, hsplit']
      exact Option.Rel.some ⟨ha, hb⟩

theorem taken_alike {m : Matcher κ} (hm : m.custom? = none) (hv : K.Views v v')
    {value value' : View → Except Fault (Value κ)}
    (h : ∀ w w', K.Views w w' → Except.Both (Value.Rel (K.Seen C)) (value w) (value' w')) :
    Except.Both (K.Results C) (m.taken v value) (m.taken v' value') := by
  refine (split_alike hm hv).bind fun halves halves' hhalves => ?_
  cases hhalves with
  | none => exact Results.failed ⟨hv, rfl, rfl⟩
  | some hhalves => exact (h _ _ hhalves.1).bind fun x x' hx => Results.parsed hx hhalves.2

theorem chosen_alike (all : List (Matcher κ)) (hv : K.Views v v') {ms : List (Matcher κ)}
    (hms : ∀ m ∈ ms, m.custom? = none) : Except.Both (K.Results C) (chosen all v ms) (chosen all v' ms) := by
  induction ms with
  | nil => exact Results.failed ⟨hv, rfl, rfl⟩
  | cons m ms ih =>
    obtain ⟨hm, hms⟩ := List.forall_mem_cons.mp hms
    refine (split_alike hm hv).bind fun halves halves' hhalves => ?_
    cases hhalves with
    | none => exact ih hms
    | some hhalves => exact Results.parsed (.matcher m) hhalves.2

end Single

/-! ## 2. Combinations -/

theorem skip_alike (hv : K.Views v v') : K.Plans C K.Views (Plan.skip v : Plan κ View) (Plan.skip v') := by
  refine .policy fun p => ?_
  cases p with
  | none => exact .done hv
  | some p =>
    refine .call .quiet p hv fun r r' hr => ?_
    cases hr with
    | parsed _ hw => exact .done hw
    | failed _ => exact .done hv

theorem sequencePlan_alike (parts : List RuleId) {xs ys : List (Value κ)}
    (hxs : List.Forall₂ (Value.Rel (K.Seen C)) xs ys) (hv : K.Views v v') :
    K.Plans C (K.Results C) (sequencePlan parts xs v) (sequencePlan parts ys v') := by
  induction parts generalizing xs ys v v' with
  | nil => exact .done (.parsed (.tuple hxs) hv)
  | cons part parts ih =>
    refine .run hv (fun x x' w w' hx hw => ?_) fun f f' hf => .done (.failed hf)
    exact ih (List.rel_append hxs (.cons hx .nil)) hw

theorem eitherPlan_alike (branches : List RuleId) {r r' : Result κ} (hv : K.Views v v') (hr : K.Results C r r') :
    K.Plans C (K.Results C) (eitherPlan v branches r) (eitherPlan v' branches r') := by
  induction branches generalizing r r' with
  | nil => exact .done hr
  | cons branch branches ih =>
    exact .run hv (fun x x' w w' hx hw => .done (.parsed hx hw)) fun f f' hf => ih (.failed hf)

theorem closed_alike (minimum : Int) {xs ys : List (Value κ)} {r r' : Result κ}
    (hxs : List.Forall₂ (Value.Rel (K.Seen C)) xs ys) (hv : K.Views v v') (hr : K.Results C r r') :
    K.Results C (closed minimum xs v r) (closed minimum ys v' r') := by
  rw [closed, closed, hxs.length_eq]
  split
  · exact hr
  · exact .parsed (.list hxs) hv

theorem roundsPlan_alike (attempt : RuleId) (minimum : Int) (fuel : Nat) {xs ys : List (Value κ)} {r r' : Result κ}
    (hxs : List.Forall₂ (Value.Rel (K.Seen C)) xs ys) (hv : K.Views v v') (hr : K.Results C r r') :
    K.Plans C (K.Results C) (roundsPlan attempt minimum fuel xs v r) (roundsPlan attempt minimum fuel ys v' r') := by
  induction fuel generalizing xs ys v v' r r' with
  | zero => exact .stop .unfinished
  | succ fuel ih =>
    cases hr with
    | failed hf => exact .done (closed_alike minimum hxs hv (.failed hf))
    | @parsed x x' w w' hx hw =>
      have hxs' := List.rel_append hxs (.cons hx .nil)
      have moved : w.start = v.start ↔ w'.start = v'.start := hv.start_eq_iff hw
      rw [roundsPlan, roundsPlan]
      by_cases h : w.start = v.start
      · rw [if_pos h, if_pos (moved.mp h)]
        exact .done (closed_alike minimum hxs' hv (.parsed hx hw))
      · rw [if_neg h, if_neg fun h' => h (moved.mpr h')]
        exact .call .plain attempt hw fun r r' hr => ih hxs' hw hr

section Failure

variable [DecidableEq κ] {f f' : Failure κ}

theorem allow_alike (hf : K.Failures f f') : K.Plans C K.Failures (Plan.allow f) (Plan.allow f') := by
  refine .policy fun p => ?_
  cases p with
  | none => exact .done hf
  | some p => exact .expect p fun e => .done ⟨hf.rest, hf.expected, by rw [Failure.allowing, Failure.allowing, hf.whitespace]⟩

theorem Failures.stampedBy (hf : K.Failures f f') (e : Expectation κ) (whitespace : List (Matcher κ)) :
    K.Failures (f.stampedBy e whitespace) (f'.stampedBy e whitespace) := by
  rw [Failure.stampedBy, Failure.stampedBy, hf.expected, hf.whitespace]
  exact ⟨hf.rest, rfl, rfl⟩

theorem stamp_alike (id : RuleId) {r r' : Result κ} (hv : K.Views v v') (hr : K.Results C r r') :
    K.Plans C (K.Results C) (Plan.stamp id v r) (Plan.stamp id v' r') := by
  cases hr with
  | parsed hx hw => exact .done (.parsed hx hw)
  | @failed f f' hf =>
    have atEntry : f.offset = v.start ↔ f'.offset = v'.start := hf.offset_eq_iff hv
    rw [Plan.stamp, Plan.stamp]
    by_cases h : f.offset = v.start
    · rw [if_pos h, if_pos (atEntry.mp h)]
      refine .expect id fun e => ?_
      cases e.ambient with
      | false => exact .done (.failed (hf.stampedBy e _))
      | true =>
        refine .policy fun p => ?_
        cases p with
        | none => exact .done (.failed (hf.stampedBy e _))
        | some p => exact .expect p fun e' => .done (.failed (hf.stampedBy e _))
    · rw [if_neg h, if_neg fun h' => h (atEntry.mpr h')]
      exact .done (.failed hf)

end Failure

/-! ## 3. Bodies and rules -/

variable [DecidableEq κ] [CustomMatcher κ]

/-- A body of the library asks for the same in both windows. -/
theorem body_alike {b : Body κ} (hlibrary : b.IsLibrary) (hmatchers : ∀ m ∈ b.leaves, m.custom? = none)
    (htransforms : ∀ f, b.transform? = some f → f.IsBlind C)
    (hdefaults : ∀ inner default, b = .optional inner default → default.IsConstant C) (hv : K.Views v v') :
    K.Plans C (K.Results C) (b.plan v) (b.plan v') := by
  have seen {w w' : View} (hw : K.Views w w') : Value.Rel (K.Seen C) (.view w) (.view w' : Value κ) := .view (Or.inl hw)
  -- how a blind transform takes corresponding values
  have applied {f : Transform κ} (hf : f.IsBlind C) {x x' : Value κ} (hx : Value.Rel (K.Seen C) x x') :
      Except.Both (Value.Rel (K.Seen C)) (f x) (f x') :=
    hf (K.Seen C) (fun _ _ => Seen.chars_eq) (fun _ => Seen.const) x x' hx
  have text {w w' : View} (hw : K.Views w w') : Value.Rel (K.Seen C) (.str w.text) (.str w'.text : Value κ) := by
    rw [View.text, View.text, hw.chars_eq]
    exact .str _
  cases b with
  | token m f =>
    have hm : m.custom? = none := hmatchers m (List.mem_singleton_self m)
    cases f with
    | none => exact .ofExcept (taken_alike hm hv fun w w' hw => text hw)
    | some f => exact .ofExcept (taken_alike hm hv fun w w' hw => applied (htransforms f rfl) (text hw))
  | capture m =>
    have hm : m.custom? = none := hmatchers m (List.mem_singleton_self m)
    exact .ofExcept (taken_alike hm hv fun w w' hw => seen hw)
  | sequence parts => exact sequencePlan_alike parts .nil hv
  | either branches => exact eitherPlan_alike branches hv (.failed ⟨hv, rfl, rfl⟩)
  | oneOf ms => exact .ofExcept (chosen_alike ms hv hmatchers)
  | optional inner default =>
    refine .run hv (fun x x' w w' hx hw => .done (.parsed hx hw)) fun f f' hf => .done (.parsed ?_ hv)
    exact hdefaults inner default rfl (K.Seen C) fun _ => Seen.const
  | repeated first minimum attempt =>
    rw [Body.plan, Body.plan, hv.length_eq]
    exact .call .plain first hv fun r r' hr => roundsPlan_alike attempt minimum _ .nil hv hr
  | map inner f =>
    refine .run hv (fun x x' w w' hx hw => ?_) fun f f' hf => .done (.failed hf)
    exact .ofExcept ((applied (htransforms f rfl) hx).bind fun y y' hy => Results.parsed hy hw)
  | skipping inner =>
    refine (skip_alike hv).bind fun start start' hstart => ?_
    refine .run hstart (fun x x' w w' hx hw => .done (.parsed hx hw)) fun f f' hf => ?_
    have atStart : f.offset = start.start ↔ f'.offset = start'.start := hf.offset_eq_iff hstart
    dsimp only
    by_cases h : f.offset = start.start
    · rw [if_pos h, if_pos (atStart.mp h)]
      exact (allow_alike hf).bind fun f f' hf => .done (.failed hf)
    · rw [if_neg h, if_neg fun h' => h (atStart.mpr h')]
      exact .done (.failed hf)
  | skippingAfter inner =>
    refine .run hv (fun x x' w w' hx hw => ?_) fun f f' hf => .done (.failed hf)
    exact (skip_alike hw).bind fun u u' hu => .done (.parsed hx hu)
  | within inner policy => exact .call (.under policy) inner hv fun r r' hr => .done hr
  | placeholder target => exact .stop _
  | handWritten answer derivative => exact hlibrary.elim

/-- And so does a rule. -/
theorem plan_alike {g : Grammar κ} (hg : g.LooksAtText C) (id : RuleId) (hv : K.Views v v') :
    K.Plans C (K.Results C) (g.plan id v) (g.plan id v') := by
  rw [Grammar.plan, Grammar.plan]
  cases hr : g.rule? id with
  | none => exact .stop _
  | some rule =>
    obtain ⟨label, body⟩ := rule
    have followed : K.Plans C (K.Results C) ((body.plan v).bind (Plan.stamp id v))
        ((body.plan v').bind (Plan.stamp id v')) := by
      refine (body_alike (hg.library id _ hr) (hg.matchers id _ hr) (hg.transforms id _ hr) ?_ hv).bind
        fun r r' hr => stamp_alike id hv hr
      rintro inner default rfl
      exact hg.defaults id label inner default hr
    cases body with
    | placeholder target =>
      cases target with
      | none => exact .stop _
      | some target => exact .call .plain target hv fun r r' hr => .done hr
    | _ => exact followed

end Likeness

end Descent
