import Descent.Matcher.Fixed
import Descent.Proofs.Restored

/-!
# How deep recording is suspended

A context counts the sections that it is inside of in which failures are not recorded: one up where such a section is
entered, one down where it is left, in whichever way. A `Usage` is what a caller does with a context, section by
section, with exceptions that end sections and may be caught further out. **The count is right wherever a usage of a new
context passes, inside of the runs too, if and only if no reset is made inside of a section**
(`Usage.suspended_counts_iff`); and while it is right, failures are recorded outside of sections and nowhere else.

A reset does not balance the count but sets it to zero, and the sections around it still take one off each when they are
left. What is left behind is a count below zero, with which nothing is recorded any more, although no section is open
(`resetInside_mutes`).
-/

namespace Descent

variable {κ α : Type}

/-! ## 1. Points in a run -/

/-- How many sections a scope opens in which failures are not recorded. -/
def Scope.sections : Scope → Nat
  | .quiet => 1
  | .plain | .under _ => 0

theorem Scope.suspended_enter_eq (scope : Scope) (c : Context κ) :
    (scope.enter c).suspended = c.suspended + scope.sections := by
  cases scope <;> simp [Scope.enter, Scope.sections]

theorem Scope.suspended_leave_eq (scope : Scope) (c c' : Context κ) :
    (scope.leave c c').suspended = c'.suspended - scope.sections := by
  cases scope <;> simp [Scope.leave, Scope.sections]

/-- However `x` ends from `s`, it leaves `t`. -/
inductive Parse.Left (x : Parse κ α) (s t : ParseState κ) : Prop
  | ok {a : α} (h : x s = .ok a t)
  | error {why : Stop} (h : x s = .error why t)

theorem Leaves.left {x : Parse κ α} {s t : ParseState κ} {Q : ParseState κ → Prop} (h : Leaves x s Q)
    (hleft : x.Left s t) : Q t := by
  cases hleft with
  | ok hx => exact Ensures.ok h hx
  | error hx => exact Ensures.error h hx

/-- A state, and how many sections are open there in which failures are not recorded. -/
structure Point (κ : Type) where
  state : ParseState κ
  sections : Nat

namespace Point

/-- The same point after something that opens and ends no section. -/
def moved (a : Point κ) (t : ParseState κ) : Point κ := ⟨t, a.sections⟩

/-- The first point of a scope. -/
def enter (scope : Scope) (a : Point κ) : Point κ :=
  ⟨{ a.state with context := scope.enter a.state.context }, a.sections + scope.sections⟩

/-- What stays true in the course of a run if its calls keep it true: the bookkeeping of derivations does not matter to
it, and no scope does. -/
structure Stays (P : Point κ → Prop) : Prop where
  derive : ∀ {a : Point κ} (d : Derivation κ), P a → P (a.moved { a.state with derivation := d })
  enter : ∀ {a : Point κ} (scope : Scope), P a → P (a.enter scope)
  leave : ∀ {a : Point κ} {scope : Scope} {t : ParseState κ}, P ((a.enter scope).moved t) →
    P (a.moved { t with context := scope.leave a.state.context t.context })

/-- What stays true inside of a section stays true around the section. -/
theorem Stays.around {P : Point κ → Prop} (hP : Stays P) {a : Point κ} {x : Parse κ α} {scope : Scope}
    (hx : Leaves x (a.enter scope).state fun t => P ((a.enter scope).moved t)) :
    Leaves (scope.around x) a.state fun t => P (a.moved t) := by
  rw [scope.around_eq]
  exact Parse.ensures_bracketed.mpr (hx.imp (fun _ _ h => hP.leave h) fun _ _ h => hP.leave h)

/-- The context counts the sections that are open. -/
def Counts (a : Point κ) : Prop := a.state.context.suspended = a.sections

theorem Counts.enter {a : Point κ} (h : a.Counts) (scope : Scope) : (a.enter scope).Counts := by
  show (scope.enter a.state.context).suspended = ((a.sections + scope.sections : Nat) : Int)
  rw [scope.suspended_enter_eq, h, Int.natCast_add]

theorem Counts.of_restored {a : Point κ} {t : ParseState κ} (h : a.Counts) (ht : a.state.context.Restored t.context) :
    (a.moved t).Counts := ht.suspended.trans h

/-- What restores the context keeps the count right. -/
theorem Counts.along {a : Point κ} {x : Parse κ α} (h : a.Counts)
    (hx : Leaves x a.state fun t => a.state.context.Restored t.context) :
    Leaves x a.state fun t => (a.moved t).Counts :=
  hx.imp (fun _ _ => h.of_restored) fun _ _ => h.of_restored

/-- Leaving a section makes up for entering it. -/
theorem Counts.leave {a : Point κ} {scope : Scope} {t : ParseState κ} (h : ((a.enter scope).moved t).Counts) :
    (a.moved { t with context := scope.leave a.state.context t.context }).Counts := by
  have ht : t.context.suspended = ((a.sections + scope.sections : Nat) : Int) := h
  show (scope.leave a.state.context t.context).suspended = (a.sections : Int)
  rw [scope.suspended_leave_eq, ht]
  omega

theorem counts_stays : Stays (Counts (κ := κ)) where
  derive _ h := h
  enter scope h := h.enter scope
  leave h := h.leave

/-- A reset is right where there is nothing to count. -/
theorem Counts.reset {a : Point κ} (h : a.sections = 0) :
    (a.moved { a.state with context := a.state.context.reset }).Counts := by
  show (0 : Int) = a.sections
  rw [h, Int.natCast_zero]

/-- While the count is right, failures are recorded outside of sections and nowhere else. -/
theorem Counts.record [DecidableEq κ] {a : Point κ} (h : a.Counts) (f : Failure κ) :
    a.state.context.record f =
      if a.sections = 0 then
        { a.state.context with furthest := some (Context.deepest a.state.context.furthest f) }
      else a.state.context := by
  have hzero : a.state.context.suspended = 0 ↔ a.sections = 0 := by
    rw [h]
    exact Int.natCast_eq_zero
  simp only [Context.record, ne_eq, hzero, ite_not]

end Point

section Run

variable [DecidableEq κ] {g : Grammar κ} {run : Runner κ} {inside : RuleId → View → Point κ → Point κ → Prop}
  {a b : Point κ}

/-- A point that the execution of a plan passes from a point on. A rule that is called is run by `run`, and passes what
`inside` says. -/
inductive Plan.Passes (g : Grammar κ) (run : Runner κ) (inside : RuleId → View → Point κ → Point κ → Prop) :
    Plan κ α → Point κ → Point κ → Prop
  | here {p : Plan κ α} {a : Point κ} : Passes g run inside p a a
  | policy {next : Option RuleId → Plan κ α} {a b : Point κ}
    (h : Passes g run inside (next a.state.context.whitespace) a b) : Passes g run inside (.policy next) a b
  | expect {id : RuleId} {next : Expectation κ → Plan κ α} {a b : Point κ} {e : Expectation κ} {d : Derivation κ}
    (he : g.expectation id a.state.derivation = .ok e d)
    (h : Passes g run inside (next e) (a.moved { a.state with derivation := d }) b) :
    Passes g run inside (.expect id next) a b
  | call {scope : Scope} {id : RuleId} {v : View} {next : Result κ → Plan κ α} {a b : Point κ}
    (h : inside id v (a.enter scope) b) : Passes g run inside (.call scope id v next) a b
  | after {scope : Scope} {id : RuleId} {v : View} {next : Result κ → Plan κ α} {a b : Point κ} {r : Result κ}
    {t : ParseState κ} (hr : scope.around (run id v) a.state = .ok r t)
    (h : Passes g run inside (next r) (a.moved t) b) : Passes g run inside (.call scope id v next) a b

/-- What stays true in the course of the calls of a plan stays true in the course of the plan. -/
theorem Plan.Passes.stays {P : Point κ → Prop} (hP : Point.Stays P) {p : Plan κ α}
    (hrun : ∀ id v a, P a → Leaves (run id v) a.state fun t => P (a.moved t))
    (hinside : ∀ id v a b, inside id v a b → P a → P b) (h : p.Passes g run inside a b) (ha : P a) : P b := by
  induction h with
  | here => exact ha
  | policy h ih => exact ih ha
  | expect he h ih => exact ih (hP.derive _ ha)
  | call h => exact hinside _ _ _ _ h (hP.enter _ ha)
  | @after scope id v next a b r t hr h ih =>
    exact ih ((hP.around (hrun id v (a.enter scope) (hP.enter scope ha))).ok hr)

variable [CustomMatcher κ]

/-- A point that the run of a rule passes: one in the course of its plan, at any depth, or the one where it ends. -/
def Grammar.Passes (g : Grammar κ) : Nat → RuleId → View → Point κ → Point κ → Prop
  | 0, _, _, a, b => b = a
  | fuel + 1, id, v, a, b =>
    (g.plan id v).Passes g (g.parse fuel) (g.Passes fuel) a b ∨
      ∃ t, (g.parse (fuel + 1) id v).Left a.state t ∧ b = a.moved t

/-- **What runs leave true stays true in the course of a run.** -/
theorem Grammar.Passes.stays {P : Point κ → Prop} (hP : Point.Stays P)
    (hparse : ∀ fuel id v a, P a → Leaves (g.parse fuel id v) a.state fun t => P (a.moved t)) {fuel : Nat} {id : RuleId}
    {v : View} (h : g.Passes fuel id v a b) (ha : P a) : P b := by
  induction fuel generalizing id v a b with
  | zero => exact h ▸ ha
  | succ fuel ih =>
    rcases h with h | ⟨t, h, rfl⟩
    · exact h.stays hP (hparse fuel) (fun id v a b => ih) ha
    · exact (hparse (fuel + 1) id v a ha).left h

/-- In the course of a run the count stays right. -/
theorem Grammar.passes_counts {fuel : Nat} {id : RuleId} {v : View} (h : g.Passes fuel id v a b) (ha : a.Counts) :
    b.Counts :=
  h.stays Point.counts_stays (fun fuel id v _ ha => ha.along (g.parse_restored fuel id v _)) ha

end Run

/-! ## 2. Usages -/

/-- What is done with a context, one thing after another. -/
inductive Usage (κ : Type) where
  | done
  /-- an exception, which ends all sections up to where it is caught -/
  | raise (why : Stop)
  | parse (id : RuleId) (v : View) (next : Usage κ)
  /-- skips whitespace -/
  | skip (v : View) (next : Usage κ)
  | record (f : Failure κ) (next : Usage κ)
  | reset (next : Usage κ)
  /-- a section in which failures are not recorded, or one under another policy -/
  | section (scope : Scope) (body next : Usage κ)
  /-- a part whose exceptions are caught -/
  | caught (body next : Usage κ)

/-- Goes on with `y` however `x` ends. -/
def Parse.andThen (x y : Parse κ Unit) : Parse κ Unit := fun s =>
  match x s with
  | .ok _ t => y t
  | .error _ t => y t

theorem Parse.ensures_andThen {x y : Parse κ Unit} {s : ParseState κ} {Q : Unit → ParseState κ → Prop}
    {E : Stop → ParseState κ → Prop} :
    Ensures (x.andThen y) s Q E ↔ Leaves x s fun t => Ensures y t Q E := by
  unfold Leaves Ensures Parse.andThen
  cases x s <;> rfl

namespace Usage

variable [DecidableEq κ] [CustomMatcher κ] {g : Grammar κ} {fuel : Nat} {u u' : Usage κ} {a b : Point κ}

def perform (g : Grammar κ) (fuel : Nat) : Usage κ → Parse κ Unit
  | .done => pure ()
  | .raise why => throw why
  | .parse id v next => do
    let _ ← g.parse fuel id v
    next.perform g fuel
  | .skip v next => do
    let _ ← Parse.skip (g.parse fuel) v
    next.perform g fuel
  | .record f next => do
    Parse.record f
    next.perform g fuel
  | .reset next => do
    Parse.modifyContext Context.reset
    next.perform g fuel
  | .section scope body next => do
    scope.around (body.perform g fuel)
    next.perform g fuel
  | .caught body next => (body.perform g fuel).andThen (next.perform g fuel)

/-- Performing a usage from a point on comes to another point, with another usage to be performed from there on. -/
inductive ComesTo (g : Grammar κ) (fuel : Nat) : Usage κ → Point κ → Usage κ → Point κ → Prop
  | here {u : Usage κ} {a : Point κ} : ComesTo g fuel u a u a
  | parse {id : RuleId} {v : View} {next u : Usage κ} {a b : Point κ} {r : Result κ} {t : ParseState κ}
    (hr : g.parse fuel id v a.state = .ok r t) (h : ComesTo g fuel next (a.moved t) u b) :
    ComesTo g fuel (.parse id v next) a u b
  | skip {v w : View} {next u : Usage κ} {a b : Point κ} {t : ParseState κ}
    (hr : Parse.skip (g.parse fuel) v a.state = .ok w t) (h : ComesTo g fuel next (a.moved t) u b) :
    ComesTo g fuel (.skip v next) a u b
  | record {f : Failure κ} {next u : Usage κ} {a b : Point κ}
    (h : ComesTo g fuel next (a.moved { a.state with context := a.state.context.record f }) u b) :
    ComesTo g fuel (.record f next) a u b
  | reset {next u : Usage κ} {a b : Point κ}
    (h : ComesTo g fuel next (a.moved { a.state with context := a.state.context.reset }) u b) :
    ComesTo g fuel (.reset next) a u b
  | inside {scope : Scope} {body next u : Usage κ} {a b : Point κ} (h : ComesTo g fuel body (a.enter scope) u b) :
    ComesTo g fuel (.section scope body next) a u b
  | after {scope : Scope} {body next u : Usage κ} {a b : Point κ} {t : ParseState κ}
    (hr : scope.around (body.perform g fuel) a.state = .ok ⟨⟩ t) (h : ComesTo g fuel next (a.moved t) u b) :
    ComesTo g fuel (.section scope body next) a u b
  | tried {body next u : Usage κ} {a b : Point κ} (h : ComesTo g fuel body a u b) :
    ComesTo g fuel (.caught body next) a u b
  | caught {body next u : Usage κ} {a b : Point κ} {t : ParseState κ} (hr : (body.perform g fuel).Left a.state t)
    (h : ComesTo g fuel next (a.moved t) u b) : ComesTo g fuel (.caught body next) a u b

/-- A point that a usage passes: one where it goes on, one in the course of a run, or one where a part of it has ended,
by an exception or otherwise. -/
inductive Passes (g : Grammar κ) (fuel : Nat) (u : Usage κ) (a : Point κ) : Point κ → Prop
  | at {u' : Usage κ} {b : Point κ} (h : u.ComesTo g fuel a u' b) : Passes g fuel u a b
  | ended {u' : Usage κ} {b : Point κ} {t : ParseState κ} (h : u.ComesTo g fuel a u' b)
    (ht : (u'.perform g fuel).Left b.state t) : Passes g fuel u a (b.moved t)
  | running {id : RuleId} {v : View} {next : Usage κ} {b c : Point κ} (h : u.ComesTo g fuel a (.parse id v next) b)
    (hc : g.Passes fuel id v b c) : Passes g fuel u a c
  | skipping {v : View} {next : Usage κ} {b c : Point κ} (h : u.ComesTo g fuel a (.skip v next) b)
    (hc : (Plan.skip v).Passes g (g.parse fuel) (g.Passes fuel) b c) : Passes g fuel u a c

/-- No reset is made inside of a section in which failures are not recorded. -/
def ResetsOutside (g : Grammar κ) (fuel : Nat) (u : Usage κ) (a : Point κ) : Prop :=
  ∀ next b, u.ComesTo g fuel a (.reset next) b → b.sections = 0

/-! ## 3. The count along a usage -/

theorem skip_restored (g : Grammar κ) (fuel : Nat) (v : View) (s : ParseState κ) :
    Leaves (Parse.skip (g.parse fuel) v) s fun t => s.context.Restored t.context := by
  rw [← exec_skip (g := g)]
  exact Plan.exec_restored (g.parse_restored fuel) _ s

/-- Where no reset is made inside of a section, a usage ends with as many open as there were. -/
theorem perform_counts (hu : u.ResetsOutside g fuel a) (ha : a.Counts) :
    Leaves (u.perform g fuel) a.state fun t => (a.moved t).Counts := by
  induction u generalizing a with
  | done => exact ha
  | raise why => exact ha
  | parse id v next ih =>
    have run := ha.along (g.parse_restored fuel id v a.state)
    refine ensures_bind.mpr ((run.and (ensures_self _ _)).imp ?_ fun _ _ h => h.1)
    rintro r t ⟨ht, hr⟩
    exact ih (a := a.moved t) (fun next b h => hu next b (.parse hr h)) ht
  | skip v next ih =>
    have run := ha.along (skip_restored g fuel v a.state)
    refine ensures_bind.mpr ((run.and (ensures_self _ _)).imp ?_ fun _ _ h => h.1)
    rintro w t ⟨ht, hr⟩
    exact ih (a := a.moved t) (fun next b h => hu next b (.skip hr h)) ht
  | record f next ih =>
    exact ih (a := a.moved { a.state with context := a.state.context.record f })
      (fun next b h => hu next b (.record h)) (ha.of_restored (.record _ f))
  | reset next ih =>
    have hnone : a.sections = 0 := hu next a .here
    exact ih (a := a.moved { a.state with context := a.state.context.reset })
      (fun next b h => hu next b (.reset h)) (.reset hnone)
  | «section» scope body next ihb ihn =>
    have inside := ihb (a := a.enter scope) (fun next b h => hu next b (.inside h)) (ha.enter scope)
    refine ensures_bind.mpr (((Point.counts_stays.around inside).and (ensures_self _ _)).imp ?_ fun _ _ h => h.1)
    rintro u t ⟨ht, hr⟩
    exact ihn (a := a.moved t) (fun next b h => hu next b (.after hr h)) ht
  | caught body next ihb ihn =>
    have tried := (ihb (a := a) (fun next b h => hu next b (.tried h)) ha).and (ensures_self _ _)
    refine Parse.ensures_andThen.mpr (tried.imp ?_ ?_)
    · rintro u t ⟨ht, hr⟩
      exact ihn (a := a.moved t) (fun next b h => hu next b (.caught (.ok hr) h)) ht
    · rintro why t ⟨ht, hr⟩
      exact ihn (a := a.moved t) (fun next b h => hu next b (.caught (.error hr) h)) ht

/-- Wherever a usage goes on the count is right, and the rest of it makes no reset inside of a section either. -/
theorem ComesTo.counts (h : u.ComesTo g fuel a u' b) (hu : u.ResetsOutside g fuel a) (ha : a.Counts) :
    b.Counts ∧ u'.ResetsOutside g fuel b := by
  induction h with
  | here => exact ⟨ha, hu⟩
  | parse hr h ih =>
    exact ih (fun next b h => hu next b (.parse hr h)) ((ha.along (g.parse_restored fuel _ _ _)).ok hr)
  | skip hr h ih =>
    exact ih (fun next b h => hu next b (.skip hr h)) ((ha.along (skip_restored g fuel _ _)).ok hr)
  | record h ih => exact ih (fun next b h => hu next b (.record h)) (ha.of_restored (.record _ _))
  | reset h ih => exact ih (fun next b h => hu next b (.reset h)) (.reset (hu _ _ .here))
  | inside h ih => exact ih (fun next b h => hu next b (.inside h)) (ha.enter _)
  | after hr h ih =>
    have inside := perform_counts (fun next b h => hu next b (.inside h)) (ha.enter _)
    exact ih (fun next b h => hu next b (.after hr h)) ((Point.counts_stays.around inside).ok hr)
  | tried h ih => exact ih (fun next b h => hu next b (.tried h)) ha
  | caught hr h ih =>
    have tried := perform_counts (fun next b h => hu next b (.tried h)) ha
    exact ih (fun next b h => hu next b (.caught hr h)) (tried.left hr)

/-- Wherever a usage passes the count is right. -/
theorem Passes.counts (h : u.Passes g fuel a b) (hu : u.ResetsOutside g fuel a) (ha : a.Counts) : b.Counts := by
  cases h with
  | «at» h => exact (h.counts hu ha).1
  | ended h ht =>
    obtain ⟨hb, hu'⟩ := h.counts hu ha
    exact (perform_counts hu' hb).left ht
  | running h hc => exact Grammar.passes_counts hc (h.counts hu ha).1
  | skipping h hc =>
    exact hc.stays Point.counts_stays (fun id v _ ha => ha.along (g.parse_restored fuel id v _))
      (fun id v a b => Grammar.passes_counts) (h.counts hu ha).1

theorem ComesTo.reset_of {next : Usage κ} (h : u.ComesTo g fuel a (.reset next) b) :
    u.ComesTo g fuel a next (b.moved { b.state with context := b.state.context.reset }) := by
  generalize hu' : Usage.reset next = u' at h
  induction h with
  | here =>
    subst hu'
    exact .reset .here
  | parse hr h ih => exact .parse hr (ih hu')
  | skip hr h ih => exact .skip hr (ih hu')
  | record h ih => exact .record (ih hu')
  | reset h ih => exact .reset (ih hu')
  | inside h ih => exact .inside (ih hu')
  | after hr h ih => exact .after hr (ih hu')
  | tried h ih => exact .tried (ih hu')
  | caught hr h ih => exact .caught hr (ih hu')

/-- **The count is right if and only if no reset is made inside of a section.** Wherever a usage of a new context passes
then, recording is suspended as deep as there are sections open, so no depth is below zero, and a failure is recorded if
none is open and is not if one is. -/
theorem suspended_counts_iff (g : Grammar κ) (fuel : Nat) (u : Usage κ) (d : Derivation κ) (policy : Option RuleId)
    (verbosity : Int) :
    let a : Point κ := ⟨⟨d, .fresh policy verbosity⟩, 0⟩
    (∀ b, u.Passes g fuel a b → b.state.context.suspended = b.sections ∧
      ∀ f, b.state.context.record f =
        if b.sections = 0 then
          { b.state.context with furthest := some (Context.deepest b.state.context.furthest f) }
        else b.state.context) ↔ u.ResetsOutside g fuel a := by
  intro a
  constructor
  · intro h next b hb
    have hreset : (0 : Int) = b.sections := (h _ (.at hb.reset_of)).1
    exact Int.natCast_eq_zero.mp hreset.symm
  · intro hu b hb
    have hcounts := hb.counts hu rfl
    exact ⟨hcounts, hcounts.record⟩

end Usage

/-- A reset inside of a section, and then a failure that is offered to the context outside of it. -/
def resetInside (f : Failure κ) : Usage κ := .section .quiet (.reset .done) (.record f .done)

/-- **A reset inside of a section mutes the context for good**: the failure is offered while no section is open, where
the depth is one below zero, and is not recorded. -/
theorem resetInside_mutes :
    let f : Failure FixedMatcher := ⟨.ofSource ⟨0, ['a']⟩, [.literal "b" true], []⟩
    let s : ParseState FixedMatcher := ⟨.fresh, .fresh none 0⟩
    ∃ t, (resetInside f).ComesTo .empty 0 ⟨s, 0⟩ (.record f .done) ⟨t, 0⟩ ∧ t.context.suspended = -1 ∧
      (t.context.record f).furthest = none := by
  intro f s
  exact ⟨{ s with context := { s.context with suspended := -1 } }, .after rfl .here, rfl, rfl⟩

end Descent
