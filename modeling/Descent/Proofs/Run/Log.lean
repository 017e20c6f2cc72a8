import Descent.Proofs.Run.Plan

/-!
# The log of a run

What a run reports is one record, merged from failures that came up all over it. To say what that record is, one has
to say which failures there were, and a run does not keep them. `Grammar.logged` is the run that does: it executes
the same plans on the same state, and beside the state it writes down every call of a rule when the call ends, with
the context as the call left it. **`forget_logged` says that the log is only written, never read**: without it, the
run is `Grammar.parse`.

Each entry stands for one call of a rule proper. A placeholder is its target and no rule of its own, so the call of
its target is the one that is written down.
-/

namespace Descent

/-! ## 1. Runs with a log -/

/-- A call of a rule that has ended. -/
structure Call (κ : Type) where
  rule : RuleId
  view : View
  outcome : Except Stop (Result κ)
  /-- the context as the call left it -/
  context : Context κ

/-- A part of a run that keeps a log beside the state. -/
abbrev Logged (κ : Type) := EStateM Stop (ParseState κ × List (Call κ))

variable {κ α β : Type}

/-- The failure that a call offered to the context, if it offered one: the call failed while failures were
recorded. -/
def Call.failure? (c : Call κ) : Option (Failure κ) :=
  match c.outcome with
  | .ok (.failed f) => if c.context.suspended = 0 then some f else none
  | _ => none

theorem Call.failure?_eq_some_iff {c : Call κ} {f : Failure κ} :
    c.failure? = some f ↔ c.outcome = .ok (.failed f) ∧ c.context.suspended = 0 := by
  rw [Call.failure?]
  split
  next f' h => simp [h, and_comm]
  next h =>
    constructor
    · intro e
      cases e
    · rintro ⟨e, -⟩
      exact absurd e (h f)

/-- The failures that calls returned while failures were recorded, in the order in which they were returned. -/
def failures (log : List (Call κ)) : List (Failure κ) := log.filterMap Call.failure?

@[simp] theorem failures_append (log log' : List (Call κ)) : failures (log ++ log') = failures log ++ failures log' :=
  List.filterMap_append

namespace Logged

def lift (x : Parse κ α) : Logged κ α := fun (s, log) =>
  match x s with
  | .ok a t => .ok a (t, log)
  | .error e t => .error e (t, log)

/-- `Parse.bracketed`, with a log. -/
def bracketed (enter : Context κ → Context κ) (leave : Context κ → Context κ → Context κ)
    (x : Logged κ α) : Logged κ α := fun (s, log) =>
  match x ({ s with context := enter s.context }, log) with
  | .ok a (t, log) => .ok a ({ t with context := leave s.context t.context }, log)
  | .error e (t, log) => .error e ({ t with context := leave s.context t.context }, log)

/-- Writes down a call when it ends. -/
def noted (id : RuleId) (v : View) (x : Logged κ (Result κ)) : Logged κ (Result κ) := fun st =>
  match x st with
  | .ok r (t, log) => .ok r (t, log ++ [⟨id, v, .ok r, t.context⟩])
  | .error e (t, log) => .error e (t, log ++ [⟨id, v, .error e, t.context⟩])

/-- The outcome without the log. -/
def forget : EStateM.Result Stop (ParseState κ × List (Call κ)) α → EStateM.Result Stop (ParseState κ) α
  | .ok a st => .ok a st.1
  | .error e st => .error e st.1

/-- What is left when a computation has ended, in whichever way. -/
def left : EStateM.Result Stop (ParseState κ × List (Call κ)) α → ParseState κ × List (Call κ)
  | .ok _ st => st
  | .error _ st => st

end Logged

theorem Logged.left_of_forget {x : EStateM.Result Stop (ParseState κ × List (Call κ)) α} {a : α} {t : ParseState κ}
    (h : forget x = .ok a t) : (left x).1 = t := by
  cases x with
  | ok b st =>
    cases h
    rfl
  | error why st => cases h

section Ensures

variable {st : ParseState κ × List (Call κ)} {Q : α → ParseState κ × List (Call κ) → Prop}
  {E : Stop → ParseState κ × List (Call κ) → Prop}

/-- What holds however a computation ends holds of what it leaves. -/
theorem Logged.left_of_ensures {x : Logged κ α} {P : ParseState κ × List (Call κ) → Prop}
    (h : Ensures x st (fun _ => P) fun _ => P) : P (left (x st)) := by
  unfold Ensures at h
  cases hx : x st with
  | ok a t => rw [hx] at h; exact h
  | error why t => rw [hx] at h; exact h

theorem Logged.ensures_lift {x : Parse κ α} :
    Ensures (Logged.lift x) st Q E ↔ Ensures x st.1 (fun a t => Q a (t, st.2)) (fun e t => E e (t, st.2)) := by
  obtain ⟨s, log⟩ := st
  unfold Ensures Logged.lift
  dsimp only
  cases x s <;> rfl

theorem Logged.ensures_bracketed {enter : Context κ → Context κ} {leave : Context κ → Context κ → Context κ}
    {x : Logged κ α} :
    Ensures (Logged.bracketed enter leave x) st Q E ↔
      Ensures x ({ st.1 with context := enter st.1.context }, st.2)
        (fun a t => Q a ({ t.1 with context := leave st.1.context t.1.context }, t.2))
        (fun e t => E e ({ t.1 with context := leave st.1.context t.1.context }, t.2)) := by
  obtain ⟨s, log⟩ := st
  unfold Ensures Logged.bracketed
  dsimp only
  cases x ({ s with context := enter s.context }, log) <;> rfl

theorem Logged.ensures_noted {id : RuleId} {v : View} {x : Logged κ (Result κ)}
    {Q : Result κ → ParseState κ × List (Call κ) → Prop} :
    Ensures (Logged.noted id v x) st Q E ↔
      Ensures x st (fun r t => Q r (t.1, t.2 ++ [⟨id, v, .ok r, t.1.context⟩]))
        (fun e t => E e (t.1, t.2 ++ [⟨id, v, .error e, t.1.context⟩])) := by
  unfold Ensures Logged.noted
  cases x st <;> rfl

end Ensures

/-- A part of a run with a log that is a given part of a run without. -/
def Logged.Erases (x : Logged κ α) (y : Parse κ α) : Prop := ∀ s log, forget (x (s, log)) = y s

namespace Logged.Erases

theorem pure (a : α) : Erases (Pure.pure a : Logged κ α) (Pure.pure a) := fun _ _ => rfl

theorem lift (x : Parse κ α) : Erases (Logged.lift x) x := by
  intro s log
  rw [Logged.lift]
  cases x s <;> rfl

theorem bind {x : Logged κ α} {y : Parse κ α} {f : α → Logged κ β} {h : α → Parse κ β}
    (hx : Erases x y) (hf : ∀ a, Erases (f a) (h a)) : Erases (x >>= f) (y >>= h) := by
  intro s log
  show forget (EStateM.bind x f (s, log)) = EStateM.bind y h s
  unfold EStateM.bind
  rw [← hx s log]
  cases x (s, log) with
  | ok a st => exact hf a st.1 st.2
  | error e st => rfl

theorem bracketed {x : Logged κ α} {y : Parse κ α} {enter : Context κ → Context κ}
    {leave : Context κ → Context κ → Context κ} (hx : Erases x y) :
    Erases (Logged.bracketed enter leave x) (Parse.bracketed enter leave y) := by
  intro s log
  simp only [Logged.bracketed, Parse.bracketed, ← hx _ log]
  cases x ({ s with context := enter s.context }, log) <;> rfl

theorem noted {x : Logged κ (Result κ)} {y : Parse κ (Result κ)} {id : RuleId} {v : View} (hx : Erases x y) :
    Erases (Logged.noted id v x) y := by
  intro s log
  rw [← hx s log, Logged.noted]
  cases x (s, log) <;> rfl

end Logged.Erases

section Logged

variable [DecidableEq κ]

/-- Answers the questions of a plan as a run with a log does. -/
def Plan.execLogged (g : Grammar κ) (run : RuleId → View → Logged κ (Result κ)) : Plan κ α → Logged κ α
  | .done a => pure a
  | .stop why => throw why
  | .policy next => do execLogged g run (next (← get).1.context.whitespace)
  | .expect id next => do execLogged g run (next (← Logged.lift (Parse.ofDerive (g.expectation id))))
  | .call scope id v next => do
    execLogged g run (next (← Logged.bracketed scope.enter scope.leave (run id v)))

theorem Plan.ensures_execLogged_policy {g : Grammar κ} {run : RuleId → View → Logged κ (Result κ)}
    {next : Option RuleId → Plan κ α} {st : ParseState κ × List (Call κ)}
    {Q : α → ParseState κ × List (Call κ) → Prop} {E : Stop → ParseState κ × List (Call κ) → Prop} :
    Ensures ((Plan.policy next).execLogged g run) st Q E ↔
      Ensures ((next st.1.context.whitespace).execLogged g run) st Q E :=
  Iff.rfl

theorem Plan.execLogged_bind {g : Grammar κ} {run : RuleId → View → Logged κ (Result κ)} (p : Plan κ α)
    (f : α → Plan κ β) :
    (p.bind f).execLogged g run = p.execLogged g run >>= fun a => (f a).execLogged g run := by
  induction p with
  | done a => simp [bind, execLogged]
  | stop why => rfl
  | policy next ih => simp [bind, execLogged, ih]
  | expect id next ih => simp [bind, execLogged, ih]
  | call scope id v next ih => simp [bind, execLogged, ih]

/-- Runs a rule against a window and keeps a log of the calls. -/
def Grammar.logged [CustomMatcher κ] (g : Grammar κ) : Nat → RuleId → View → Logged κ (Result κ)
  | 0, _, _ => throw .unfinished
  | fuel + 1, id, v =>
    let follow := (g.plan id v).execLogged g (g.logged fuel)
    if g.isPlaceholder id then follow
    else .noted id v do
      let r ← follow
      Logged.lift (Parse.offer r)
      return r

/-! ## 2. The log is only written -/

theorem Plan.execLogged_erases {g : Grammar κ} {lrun : RuleId → View → Logged κ (Result κ)} {run : Runner κ}
    (h : ∀ id v, (lrun id v).Erases (run id v)) (p : Plan κ α) : (p.execLogged g lrun).Erases (p.exec g run) := by
  induction p with
  | done a => exact .pure a
  | stop why => exact fun _ _ => rfl
  | policy next ih => exact fun s log => ih s.context.whitespace s log
  | expect id next ih => exact .bind (.lift _) ih
  | call scope id v next ih =>
    unfold Plan.execLogged Plan.exec
    rw [Scope.around_eq]
    exact .bind (.bracketed (h id v)) ih

theorem Grammar.logged_erases [CustomMatcher κ] (g : Grammar κ) (fuel : Nat) (id : RuleId) (v : View) :
    (g.logged fuel id v).Erases (g.parse fuel id v) := by
  induction fuel generalizing id v with
  | zero => exact fun _ _ => rfl
  | succ fuel ih =>
    have follow := Plan.execLogged_erases ih (g := g) (g.plan id v)
    rw [Grammar.parse, Grammar.step_eq, Grammar.logged]
    cases g.isPlaceholder id with
    | true =>
      simp only [if_true, bind_pure]
      exact follow
    | false => exact .noted (.bind follow fun r => .bind (.lift _) fun _ => .pure r)

/-- **Without its log, a run with a log is a run.** -/
theorem Grammar.forget_logged [CustomMatcher κ] (g : Grammar κ) (fuel : Nat) (id : RuleId) (v : View)
    (s : ParseState κ) (log : List (Call κ)) :
    Logged.forget (g.logged fuel id v (s, log)) = g.parse fuel id v s :=
  g.logged_erases fuel id v s log

end Logged

end Descent
