import Descent.Grammar.Build
import Descent.Proofs.Derivation.Walk
import Descent.Proofs.Run.Law

/-!
# Faults and who is to blame for them

A fault may be one of the library's own, or one that the code of a user came up with: a matcher, a transform, or a
hand-written rule. Such code may meet any fault at all, so a law that some fault does not occur can only be about the
rest, and says: *if it occurs, then it is a user's* (`Grammar.Raises`).

The one looked for here is the fault of a remainder that is no tail of the source, which the library has for its
reports. Nothing else in it ends so: no matcher and no derivation, unless a user's code does.
-/

namespace Descent

variable {κ α β : Type}

/-- The fault of a remainder that is no tail of the source. -/
def Fault.IsForeign : Fault → Prop
  | .foreignBuffer _ _ => True
  | _ => False

/-- The matcher of a user that a matcher is made of, if there is one. -/
def Matcher.custom? : Matcher κ → Option κ
  | .optional inner => inner.custom?
  | .many inner => inner.custom?
  | .custom m => some m
  | _ => none

/-- A matcher of a user meets a fault, where one occurrence is sought or where a run is taken at once. -/
inductive CustomMatcher.Raises [CustomMatcher κ] (c : κ) (e : Fault) : Prop
  | run {v : View} (h : CustomMatcher.run c v = .error e)
  | runMany {take : View → Except Fault (Option Span)} {v : View} (htake : CustomMatcher.runMany? c = some take)
      (h : take v = .error e)

/-- The code of a user in a grammar meets a fault. -/
inductive Grammar.Raises [CustomMatcher κ] (g : Grammar κ) (e : Fault) : Prop
  | matcher {id : RuleId} {rule : Rule κ} {m : Matcher κ} {c : κ} (hr : g.rule? id = some rule)
      (hm : m ∈ rule.body.leaves) (hc : m.custom? = some c) (h : CustomMatcher.Raises c e)
  | transform {id : RuleId} {rule : Rule κ} {f : Transform κ} {x : Value κ} (hr : g.rule? id = some rule)
      (hf : rule.body.transform? = some f) (h : f x = .error e)
  | handWritten {id : RuleId} {rule : Rule κ} {answer : View → Except Fault (Answer κ)}
      {derivative : Option (Derivative κ)} {v : View} (hr : g.rule? id = some rule)
      (hb : rule.body = .handWritten answer derivative) (h : answer v = .error e)
  | derivative {id : RuleId} {rule : Rule κ} {answer : View → Except Fault (Answer κ)}
      {derivative : Derivative κ} {es : List (Expectation κ)} (hr : g.rule? id = some rule)
      (hb : rule.body = .handWritten answer (some derivative)) (h : derivative.conclude es = .error e)

/-! ## 1. Matchers -/

theorem View.split_error {v : View} {offset : Int} {e : Fault} (h : v.split offset = .error e) : ¬ e.IsForeign := by
  rw [View.split] at h
  split at h <;> cases h
  exact id

theorem View.advanceTo_error {v : View} {offset : Int} {e : Fault} (h : v.advanceTo offset = .error e) :
    ¬ e.IsForeign := by
  rcases except_bind_eq_error.mp h with hs | ⟨halves, -, hr⟩
  · exact View.split_error hs
  · cases hr

theorem Program.width?_error {p : Program} {text : List Char} {e : Fault} (h : p.width? text = .error e) :
    ¬ e.IsForeign := by
  rw [Program.width?] at h
  split at h
  · cases h
  · split at h
    · cases h
    · split at h <;> cases h
      exact id

section Matcher

variable [CustomMatcher κ] {e : Fault}

/-- A run that is taken occurrence by occurrence meets such a fault only where an occurrence does. -/
theorem Matcher.extendRun_error {step : View → Except Fault (Option Span)} {v : View} {fuel : Nat} {stop : Option Int}
    {rest : View} (h : Matcher.extendRun step v fuel stop rest = .error e) (he : e.IsForeign) :
    ∃ w, step w = .error e := by
  induction fuel generalizing stop rest with
  | zero =>
    cases h
    exact he.elim
  | succ fuel ih =>
    rcases except_bind_eq_error.mp h with hs | ⟨span, -, h⟩
    · exact ⟨rest, hs⟩
    · cases span with
      | none => cases h
      | some span =>
        dsimp only at h
        split at h
        · cases h
        · rcases except_bind_eq_error.mp h with ha | ⟨w, -, h⟩
          · exact absurd he (View.advanceTo_error ha)
          · exact ih h

theorem Matcher.run_error {m : Matcher κ} {v : View} (h : m.run v = .error e) (he : e.IsForeign) :
    ∃ c, m.custom? = some c ∧ CustomMatcher.Raises c e := by
  induction m generalizing v with
  | literal text caseSensitive => cases caseSensitive <;> cases h
  | regex r =>
    rcases except_bind_eq_error.mp h with hw | ⟨width, -, hr⟩
    · exact absurd he (Program.width?_error hw)
    · cases hr
  | charClass k => cases h
  | endOfInput => cases h
  | custom c => exact ⟨c, rfl, .run h⟩
  | optional inner ih =>
    rcases except_bind_eq_error.mp h with hi | ⟨span, -, hr⟩
    · exact ih hi
    · cases span <;> cases hr
  | many inner ih =>
    have repeated (h : Matcher.repeatedRun inner.run v = .error e) :
        ∃ c, inner.custom? = some c ∧ CustomMatcher.Raises c e := by
      rcases except_bind_eq_error.mp h with hx | ⟨stop, -, hr⟩
      · obtain ⟨w, hw⟩ := Matcher.extendRun_error hx he
        exact ih hw
      · cases hr
    cases inner with
    | charClass k => cases h
    | optional inner => exact ih h
    | many inner => exact ih h
    | custom c =>
      rw [Matcher.run] at h
      cases htake : CustomMatcher.runMany? c with
      | none => exact repeated (by rwa [htake] at h)
      | some take => exact ⟨c, rfl, .runMany htake (by rwa [htake] at h)⟩
    | _ => exact repeated h

theorem Matcher.split_error {m : Matcher κ} {v : View} (h : m.split v = .error e) (he : e.IsForeign) :
    ∃ c, m.custom? = some c ∧ CustomMatcher.Raises c e := by
  rcases except_bind_eq_error.mp h with hr | ⟨span, -, h⟩
  · exact Matcher.run_error hr he
  · cases span with
    | none => cases h
    | some span =>
      by_cases hs : span.start = v.start
      · simp only [hs, ne_eq, not_true_eq_false, if_false] at h
        rcases except_bind_eq_error.mp h with hc | ⟨halves, -, h⟩
        · exact absurd he (View.split_error hc)
        · cases h
      · simp only [ne_eq, hs, not_false_eq_true, if_true] at h
        cases h
        exact he.elim

/-- What stops a body by itself is a user's, if it is such a fault. -/
theorem Body.Stops.raises {g : Grammar κ} {id : RuleId} {rule : Rule κ} {why : Stop} (hr : g.rule? id = some rule)
    (h : rule.body.Stops why) (hwhy : why = .fault e) (he : e.IsForeign) : g.Raises e := by
  cases h with
  | split hm h =>
    cases hwhy
    obtain ⟨c, hc, hraises⟩ := Matcher.split_error h he
    exact .matcher hr hm hc hraises
  | transform hf h =>
    cases hwhy
    exact .transform hr hf h
  | handWritten hb h =>
    cases hwhy
    exact .handWritten hr hb h
  | move h =>
    cases hwhy
    exact absurd he (View.advanceTo_error h)
  | unresolved =>
    cases hwhy
    exact he.elim
  | unfinished => cases hwhy

end Matcher

/-! ## 2. Derivations -/

section Derivation

variable [DecidableEq κ] [CustomMatcher κ] {g : Grammar κ}

/-- A derivation meets such a fault only where a user's code does. -/
theorem Grammar.expectationWithin_error (fuel : Nat) (id : RuleId) (d : Derivation κ) :
    Ensures (g.expectationWithin fuel id) d (fun _ _ => True) fun e _ => e.IsForeign → g.Raises e := by
  induction fuel generalizing id d with
  | zero => exact fun h => h.elim
  | succ fuel ih =>
    apply Grammar.expectationWithin_ensures
    case absent => exact fun _ h => h.elim
    case target => exact fun _ target _ => ih target d
    case walk =>
      intro rule walk hr hwalk _ _
      refine (Body.derived?_ensures (R := fun _ _ _ _ => True) (P := fun _ => True) hwalk ?_ ?_ trivial).imp_ok
        fun _ _ _ => trivial
      · exact fun id _ d _ => (ih id d).imp_ok fun _ _ _ => ⟨trivial, trivial⟩
      · intro answer derivative hb d _
        exact ⟨fun _ h => h.elim, fun es e he _ => .derivative hr hb he⟩
    all_goals intros; trivial

end Derivation

/-! ## 3. Building -/

namespace Build

/-- Building that does not end in such a fault. -/
def Sound (x : Build κ α) : Prop := ∀ g, Ensures x g (fun _ _ => True) fun e _ => ¬ e.IsForeign

namespace Sound

theorem pure (a : α) : Sound (Pure.pure a : Build κ α) := fun _ => trivial

theorem throw {e : Fault} (h : ¬ e.IsForeign) : Sound (MonadExcept.throw e : Build κ α) := fun _ => h

theorem bind {x : Build κ α} {f : α → Build κ β} (hx : Sound x) (hf : ∀ a, Sound (f a)) : Sound (x >>= f) := by
  intro g
  rw [ensures_bind]
  exact (hx g).imp_ok fun a g _ => hf a g

theorem mapM {f : α → Build κ β} {l : List α} (h : ∀ a ∈ l, Sound (f a)) : Sound (l.mapM f) := by
  intro g
  exact ensures_mapM (I := fun _ => True) (fun a ha g _ => h a ha g) trivial

theorem get : Sound (MonadState.get : Build κ (Grammar κ)) := fun _ => trivial

theorem add (label : Option String) (body : Body κ) : Sound (Build.add label body) := fun _ => trivial

theorem labelOf (id : RuleId) : Sound (Build.labelOf id : Build κ (Option String)) := fun _ => trivial

theorem map (inner : RuleId) (transform : Transform κ) : Sound (Build.map inner transform) :=
  .bind (labelOf inner) fun _ => .add _ _

variable [CustomMatcher κ]

theorem kindOf (o : Operand κ) : Sound (Build.kindOf o) := by
  cases o with
  | rule id =>
    refine .bind .get fun g => ?_
    split <;> exact .pure _
  | _ => exact .pure _

theorem asMatcher (o : Operand κ) : Sound (Build.asMatcher o) := by
  cases o with
  | matcher m => exact .pure m
  | text text => exact .pure _
  | _ => exact .bind (kindOf _) fun _ => .throw id

theorem token (o : Operand κ) (transform : Option (Transform κ)) : Sound (Build.token o transform) :=
  .bind (asMatcher o) fun _ => .add _ _

theorem asRule (o : Operand κ) : Sound (Build.asRule o) := by
  cases o with
  | rule id => exact .pure id
  | _ => exact token _ none

theorem sequence (os : List (Operand κ)) : Sound (Build.sequence os) := by
  rw [Build.sequence]
  split
  · exact .bind (.throw id) fun _ => .bind (.mapM fun o _ => asRule o) fun _ => .add _ _
  · exact .bind (.mapM fun o _ => asRule o) fun _ => .add _ _

theorem skipping (o : Operand κ) : Sound (Build.skipping o) :=
  .bind (asRule o) fun inner => .bind (labelOf inner) fun _ => .add _ _

theorem policy (o : Operand κ) : Sound (Build.policy o) := by
  cases o with
  | absent => exact .pure _
  | rule id => exact .pure _
  | matcher m => cases m <;> exact .bind (token _ _) fun _ => .pure _
  | _ => exact .bind (token _ _) fun _ => .pure _

end Sound

end Build

end Descent
