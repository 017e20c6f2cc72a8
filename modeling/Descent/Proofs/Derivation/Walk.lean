import Descent.Grammar.Derivation
import Descent.Proofs.Body
import Descent.Proofs.Ensures

/-!
# The walk of a derivation

A derivation goes through a grammar rule by rule, and what it does at one rule has two sides. One is the bookkeeping:
what is kept, what is marked, when a cut is noted. The other is how the expectation of a body is put together from
those of the rules that it reads. Here both are stated once, for any account `R` of what reading a rule comes to:
`Body.Derives` for the bodies, `expectationWithin_ensures` for the bookkeeping. Whether a derivation ends, whether it
is right and what faults it meets are then three accounts, and none of them opens the definitions again.
-/

namespace Descent

variable {κ : Type}

/-! ## 1. What bodies read -/

/-- The rules whose expectations a derivation of the body reads. -/
def Body.reads (g : Grammar κ) : Body κ → List RuleId
  | .within inner (some policy) => [policy, inner]
  | .handWritten _ (some derivative) => derivative.reads.filterMap g.namedRule?
  | b => b.entries

/-- One rule's expectation is read for that of another. -/
def Grammar.Consults (g : Grammar κ) (p q : RuleId) : Prop := ∃ rule, g.rule? p = some rule ∧ q ∈ rule.body.reads g

/-- The rule whose expectation is that of the body, as it is. -/
def Body.passes? : Body κ → Option RuleId
  | .sequence (first :: _) => some first
  | .optional inner _ => some inner
  | .repeated first _ _ => some first
  | .map inner _ => some inner
  | .skippingAfter inner => some inner
  | _ => none

/-- The expectation of a body that reads none. -/
def Body.own? : Body κ → Option (Expectation κ)
  | .token m _ => some (.ofMatcher m)
  | .capture m => some (.ofMatcher m)
  | .oneOf ms => some ⟨ms, [], false⟩
  | .sequence [] => some .empty
  | _ => none

theorem Body.reads_of_own {b : Body κ} {e : Expectation κ} (h : b.own? = some e) (g : Grammar κ) : b.reads g = [] := by
  cases b with
  | sequence parts =>
    cases parts with
    | nil => rfl
    | cons first parts => cases h
  | token m f => rfl
  | capture m => rfl
  | oneOf ms => rfl
  | _ => cases h

theorem Body.reads_of_passes {b : Body κ} {id : RuleId} (h : b.passes? = some id) (g : Grammar κ) :
    b.reads g = [id] := by
  cases b with
  | sequence parts =>
    cases parts with
    | nil => cases h
    | cons first parts => cases h; rfl
  | optional inner default => cases h; rfl
  | repeated first minimum attempt => cases h; rfl
  | map inner f => cases h; rfl
  | skippingAfter inner => cases h; rfl
  | _ => cases h

/-- A body of the library reads the same rules in every grammar. -/
theorem Body.reads_congr {b : Body κ} (hb : b.IsLibrary) (g g' : Grammar κ) : b.reads g = b.reads g' := by
  cases b with
  | within inner policy => cases policy <;> rfl
  | handWritten answer derivative => exact hb.elim
  | _ => rfl

section Derives

variable [DecidableEq κ]

/-- The walk over a body that hands on the expectation of a rule is to read that one. -/
theorem Body.derived?_of_passes {b : Body κ} {first : RuleId} (h : b.passes? = some first) (g : Grammar κ)
    (read : RuleId → Derive κ (Expectation κ)) : b.derived? g read = some (read first) := by
  cases b with
  | sequence parts =>
    cases parts with
    | nil => cases h
    | cons part parts => cases h; rfl
  | optional inner default => cases h; rfl
  | repeated inner minimum attempt => cases h; rfl
  | map inner transform => cases h; rfl
  | skippingAfter inner => cases h; rfl
  | _ => cases h

/-- A body that is walked over is no placeholder. -/
theorem Grammar.Proper.of_derived {g : Grammar κ} {id : RuleId} {rule : Rule κ}
    {read : RuleId → Derive κ (Expectation κ)} {walk : Derive κ (Expectation κ)} (hr : g.rule? id = some rule)
    (h : rule.body.derived? g read = some walk) : g.Proper id rule := by
  refine ⟨hr, fun target hb => ?_⟩
  rw [hb] at h
  cases h

/-- An account of reading the expectation of a rule: the bookkeeping before, the answer, and the bookkeeping after. -/
abbrev Account (κ : Type) := RuleId → Derivation κ → Expectation κ → Derivation κ → Prop

/-- The expectations of some rules are read in order and added to one that is there already. -/
inductive Account.Adds (R : Account κ) :
    List RuleId → Expectation κ → Derivation κ → Expectation κ → Derivation κ → Prop
  | nil {e : Expectation κ} {d : Derivation κ} : Adds R [] e d e d
  | cons {id : RuleId} {ids : List RuleId} {e e₁ e' : Expectation κ} {d d₁ d' : Derivation κ}
      (head : R id d e₁ d₁) (tail : Adds R ids (e.union e₁) d₁ e' d') : Adds R (id :: ids) e d e' d'

/-- How the expectation of a body is put together from those of the rules that it reads. -/
inductive Body.Derives (R : Account κ) : Body κ → Derivation κ → Expectation κ → Derivation κ → Prop
  | own {b : Body κ} {e : Expectation κ} {d : Derivation κ} (hb : b.own? = some e) : Derives R b d e d
  | passed {b : Body κ} {id : RuleId} {e : Expectation κ} {d d' : Derivation κ} (hb : b.passes? = some id)
      (h : R id d e d') : Derives R b d e d'
  | either {branches : List RuleId} {e : Expectation κ} {d d' : Derivation κ}
      (h : R.Adds branches .empty d e d') : Derives R (.either branches) d e d'
  | skipping {inner : RuleId} {e : Expectation κ} {d d' : Derivation κ} (h : R inner d e d') :
    Derives R (.skipping inner) d e.withAmbient d'
  | without {inner : RuleId} {e : Expectation κ} {d d' : Derivation κ} (h : R inner d e d') :
    Derives R (.within inner none) d (e.withWhitespace []) d'
  | under {inner policy : RuleId} {e e₁ : Expectation κ} {d d₁ d' : Derivation κ} (hp : R policy d e₁ d₁)
      (h : R inner d₁ e d') : Derives R (.within inner (some policy)) d (e.withWhitespace e₁.prefixes) d'
  | handWritten {answer : View → Except Fault (Answer κ)} {derivative : Derivative κ} {e : Expectation κ}
      {d d' : Derivation κ} : Derives R (.handWritten answer (some derivative)) d e d'

theorem Account.Adds.mono {R R' : Account κ} (hR : ∀ q d e d', R q d e d' → R' q d e d') {ids : List RuleId}
    {e e' : Expectation κ} {d d' : Derivation κ} (h : R.Adds ids e d e' d') : R'.Adds ids e d e' d' := by
  induction h with
  | nil => exact .nil
  | cons head _ ih => exact .cons (hR _ _ _ _ head) ih

theorem Body.Derives.mono {R R' : Account κ} {b : Body κ} {e : Expectation κ} {d d' : Derivation κ}
    (h : b.Derives R d e d') (hR : ∀ q d e d', R q d e d' → R' q d e d') : b.Derives R' d e d' := by
  cases h with
  | own hb => exact .own hb
  | passed hb h => exact .passed hb (hR _ _ _ _ h)
  | either h => exact .either (h.mono hR)
  | skipping h => exact .skipping (hR _ _ _ _ h)
  | without h => exact .without (hR _ _ _ _ h)
  | under hp h => exact .under (hR _ _ _ _ hp) (hR _ _ _ _ h)
  | handWritten => exact .handWritten

variable {g : Grammar κ} {read : RuleId → Derive κ (Expectation κ)} {R : Account κ} {P : Derivation κ → Prop}
  {E : Fault → Derivation κ → Prop}

theorem foldlM_adds {branches : List RuleId} {e : Expectation κ} {d : Derivation κ}
    (hread : ∀ id ∈ branches, ∀ d, P d → Ensures (read id) d (fun e d' => R id d e d' ∧ P d') E) (hd : P d) :
    Ensures (branches.foldlM (fun e branch => do return e.union (← read branch)) e) d
      (fun e' d' => R.Adds branches e d e' d' ∧ P d') E := by
  induction branches generalizing e d with
  | nil => exact ⟨.nil, hd⟩
  | cons branch branches ih =>
    rw [List.foldlM_cons, ensures_bind, ensures_bind]
    refine (hread branch List.mem_cons_self d hd).imp_ok ?_
    rintro e₁ d₁ ⟨head, hd₁⟩
    refine (ih (fun id hid => hread id (List.mem_cons_of_mem _ hid)) hd₁).imp_ok ?_
    rintro e' d' ⟨tail, hd'⟩
    exact ⟨.cons head tail, hd'⟩

/-- The walk over a body puts its expectation together, if reading a rule comes to what the account says, and meets
no fault but those of reading and of a hand-written derivative. -/
theorem Body.derived?_ensures {b : Body κ} {walk : Derive κ (Expectation κ)} {d : Derivation κ}
    (hwalk : b.derived? g read = some walk)
    (hread : ∀ id ∈ b.reads g, ∀ d, P d → Ensures (read id) d (fun e d' => R id d e d' ∧ P d') E)
    (hhand : ∀ answer derivative, b = .handWritten answer (some derivative) → ∀ d, P d →
      (∀ name, E (.unknownName name) d) ∧ ∀ es e, derivative.conclude es = .error e → E e d)
    (hd : P d) : Ensures walk d (fun e d' => b.Derives R d e d' ∧ P d') E := by
  have passed {id : RuleId} (hb : b.passes? = some id) (hid : id ∈ b.reads g) :
      Ensures (read id) d (fun e d' => b.Derives R d e d' ∧ P d') E :=
    (hread id hid d hd).imp_ok fun e d' h => ⟨.passed hb h.1, h.2⟩
  cases b with
  | token m f => cases hwalk; exact ⟨.own rfl, hd⟩
  | capture m => cases hwalk; exact ⟨.own rfl, hd⟩
  | oneOf ms => cases hwalk; exact ⟨.own rfl, hd⟩
  | sequence parts =>
    cases parts with
    | nil => cases hwalk; exact ⟨.own rfl, hd⟩
    | cons first parts => cases hwalk; exact passed rfl List.mem_cons_self
  | optional inner default => cases hwalk; exact passed rfl List.mem_cons_self
  | repeated first minimum attempt => cases hwalk; exact passed rfl List.mem_cons_self
  | map inner f => cases hwalk; exact passed rfl List.mem_cons_self
  | skippingAfter inner => cases hwalk; exact passed rfl List.mem_cons_self
  | either branches =>
    cases hwalk
    exact (foldlM_adds hread hd).imp_ok fun e d' h => ⟨.either h.1, h.2⟩
  | skipping inner =>
    cases hwalk
    rw [ensures_bind]
    exact (hread inner List.mem_cons_self d hd).imp_ok fun e d' h => ⟨.skipping h.1, h.2⟩
  | within inner policy =>
    cases hwalk
    cases policy with
    | none =>
      show Ensures (read inner >>= _) d _ _
      rw [ensures_bind]
      exact (hread inner List.mem_cons_self d hd).imp_ok fun e d' h => ⟨.without h.1, h.2⟩
    | some policy =>
      refine ensures_bind.mpr ((hread policy List.mem_cons_self d hd).imp_ok ?_)
      rintro e₁ d₁ ⟨hp, hd₁⟩
      show Ensures (read inner >>= _) d₁ _ _
      rw [ensures_bind]
      refine (hread inner (List.mem_cons_of_mem _ List.mem_cons_self) d₁ hd₁).imp_ok ?_
      rintro e d' ⟨h, hd'⟩
      exact ⟨.under hp h, hd'⟩
  | placeholder target => cases hwalk
  | handWritten answer derivative =>
    cases derivative with
    | none => cases hwalk
    | some derivative =>
      cases hwalk
      rw [ensures_bind]
      refine (ensures_mapM (fun name hname d hd => ?_) hd).imp_ok fun es d hd => ?_
      · cases hid : g.namedRule? name with
        | none => exact (hhand answer derivative rfl d hd).1 name
        | some id =>
          exact (hread id (List.mem_filterMap.mpr ⟨name, hname, hid⟩) d hd).imp_ok fun _ _ h => h.2
      · cases he : derivative.conclude es with
        | ok e => exact ⟨.handWritten, hd⟩
        | error e => exact (hhand answer derivative rfl d hd).2 es e he

end Derives

/-! ## 2. The bookkeeping around a walk -/

section Bookkeeping

variable {g : Grammar κ} {id : RuleId} {d : Derivation κ} {Q : Expectation κ → Derivation κ → Prop}
  {E : Fault → Derivation κ → Prop}

/-- The bookkeeping after the walk of a rule: it is left, and the answer is kept if it is complete. -/
def Derivation.conclude (outer inner : Derivation κ) (id : RuleId) (e : Expectation κ) : Derivation κ :=
  if outer.depth = 0 || !inner.cycleMet then (inner.leave outer id).keep id e else inner.leave outer id

namespace Derivation

variable {outer inner : Derivation κ} {e : Expectation κ}

theorem marked_conclude : (outer.conclude inner id e).marked = inner.marked.erase id := by
  rw [conclude]
  split <;> rfl

theorem depth_conclude : (outer.conclude inner id e).depth = inner.depth - 1 := by
  rw [conclude]
  split <;> rfl

theorem cycleMet_conclude : (outer.conclude inner id e).cycleMet =
    if outer.depth = 0 then false else outer.cycleMet || inner.cycleMet := by
  rw [conclude]
  split <;> rfl

end Derivation

theorem ensures_deriveMarked {walk : Derive κ (Expectation κ)} :
    Ensures (Grammar.deriveMarked id walk) d Q E ↔ Ensures walk (d.enter id)
      (fun e inner => Q e (d.conclude inner id e)) (fun fault inner => E fault (inner.leave d id)) := by
  unfold Ensures Grammar.deriveMarked
  cases walk (d.enter id) <;> rfl

variable [DecidableEq κ]

/-- Reading the expectation of a rule, one case for each thing that may be done. -/
theorem Grammar.expectationWithin_ensures {fuel : Nat}
    (absent : g.rule? id = none → E (.unresolved none) d)
    (unresolved : ∀ label, g.rule? id = some ⟨label, .placeholder none⟩ → Q .empty { d with cycleMet := true })
    (target : ∀ label target, g.rule? id = some ⟨label, .placeholder (some target)⟩ →
      Ensures (g.expectationWithin fuel target) d Q E)
    (known : ∀ rule e, g.rule? id = some rule → (∀ target, rule.body ≠ .placeholder target) →
      d.known? id = some e → Q e d)
    (mute : ∀ rule, g.rule? id = some rule → (∀ target, rule.body ≠ .placeholder target) →
      rule.body.derived? g (g.expectationWithin fuel) = none → d.known? id = none → Q .empty (d.keep id .empty))
    (cut : ∀ rule, g.rule? id = some rule → (∀ target, rule.body ≠ .placeholder target) → d.known? id = none →
      id ∈ d.marked → Q .empty { d with cycleMet := true })
    (walk : ∀ rule walk, g.rule? id = some rule → rule.body.derived? g (g.expectationWithin fuel) = some walk →
      d.known? id = none → id ∉ d.marked → Ensures walk (d.enter id) (fun e inner => Q e (d.conclude inner id e))
        fun fault inner => E fault (inner.leave d id)) :
    Ensures (g.expectationWithin (fuel + 1) id) d Q E := by
  rw [Grammar.expectationWithin]
  split
  next hr => exact absent hr
  next label hr => exact unresolved label hr
  next label t hr => exact target label t hr
  next rule hnone hsome hr =>
    have proper := Rule.body_ne_placeholder hnone hsome
    rw [ensures_bind, ensures_get]
    cases hknown : d.known? id with
    | some e => exact known rule e hr proper hknown
    | none =>
      cases hwalk : rule.body.derived? g (g.expectationWithin fuel) with
      | none => exact mute rule hr proper hwalk hknown
      | some w =>
        by_cases hm : id ∈ d.marked
        · simp only [hm, if_true]
          exact cut rule hr proper hknown hm
        · simp only [hm, if_false]
          exact ensures_deriveMarked.mpr (walk rule w hr hwalk hknown hm)

end Bookkeeping

end Descent
