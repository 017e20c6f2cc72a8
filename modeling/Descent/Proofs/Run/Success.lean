import Descent.Proofs.Ensures
import Descent.Grammar.Parse

/-!
# How rules succeed

A rule that succeeds adds nothing to what its body did: no failure was stamped, and nothing was offered to the record.
So a success of a rule can be taken apart into the successes that it is made of, **with the states between them**, and
put together from these again. The lemmas here do this, one for each kind of body, as equivalences.
-/

namespace Descent

variable {κ α β ε σ : Type}

theorem bind_eq_ok {x : EStateM ε σ α} {f : α → EStateM ε σ β} {s t : σ} {b : β} :
    (x >>= f) s = .ok b t ↔ ∃ a s', x s = .ok a s' ∧ f a s' = .ok b t := by
  show EStateM.bind x f s = .ok b t ↔ _
  unfold EStateM.bind
  cases x s with
  | ok a s' =>
    constructor
    · intro h
      exact ⟨a, s', rfl, h⟩
    · rintro ⟨_, _, ⟨⟩, h⟩
      exact h
  | error e s' => simp

theorem pure_eq_ok {a b : α} {s t : σ} : (pure a : EStateM ε σ α) s = .ok b t ↔ a = b ∧ s = t := by
  show EStateM.Result.ok a s = .ok b t ↔ _
  simp

theorem Parse.ofExcept_eq_ok {x : Except Fault α} {s t : ParseState κ} {a : α} :
    Parse.ofExcept x s = .ok a t ↔ x = .ok a ∧ s = t := by
  cases x with
  | ok b => simp only [Parse.ofExcept, pure_eq_ok, Except.ok.injEq]
  | error e =>
    constructor
    · intro h
      cases h
    · rintro ⟨h, -⟩
      cases h

theorem Parse.ofDerive_eq_ok {x : Derive κ α} {s t : ParseState κ} {a : α} :
    Parse.ofDerive x s = .ok a t ↔ ∃ d, x s.derivation = .ok a d ∧ t = { s with derivation := d } := by
  rw [Parse.ofDerive]
  cases x s.derivation with
  | ok b d =>
    constructor
    · rintro ⟨⟩
      exact ⟨d, rfl, rfl⟩
    · rintro ⟨_, ⟨⟩, rfl⟩
      rfl
  | error fault d => simp

/-- Whether there is a value, and what is left then, can be decided. -/
instance (r : Result κ) (p : View → Prop) [DecidablePred p] : Decidable (∃ x w, r = .parsed x w ∧ p w) :=
  match r with
  | .parsed x w => decidable_of_iff (p w) ⟨fun h => ⟨x, w, rfl, h⟩, by rintro ⟨_, _, ⟨⟩, h⟩; exact h⟩
  | .failed f => isFalse (by simp)

/-- So can it be whether there is a failure, and what is expected then. -/
instance (r : Result κ) (p : Failure κ → Prop) [DecidablePred p] : Decidable (∃ f, r = .failed f ∧ p f) :=
  match r with
  | .parsed x w => isFalse (by simp)
  | .failed f => decidable_of_iff (p f) (by simp)

variable {run : Runner κ} {v w : View} {x : Value κ} {s t : ParseState κ}

/-! ## 1. Sequences -/

theorem runSequence_nil_iff {values : List (Value κ)} :
    runSequence run [] values v s = .ok (.parsed x w) t ↔ .tuple values = x ∧ v = w ∧ s = t := by
  rw [runSequence, pure_eq_ok, Result.parsed.injEq, and_assoc]

/-- The first part succeeds, and the others from where it ends. -/
theorem runSequence_cons_iff {part : RuleId} {parts : List RuleId} {values : List (Value κ)} :
    runSequence run (part :: parts) values v s = .ok (.parsed x w) t ↔
      ∃ y u s', run part v s = .ok (.parsed y u) s' ∧
        runSequence run parts (values ++ [y]) u s' = .ok (.parsed x w) t := by
  rw [runSequence, bind_eq_ok]
  constructor
  · rintro ⟨r, s', hpart, h⟩
    cases r with
    | failed f => cases (pure_eq_ok.mp h).1
    | parsed y u => exact ⟨y, u, s', hpart, h⟩
  · rintro ⟨y, u, s', hpart, h⟩
    exact ⟨.parsed y u, s', hpart, h⟩

variable [CustomMatcher κ]

/-! ## 2. Single matches -/

theorem Matcher.take_parsed_iff {m : Matcher κ} {value : View → Parse κ (Value κ)} :
    m.take v value s = .ok (.parsed x w) t ↔
      ∃ matched, m.split v = .ok (some (matched, w)) ∧ value matched s = .ok x t := by
  rw [Matcher.take, bind_eq_ok]
  constructor
  · rintro ⟨halves, s', hhalves, h⟩
    obtain ⟨hsplit, rfl⟩ := Parse.ofExcept_eq_ok.mp hhalves
    rcases halves with - | ⟨matched, rest⟩
    · cases (pure_eq_ok.mp h).1
    · obtain ⟨y, s', hvalue, hy⟩ := bind_eq_ok.mp h
      obtain ⟨hr, rfl⟩ := pure_eq_ok.mp hy
      cases hr
      exact ⟨matched, hsplit, hvalue⟩
  · rintro ⟨matched, hsplit, hvalue⟩
    exact ⟨some (matched, w), s, Parse.ofExcept_eq_ok.mpr ⟨hsplit, rfl⟩, bind_eq_ok.mpr ⟨x, t, hvalue, rfl⟩⟩

/-- The end of the input is where nothing is left, and nothing is consumed there. -/
theorem Matcher.endOfInput_split_iff {matched : View} :
    (.endOfInput : Matcher κ).split v = .ok (some (matched, w)) ↔
      v.isEmpty = true ∧ v.split v.start = .ok (matched, w) := by
  cases hv : v.isEmpty with
  | false => simp [Matcher.split, Matcher.run, hv, bind, Except.bind, pure, Except.pure]
  | true =>
    cases hs : v.split v.start with
    | ok halves => simp [Matcher.split, Matcher.run, hv, hs, bind, Except.bind, pure, Except.pure, Span.ofWidth]
    | error e => simp [Matcher.split, Matcher.run, hv, hs, bind, Except.bind, Span.ofWidth]

variable [DecidableEq κ] {g : Grammar κ}

/-! ## 3. Other bodies -/

theorem Body.run_map_iff {inner : RuleId} {f : Transform κ} :
    (Body.map inner f).run g run v s = .ok (.parsed x w) t ↔ ∃ y, run inner v s = .ok (.parsed y w) t ∧ f y = .ok x := by
  rw [Body.run, bind_eq_ok]
  constructor
  · rintro ⟨r, s', hinner, h⟩
    cases r with
    | failed f => cases (pure_eq_ok.mp h).1
    | parsed y u =>
      obtain ⟨z, s'', hz, h⟩ := bind_eq_ok.mp h
      obtain ⟨hf, rfl⟩ := Parse.ofExcept_eq_ok.mp hz
      obtain ⟨hr, rfl⟩ := pure_eq_ok.mp h
      cases hr
      exact ⟨y, hinner, hf⟩
  · rintro ⟨y, hinner, hf⟩
    exact ⟨.parsed y w, t, hinner, bind_eq_ok.mpr ⟨x, t, Parse.ofExcept_eq_ok.mpr ⟨hf, rfl⟩, rfl⟩⟩

/-- After ambient whitespace, the inner rule succeeds. -/
theorem Body.run_skipping_iff {inner : RuleId} :
    (Body.skipping inner).run g run v s = .ok (.parsed x w) t ↔
      ∃ u s', Parse.skip run v s = .ok u s' ∧ run inner u s' = .ok (.parsed x w) t := by
  rw [Body.run, bind_eq_ok]
  refine exists_congr fun u => exists_congr fun s' => and_congr_right fun _ => ?_
  rw [bind_eq_ok]
  constructor
  · rintro ⟨r, s'', hinner, h⟩
    cases r with
    | parsed y w' =>
      obtain ⟨hr, rfl⟩ := pure_eq_ok.mp h
      cases hr
      exact hinner
    | failed f =>
      -- whether or not the policy is asked for what it allows, a failure is passed on
      obtain ⟨c, s₁, -, h⟩ := bind_eq_ok.mp h
      split at h
      · obtain ⟨ms, s₂, -, h⟩ := bind_eq_ok.mp h
        cases (pure_eq_ok.mp h).1
      · cases (pure_eq_ok.mp h).1
  · intro hinner
    exact ⟨_, t, hinner, rfl⟩

/-! ## 4. Rules -/

theorem Body.stamped_parsed_iff (b : Body κ) (id : RuleId) :
    (do match ← b.run g run v with
        | .parsed value rest => return .parsed value rest
        | .failed f =>
          let f ← g.stamped id v f
          Parse.record f
          return .failed f : Parse κ (Result κ)) s = .ok (.parsed x w) t ↔ b.run g run v s = .ok (.parsed x w) t := by
  rw [bind_eq_ok]
  constructor
  · rintro ⟨r, s', hbody, h⟩
    cases r with
    | parsed y u =>
      obtain ⟨hr, rfl⟩ := pure_eq_ok.mp h
      cases hr
      exact hbody
    | failed f =>
      -- a failure stays one when it is stamped
      obtain ⟨f', s'', -, h⟩ := bind_eq_ok.mp h
      obtain ⟨-, s''', -, h⟩ := bind_eq_ok.mp h
      cases (pure_eq_ok.mp h).1
  · intro hbody
    exact ⟨_, t, hbody, rfl⟩

/-- **A rule succeeds as its body does.** -/
theorem Grammar.parse_parsed_iff {fuel : Nat} {id : RuleId} {rule : Rule κ} (hr : g.rule? id = some rule)
    (hp : ∀ target, rule.body ≠ .placeholder target) :
    g.parse (fuel + 1) id v s = .ok (.parsed x w) t ↔
      rule.body.run g (g.parse fuel) v s = .ok (.parsed x w) t := by
  obtain ⟨label, body⟩ := rule
  rw [Grammar.parse, Grammar.step, hr]
  cases body with
  | placeholder target => exact absurd rfl (hp target)
  | _ => exact Body.stamped_parsed_iff _ id

/-- How a rule reports what its body did: a success as it is, and a failure as one at the same place. -/
def Result.Reports : Result κ → Result κ → Prop
  | .parsed x w, r => r = .parsed x w
  | .failed f, r => ∃ f', r = .failed f' ∧ f'.rest = f.rest

omit [CustomMatcher κ] in
theorem Grammar.stamped_rest {id : RuleId} {f f' : Failure κ} (h : g.stamped id v f s = .ok f' t) :
    f'.rest = f.rest := by
  rw [Grammar.stamped] at h
  split at h
  · obtain ⟨e, s₁, -, h⟩ := bind_eq_ok.mp h
    split at h
    · obtain ⟨ms, s₂, -, h⟩ := bind_eq_ok.mp h
      obtain ⟨rfl, -⟩ := pure_eq_ok.mp h
      rfl
    · obtain ⟨rfl, -⟩ := pure_eq_ok.mp h
      rfl
  · obtain ⟨rfl, -⟩ := pure_eq_ok.mp h
    rfl

/-- Whatever a rule ends in, it reports what its body ended in. -/
theorem Grammar.parse_reports {fuel : Nat} {id : RuleId} {rule : Rule κ} (hr : g.rule? id = some rule)
    (hp : ∀ target, rule.body ≠ .placeholder target) {r : Result κ} (h : g.parse (fuel + 1) id v s = .ok r t) :
    ∃ r₀ u, rule.body.run g (g.parse fuel) v s = .ok r₀ u ∧ r₀.Reports r := by
  obtain ⟨label, body⟩ := rule
  rw [Grammar.parse, Grammar.step, hr] at h
  have reports (h : (do
      match ← body.run g (g.parse fuel) v with
      | .parsed value rest => return .parsed value rest
      | .failed f =>
        let f ← g.stamped id v f
        Parse.record f
        return .failed f : Parse κ (Result κ)) s = .ok r t) :
      ∃ r₀ u, body.run g (g.parse fuel) v s = .ok r₀ u ∧ r₀.Reports r := by
    obtain ⟨r₀, u, hbody, h⟩ := bind_eq_ok.mp h
    refine ⟨r₀, u, hbody, ?_⟩
    cases r₀ with
    | parsed x w => exact (pure_eq_ok.mp h).1.symm
    | failed f =>
      obtain ⟨f', u', hstamped, h⟩ := bind_eq_ok.mp h
      obtain ⟨-, -, -, h⟩ := bind_eq_ok.mp h
      exact ⟨f', (pure_eq_ok.mp h).1.symm, stamped_rest hstamped⟩
  cases body with
  | placeholder target => exact absurd rfl (hp target)
  | _ => exact reports h

end Descent
