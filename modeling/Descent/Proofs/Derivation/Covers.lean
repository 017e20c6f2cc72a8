import Descent.Proofs.Derivation.Answers
import Descent.Proofs.Derivation.Straight
import Descent.Proofs.Run.Begins

/-!
# What prefixes cover

The prefixes of a rule are the matchers that can be reached along entry edges, and diagnostics show them as what could
be tried where the rule begins. They are not all that is tried there. An operand of a sequence may succeed without
moving, and then the next operand is run where the sequence began, though the expectation of a sequence is that of its
first operand.

That is the only way in which a run leaves its prefixes behind (`Grammar.prefixes_cover_entry`): every matcher that a
run tries where it began, other than to skip whitespace, is a prefix, **or it lies behind operands of a sequence that
all stood still there in that run**.
-/

namespace Descent

variable {κ : Type}

/-- One rule is reached from another behind operands that stand still: entry edges lead to a sequence, and one of its
later operands, before which all stand still, leads to the rule. -/
def Grammar.ReachedBehind (g : Grammar κ) (still : RuleId → Prop) (p q : RuleId) : Prop :=
  ∃ p' label before q' after, Relation.ReflTransGen g.Entry p p' ∧
    g.rule? p' = some ⟨label, .sequence (before ++ q' :: after)⟩ ∧ before ≠ [] ∧ (∀ b ∈ before, still b) ∧
      Relation.ReflTransGen (g.Follows still) q' q

/-- What a rule begins with is reached along entry edges or behind operands that stand still. -/
theorem Grammar.entry_or_behind {g : Grammar κ} {still : RuleId → Prop} {p q : RuleId}
    (h : Relation.ReflTransGen (g.Follows still) p q) :
    Relation.ReflTransGen g.Entry p q ∨ g.ReachedBehind still p q := by
  induction h using Relation.ReflTransGen.head_induction_on with
  | refl => exact .inl .refl
  | @head a c hac hcq ih =>
    have further (hentry : g.Entry a c) : Relation.ReflTransGen g.Entry a q ∨ g.ReachedBehind still a q := by
      refine ih.imp (.head hentry) ?_
      rintro ⟨p', label, before, q', after, hpath, rest⟩
      exact ⟨p', label, before, q', after, .head hentry hpath, rest⟩
    rcases hac with hentry | ⟨label, before, after, hr, hbefore⟩
    · exact further hentry
    · cases before with
      | nil => exact further ⟨_, hr, List.mem_cons_self⟩
      | cons b before => exact .inr ⟨a, label, b :: before, c, after, .refl, hr, List.cons_ne_nil _ _, hbefore, hcq⟩

section Run

variable [DecidableEq κ] [CustomMatcher κ] {g : Grammar κ}

/-- What has been added to an empty log. -/
theorem Grammar.logged_ran (g : Grammar κ) (fuel : Nat) (id : RuleId) (v : View) (s : ParseState κ) :
    g.Ran id v s.context.suspended (Logged.left (g.logged fuel id v (s, []))).2 := by
  have since {t : ParseState κ × List (Call κ)} (h : ∃ calls, g.Since id v s.context.suspended [] calls t) :
      g.Ran id v s.context.suspended t.2 := by
    obtain ⟨calls, hsince⟩ := h
    rw [show t.2 = calls from hsince.log_eq]
    exact hsince.ran
  refine Logged.left_of_ensures (P := fun t => g.Ran id v s.context.suspended t.2)
    ((g.logged_runsAt fuel id v (s, [])).imp ?_ fun _ _ => since)
  rintro r t ⟨-, calls, hsince, -⟩
  exact since ⟨calls, hsince⟩

/-- **Prefixes cover what is tried at the entry, up to what stands still.** In a grammar of the library whose
placeholders do not stand for one another in a circle, a request for the expectation of a rule ends, whatever was
requested before. Take any run of the rule, and any call in its log that was made where the run began, not to skip
whitespace. The matchers of the rule that was called are prefixes of the answer, or the rule was reached behind operands
of a sequence that, by that log, all stood still. -/
theorem Grammar.prefixes_cover_entry (hg : g.IsLibrary) (hclosed : g.IsClosed) (hguarded : g.IsGuarded) {id : RuleId}
    (hid : id < g.rules.size) {d : Derivation κ} (hd : d.Settled g) (fuel : Nat) (v : View) (s : ParseState κ) :
    let log := (Logged.left (g.logged fuel id v (s, []))).2
    ∃ e d', g.expectation id d = .ok e d' ∧
      ∀ c ∈ log, c.view.start = v.start → c.context.suspended = s.context.suspended →
        ∀ rule, g.rule? c.rule = some rule → rule.body.leaves ⊆ e.prefixes ∨
          g.ReachedBehind (g.StoodStill log v.start s.context.suspended) id c.rule := by
  intro log
  obtain ⟨e, d', he, hof, -⟩ := expectation_settled hg hclosed hguarded hid hd
  refine ⟨e, d', he, fun c hc hstart hdepth rule hr => ?_⟩
  refine (entry_or_behind ((g.logged_ran fuel id v s).begins c hc hstart hdepth)).imp_left fun hpath m hm => ?_
  exact (hof (.matcher m)).mpr (Trait.reached_matcher_iff.mpr ⟨c.rule, rule, hpath, hr, hm⟩)

end Run

/-- A letter that may be left out, and another one after it. -/
def optionalHead : Grammar FixedMatcher where
  rules := #[⟨none, .token (.literal "a" true) none⟩, ⟨none, .token (.literal "b" true) none⟩,
    ⟨none, .optional 0 .none⟩, ⟨none, .sequence [2, 1]⟩]
  names := []
  customs := 0

/-- The pair shows its first letter. -/
theorem optionalHead_expects : ∃ d, optionalHead.expectation 3 .fresh = .ok ⟨[.literal "a" true], [], false⟩ d :=
  ⟨_, rfl⟩

/-- Where the first letter is there, the second one is not tried where the run began. -/
theorem prefixes_cover_entry_optionalHead :
    let v := View.ofSource ⟨0, ['a', 'b']⟩
    let s : ParseState FixedMatcher := ⟨.fresh, .fresh none 0⟩
    let log := (Logged.left (optionalHead.logged 4 3 v (s, []))).2
    optionalHead.IsLibrary ∧ optionalHead.IsClosed ∧ optionalHead.IsGuarded ∧
      (Derivation.fresh : Derivation FixedMatcher).Settled optionalHead ∧
      log.map (fun c => (c.rule, c.view.start)) = [(0, 0), (2, 0), (1, 1), (3, 0)] ∧
      ∃ e d, optionalHead.expectation 3 .fresh = .ok e d ∧ e.prefixes = [.literal "a" true] ∧
        ∀ c ∈ log, c.view.start = v.start → c.context.suspended = s.context.suspended →
          ∀ rule, optionalHead.rule? c.rule = some rule → rule.body.leaves ⊆ e.prefixes ∨
            optionalHead.ReachedBehind (optionalHead.StoodStill log v.start s.context.suspended) 3 c.rule := by
  intro v s log
  have hstraight : optionalHead.IsStraight := .of_rank (by decide) (by decide) id (by decide)
  have settled : (Derivation.fresh : Derivation FixedMatcher).Settled optionalHead := Derivation.settled_fresh _
  have hid : 3 < optionalHead.rules.size := by decide
  obtain ⟨e, d, he, hcovers⟩ :=
    Grammar.prefixes_cover_entry hstraight.library hstraight.closed hstraight.guarded hid settled 4 v s
  obtain ⟨d', he'⟩ := optionalHead_expects
  cases he.symm.trans he'
  exact ⟨hstraight.library, hstraight.closed, hstraight.guarded, settled, rfl, _, d, he, rfl, hcovers⟩

/-- Where it is not, the second letter is tried there, and it is no prefix. -/
theorem optionalHead_uncovered :
    let v := View.ofSource ⟨0, ['b']⟩
    let s : ParseState FixedMatcher := ⟨.fresh, .fresh none 0⟩
    let log := (Logged.left (optionalHead.logged 4 3 v (s, []))).2
    ∃ e d, optionalHead.expectation 3 .fresh = .ok e d ∧
      ∃ c ∈ log, c.view.start = v.start ∧ c.context.suspended = s.context.suspended ∧
        ∃ rule, optionalHead.rule? c.rule = some rule ∧ ∃ m ∈ rule.body.leaves, m ∉ e.prefixes := by
  intro v s log
  obtain ⟨d, he⟩ := optionalHead_expects
  obtain ⟨c, hc, hrule, hstart, hdepth⟩ : ∃ c, log[2]? = some c ∧
      optionalHead.rule? c.rule = some ⟨none, .token (.literal "b" true) none⟩ ∧ c.view.start = v.start ∧
        c.context.suspended = s.context.suspended := ⟨_, rfl, rfl, rfl, rfl⟩
  exact ⟨_, d, he, c, List.mem_of_getElem? hc, hstart, hdepth, _, hrule, _, List.mem_singleton_self _, by decide⟩

end Descent
