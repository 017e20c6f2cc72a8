import Descent.Matcher.Fixed
import Descent.Proofs.Derivation.Correct
import Descent.Proofs.Derivation.Total

/-!
# Answers to requests for expectations

Between two requests nothing is marked, and all that is left of the requests before is what was kept. Since what is
kept is right, so is every answer, **whichever expectations were asked for before and in whichever order**
(`expectations_reached`): it names the matchers of the rules that can be reached along entry edges, and it tells whether
one that skips ambient whitespace can be reached under the policy of the rule itself.
-/

namespace Descent

variable {κ : Type}

/-- The bookkeeping between two requests. -/
structure Derivation.Settled (d : Derivation κ) (g : Grammar κ) : Prop extends d.Good g where
  marked : d.marked = []

theorem Derivation.settled_fresh (g : Grammar κ) : (fresh : Derivation κ).Settled g where
  depth_eq := rfl
  known _ _ h := nomatch h
  marked := rfl

/-- Where nothing is marked, all that can be reached is due. -/
theorem Reads.isOf {g : Grammar κ} {id : RuleId} {d d' : Derivation κ} {e : Expectation κ} (h : Reads g id d e d')
    (hd : d.marked = []) : e.IsOf g id := fun T =>
  ⟨h.sound T, fun hT => h.due T (Or.inl (hd ▸ hT.avoids))⟩

section Requests

variable [DecidableEq κ] {g : Grammar κ}

/-- One request: it ends in the right answer, and leaves things as it found them. -/
theorem Grammar.expectation_settled (hg : g.IsLibrary) (hclosed : g.IsClosed) (hguarded : g.IsGuarded) {id : RuleId}
    (hid : id < g.rules.size) {d : Derivation κ} (hd : d.Settled g) :
    ∃ e d', g.expectation id d = .ok e d' ∧ e.IsOf g id ∧ d'.Settled g := by
  obtain ⟨e, d', h⟩ := expectation_total hg hclosed hguarded hid d
  have reads := (expectationWithin_reads hg g.derivationFuel id d hd.toGood).ok h
  exact ⟨e, d', h, reads.isOf hd.marked, reads.good, reads.marked.trans hd.marked⟩

/-- Any requests in a row. -/
theorem Grammar.expectations_settled (hg : g.IsLibrary) (hclosed : g.IsClosed) (hguarded : g.IsGuarded)
    (ids : List RuleId) (hids : ∀ id ∈ ids, id < g.rules.size) {d : Derivation κ} (hd : d.Settled g) :
    ∃ es d', ids.mapM g.expectation d = .ok es d' ∧ List.Forall₂ (fun id e => e.IsOf g id) ids es ∧ d'.Settled g := by
  induction ids generalizing d with
  | nil => exact ⟨[], d, rfl, .nil, hd⟩
  | cons id ids ih =>
    obtain ⟨hid, hids⟩ := List.forall_mem_cons.mp hids
    obtain ⟨e, d₁, he, hof, hd₁⟩ := expectation_settled hg hclosed hguarded hid hd
    obtain ⟨es, d', hes, hofs, hd'⟩ := ih hids hd₁
    refine ⟨e :: es, d', ?_, .cons hof hofs, hd'⟩
    rw [List.mapM_cons, bind_apply_of_ok he, bind_apply_of_ok hes]
    rfl

/-- **Expectations are what can be reached.** In a grammar of the library whose placeholders do not stand for one
another in a circle, every request of a row of requests ends. Its prefixes are the matchers of the rules that can be
reached along entry edges; it is ambient if a rule that skips ambient whitespace can be reached so without entering a
rule with a policy of its own. -/
theorem Grammar.expectations_reached (hg : g.IsLibrary) (hclosed : g.IsClosed) (hguarded : g.IsGuarded)
    (ids : List RuleId) (hids : ∀ id ∈ ids, id < g.rules.size) :
    ∃ es d, ids.mapM g.expectation Derivation.fresh = .ok es d ∧
      List.Forall₂ (fun id (e : Expectation κ) =>
        (∀ m, m ∈ e.prefixes ↔ ∃ q rule, Relation.ReflTransGen g.Entry id q ∧ g.rule? q = some rule ∧
          m ∈ rule.body.leaves) ∧
        (e.ambient = true ↔ ∃ q label inner, Relation.ReflTransGen g.OpenEntry id q ∧
          g.rule? q = some ⟨label, .skipping inner⟩)) ids es := by
  obtain ⟨es, d, hes, hofs, -⟩ := expectations_settled hg hclosed hguarded ids hids (Derivation.settled_fresh g)
  refine ⟨es, d, hes, hofs.imp fun id e he => ⟨fun m => ?_, ?_⟩⟩
  · exact (he (.matcher m)).trans Trait.reached_matcher_iff
  · exact (he .ambient).trans Trait.reached_ambient_iff

end Requests

/-- A list in brackets that begins with itself, or with an end of input after whitespace: entries in a circle. -/
def circular : Grammar FixedMatcher where
  rules := #[⟨none, .placeholder (some 3)⟩, ⟨none, .token .endOfInput none⟩, ⟨none, .skipping 1⟩,
    ⟨none, .either [4, 2]⟩, ⟨none, .sequence [0, 1]⟩, ⟨none, .within 3 none⟩]
  names := []
  customs := 0

/-- Its only placeholder stands for a rule that is none. -/
theorem circular_isGuarded : circular.IsGuarded := by
  have hands {p q : RuleId} (h : circular.HandsOn p q) : p = 0 ∧ q = 3 := by
    obtain ⟨label, h⟩ := h
    match p, h with
    | 0, h => cases h; exact ⟨rfl, rfl⟩
    | 1, h | 2, h | 3, h | 4, h | 5, h => cases h
  intro id h
  obtain ⟨q, hq, -⟩ := Relation.TransGen.head'_iff.mp h
  obtain ⟨p, -, hp⟩ := Relation.TransGen.tail'_iff.mp h
  exact absurd ((hands hq).1.symm.trans (hands hp).2) (by decide)

/-- What a request answers, if it ends. -/
def answers? (x : EStateM.Result Fault (Derivation κ) (List (Expectation κ))) :
    Option (List (List (Matcher κ) × Bool)) :=
  match x with
  | .ok es _ => some (es.map fun e => (e.prefixes, e.ambient))
  | .error _ _ => none

/-- Asked from inside of the circle first, and then from outside. -/
theorem expectations_reached_circular :
    circular.IsLibrary ∧ circular.IsClosed ∧ circular.IsGuarded ∧
      answers? ([4, 0, 5].mapM circular.expectation Derivation.fresh) =
        some [([.endOfInput], true), ([.endOfInput], true), ([.endOfInput], false)] ∧
      ∃ q rule, Relation.ReflTransGen circular.Entry 4 q ∧ circular.rule? q = some rule ∧
        .endOfInput ∈ rule.body.leaves := by
  have computed : answers? ([4, 0, 5].mapM circular.expectation Derivation.fresh) =
      some [([.endOfInput], true), ([.endOfInput], true), ([.endOfInput], false)] := by
    decide +kernel
  have hg : circular.IsLibrary := by decide
  have hclosed : circular.IsClosed := by decide
  refine ⟨hg, hclosed, circular_isGuarded, computed, ?_⟩
  obtain ⟨es, d, hes, hofs⟩ := Grammar.expectations_reached hg hclosed circular_isGuarded [4, 0, 5] (by decide)
  rw [hes] at computed
  cases hofs with
  | @cons _ e _ es h _ =>
    have first : e.prefixes = [.endOfInput] := by
      simp only [answers?, List.map_cons, Option.some.injEq, List.cons.injEq, Prod.mk.injEq] at computed
      exact computed.1.1
    exact (h.1 .endOfInput).mp (first ▸ List.mem_cons_self)

end Descent
