import Descent.Proofs.Derivation.Relied

/-!
# Derived expectations are right

What a request should answer is what can be reached from the rule (`Expectation.IsOf`). What a derivation answers half
way through a walk is less, and the account of it (`Reads`) has an upper and a lower bound: it is the account of
`Reliance` with every rule relied on and none that waits.

The two kinds of answers that are kept are then complete for two different reasons. One met no cut. The other starts
its walk, where there are no marks to turn back at: the cuts below it hide only what it sees on other paths. So every
answer that is kept is right, and no request is answered otherwise for what was asked before.
-/

namespace Descent

variable {κ : Type}

/-- The expectation shows what can be reached from the rule, and nothing else. -/
def Expectation.IsOf (e : Expectation κ) (g : Grammar κ) (id : RuleId) : Prop :=
  ∀ T : Trait κ, T.Shown e ↔ T.Reached g id

/-- The bookkeeping as derivations leave it: the depth is the number of marks, and what is kept is right. -/
structure Derivation.Good (d : Derivation κ) (g : Grammar κ) : Prop where
  depth_eq : d.depth = d.marked.length
  known : ∀ id e, d.known? id = some e → e.IsOf g id

/-- The account of reading the expectation of a rule. -/
structure Reads (g : Grammar κ) (id : RuleId) (d : Derivation κ) (e : Expectation κ) (d' : Derivation κ) : Prop where
  good : d'.Good g
  marked : d'.marked = d.marked
  /-- inside of a walk, a cut is not forgotten -/
  flag : d.marked ≠ [] → d.cycleMet = true → d'.cycleMet = true
  sound : ∀ T : Trait κ, T.Shown e → T.Reached g id
  due : ∀ T : Trait κ, T.Due g d d' id → T.Shown e

/-- Every rule is relied on, and none waits. -/
def Reliance.all (g : Grammar κ) : Reliance g where
  on _ := True
  waits _ := False
  on_entry _ _ := trivial
  waits_next _ h := h.elim

variable {g : Grammar κ} {d d' : Derivation κ} {id : RuleId} {e : Expectation κ}

theorem Derivation.reliable_all_iff : d.Reliable (.all g) ↔ d.Good g := by
  constructor
  · intro h
    exact ⟨h.depth_eq, fun q e hq T => ⟨h.sound q e hq T, (h.full q e hq trivial).2 T⟩⟩
  · intro h
    refine ⟨h.depth_eq, fun q e hq T => (h.known q e hq T).mp, fun q e hq _ => ⟨not_false, fun T => ?_⟩⟩
    exact (h.known q e hq T).mpr

theorem ReadsFor.reads (h : ReadsFor (.all g) id d e d') : Reads g id d e d' where
  good := Derivation.reliable_all_iff.mp h.reliable
  marked := h.marked
  flag := h.flag
  sound := h.sound
  due := h.due trivial

/-- **Reading an expectation keeps its account.** -/
theorem Grammar.expectationWithin_reads [DecidableEq κ] (hg : g.IsLibrary) (fuel : Nat) (id : RuleId)
    (d : Derivation κ) (hd : d.Good g) :
    Ensures (g.expectationWithin fuel id) d (fun e d' => Reads g id d e d') fun _ _ => True :=
  (expectationWithin_reliable hg fuel id d (Derivation.reliable_all_iff.mpr hd) fun _ _ _ _ _ _ _ => not_false).imp_ok
    fun _ _ h => h.reads

end Descent
