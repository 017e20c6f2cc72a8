import Descent.Proofs.Derivation.Correct

/-!
# What is kept is answered again

A derivation only adds to what is kept, and takes off the marks that it puts on (`Derivation.Grows`). Asked from
outside, when nothing is marked, it keeps the answer itself. **So whoever asks again is answered the same**
(`Grammar.expectation_again`), whatever else has been kept in the meantime. Nothing about the grammar is needed for
this, not even that the answer is right.
-/

namespace Descent

variable {κ : Type}

namespace Derivation

/-- All that is kept in `d` is kept in `d'`. -/
def Keeps (d' d : Derivation κ) : Prop := ∀ id e, d.known? id = some e → d'.known? id = some e

/-- What `d` may become: more is kept, and the marks are those that there were. -/
structure Grows (d d' : Derivation κ) : Prop where
  keeps : d'.Keeps d
  marked : d'.marked = d.marked
  depth : d'.depth = d.depth

/-- Nothing is being derived. -/
structure AtRest (d : Derivation κ) : Prop where
  marked : d.marked = []
  depth : d.depth = 0

variable {d d' d'' : Derivation κ} {id : RuleId} {e : Expectation κ}

theorem Keeps.trans (h : d'.Keeps d) (h' : d''.Keeps d') : d''.Keeps d := fun id e he => h' id e (h id e he)

@[refl] theorem Grows.refl (d : Derivation κ) : d.Grows d := ⟨fun _ _ h => h, rfl, rfl⟩

theorem Grows.trans (h : d.Grows d') (h' : d'.Grows d'') : d.Grows d'' :=
  ⟨h.keeps.trans h'.keeps, h'.marked.trans h.marked, h'.depth.trans h.depth⟩

theorem Grows.atRest (h : d.Grows d') (hd : d.AtRest) : d'.AtRest := ⟨h.marked.trans hd.marked, h.depth.trans hd.depth⟩

/-- The flag for cuts is neither a mark nor kept. -/
theorem grows_cycleMet (d : Derivation κ) (cycleMet : Bool) : d.Grows { d with cycleMet } :=
  ⟨fun _ _ h => h, rfl, rfl⟩

theorem Grows.keep (h : d.Grows d') (hid : d.known? id = none) (e : Expectation κ) :
    d.Grows (d'.keep id e) := by
  refine ⟨fun q e' hq => ?_, h.marked, h.depth⟩
  have hne : ¬ id = q := by
    rintro rfl
    cases hid.symm.trans hq
  rw [known?_keep, if_neg hne]
  exact h.keeps q e' hq

theorem Grows.leave {inner : Derivation κ} (h : (d.enter id).Grows inner) : d.Grows (inner.leave d id) := by
  refine ⟨h.keeps, ?_, ?_⟩
  · show inner.marked.erase id = d.marked
    rw [h.marked]
    exact List.erase_cons_head id d.marked
  · show inner.depth - 1 = d.depth
    rw [h.depth]
    rfl

theorem Grows.conclude {inner : Derivation κ} (h : (d.enter id).Grows inner) (hid : d.known? id = none)
    (e : Expectation κ) : d.Grows (d.conclude inner id e) := by
  rw [Derivation.conclude]
  split
  · exact h.leave.keep hid e
  · exact h.leave

/-- The start of a walk keeps its answer, whatever was cut on the way. -/
theorem AtRest.known?_conclude (h : d.AtRest) (inner : Derivation κ) (id : RuleId) (e : Expectation κ) :
    (d.conclude inner id e).known? id = some e := by
  rw [Derivation.conclude, h.depth, if_pos (by simp), Derivation.known?_keep, if_pos rfl]

end Derivation

variable [DecidableEq κ] {g : Grammar κ}

/-- A derivation only adds to what is kept, and takes its marks off again, however it ends. -/
theorem Grammar.expectationWithin_grows (fuel : Nat) (id : RuleId) (d : Derivation κ) :
    Ensures (g.expectationWithin fuel id) d (fun _ d' => d.Grows d') fun _ d' => d.Grows d' := by
  induction fuel generalizing id d with
  | zero => exact .refl d
  | succ fuel ih =>
    apply Grammar.expectationWithin_ensures
    case absent => exact fun _ => .refl d
    case unresolved => exact fun _ _ => d.grows_cycleMet true
    case target => exact fun _ target _ => ih target d
    case known => exact fun _ _ _ _ _ => .refl d
    case mute => exact fun _ _ _ _ hknown => (Derivation.Grows.refl d).keep hknown _
    case cut => exact fun _ _ _ _ _ => d.grows_cycleMet true
    case walk =>
      intro rule walk hr hwalk hknown _
      refine (Body.derived?_ensures (R := fun _ _ _ _ => True) (P := (d.enter id).Grows)
        (E := fun _ => (d.enter id).Grows) hwalk ?_ ?_ (.refl _)).imp ?_ ?_
      · exact fun q _ d' hd' => (ih q d').imp (fun _ _ h => ⟨trivial, hd'.trans h⟩) fun _ _ => hd'.trans
      · exact fun _ _ _ d' hd' => ⟨fun _ => hd', fun _ _ _ => hd'⟩
      · exact fun e inner h => h.2.conclude hknown e
      · exact fun _ inner h => h.leave

/-- What is kept for a rule is the answer, and changes nothing. -/
theorem Grammar.expectationWithin_of_known {fuel : Nat} {id : RuleId} {rule : Rule κ} {d : Derivation κ}
    {e : Expectation κ} (hr : g.rule? id = some rule) (hp : ∀ target, rule.body ≠ .placeholder target)
    (h : d.known? id = some e) : g.expectationWithin (fuel + 1) id d = .ok e d := by
  have h' : Ensures (g.expectationWithin (fuel + 1) id) d (fun e' d' => e' = e ∧ d' = d) fun _ _ => False := by
    apply Grammar.expectationWithin_ensures
    case absent => exact fun hnone => nomatch hnone.symm.trans hr
    case unresolved =>
      intro label hr'
      cases hr'.symm.trans hr
      exact absurd rfl (hp none)
    case target =>
      intro label target hr'
      cases hr'.symm.trans hr
      exact absurd rfl (hp (some target))
    case known => exact fun _ e' _ _ h' => ⟨Option.some.inj (h'.symm.trans h), rfl⟩
    case mute => exact fun _ _ _ _ hnone => nomatch hnone.symm.trans h
    case cut => exact fun _ _ _ hnone => nomatch hnone.symm.trans h
    case walk => exact fun _ _ _ _ hnone => nomatch hnone.symm.trans h
  obtain ⟨_, _, hx, rfl, rfl⟩ := h'.exists_ok
  exact hx

/-- **An answer from rest is given again**, by whatever keeps what was kept then, and nothing more is kept for it. -/
theorem Grammar.expectationWithin_again (fuel : Nat) (id : RuleId) {d : Derivation κ} (hd : d.AtRest) :
    Ensures (g.expectationWithin fuel id) d
      (fun e d₁ => ∀ d', d'.Keeps d₁ →
        ∃ d'', g.expectationWithin fuel id d' = .ok e d'' ∧ d'.Grows d'' ∧ d''.known = d'.known)
      fun _ _ => True := by
  induction fuel generalizing id with
  | zero => exact trivial
  | succ fuel ih =>
    apply Grammar.expectationWithin_ensures
    case absent => exact fun _ => trivial
    case unresolved =>
      intro label hr d' _
      refine ⟨_, ?_, d'.grows_cycleMet true, rfl⟩
      rw [Grammar.expectationWithin, hr]
      rfl
    case target =>
      intro label target hr
      rw [Grammar.expectationWithin, hr]
      exact ih target
    case known =>
      exact fun rule e hr hp hknown d' hd' => ⟨d', expectationWithin_of_known hr hp (hd' id e hknown), .refl d', rfl⟩
    case mute =>
      intro rule hr hp _ _ d' hd'
      have kept : (d.keep id .empty).known? id = some .empty := by rw [Derivation.known?_keep, if_pos rfl]
      exact ⟨d', expectationWithin_of_known hr hp (hd' id _ kept), .refl d', rfl⟩
    case cut =>
      intro _ _ _ _ hm
      rw [hd.marked] at hm
      cases hm
    case walk =>
      intro rule walk hr hwalk _ _
      have hp : ∀ target, rule.body ≠ .placeholder target := by
        intro target hb
        rw [hb] at hwalk
        cases hwalk
      refine (ensures_self walk (d.enter id)).imp (fun e inner _ d' hd' => ?_) fun _ _ _ => trivial
      exact ⟨d', expectationWithin_of_known hr hp (hd' id e (hd.known?_conclude inner id e)), .refl d', rfl⟩

/-- Requests from rest add to what is kept, and are answered again, then adding nothing. -/
theorem Grammar.expectation_again {id : RuleId} {d d₁ : Derivation κ} {e : Expectation κ} (hd : d.AtRest)
    (h : g.expectation id d = .ok e d₁) :
    d.Grows d₁ ∧
      ∀ d', d'.Keeps d₁ → ∃ d'', g.expectation id d' = .ok e d'' ∧ d'.Grows d'' ∧ d''.known = d'.known :=
  ⟨(expectationWithin_grows g.derivationFuel id d).ok h, (expectationWithin_again g.derivationFuel id hd).ok h⟩

/-- An answer from rest is kept, unless it is for a placeholder. -/
theorem Grammar.expectation_kept {id : RuleId} {rule : Rule κ} {d d₁ : Derivation κ} {e : Expectation κ}
    (hd : d.AtRest) (hr : g.rule? id = some rule) (hp : ∀ target, rule.body ≠ .placeholder target)
    (h : g.expectation id d = .ok e d₁) : d₁.known? id = some e := by
  have hkept (fuel : Nat) :
      Ensures (g.expectationWithin fuel id) d (fun e d₁ => d₁.known? id = some e) fun _ _ => True := by
    cases fuel with
    | zero => exact trivial
    | succ fuel =>
      have placeholder {label : Option String} {target : Option RuleId} :
          g.rule? id ≠ some ⟨label, .placeholder target⟩ := by
        intro hr'
        cases hr'.symm.trans hr
        exact hp target rfl
      apply Grammar.expectationWithin_ensures
      case absent => exact fun _ => trivial
      case unresolved => exact fun _ hr' => absurd hr' placeholder
      case target => exact fun _ _ hr' => absurd hr' placeholder
      case known => exact fun _ _ _ _ hknown => hknown
      case mute =>
        intro _ _ _ _ _
        rw [Derivation.known?_keep, if_pos rfl]
      case cut =>
        intro _ _ _ _ hm
        rw [hd.marked] at hm
        cases hm
      case walk =>
        intro rule walk _ _ _ _
        exact (ensures_self walk (d.enter id)).imp (fun e inner _ => hd.known?_conclude inner id e) fun _ _ _ => trivial
  exact (hkept g.derivationFuel).ok h

end Descent
