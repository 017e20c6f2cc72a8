import Descent.Proofs.Derivation.Grounded

/-!
# Derivations that are abandoned

A hand-written derivative may read the expectations of other rules and may then refuse to conclude. The fault ends every
derivation that is going on, wherever it has got to: some rules have been answered and kept by then, some cuts have been
noted. **A request that ends in a fault leaves no trace** (`Grammar.requests_abandoned`): nothing is being derived
afterwards and no cut is remembered, nothing is kept for a rule whose derivation was abandoned, and every later request
ends as it would have ended without the requests that failed.

What such a request does leave is what was kept on the way. That is grounded in the table of the requests that were
answered, so it saves later walks some work and changes nothing about them. Two bookkeepings on one table are *twins*,
and their walks go in step (`Grammar.expectationWithin_twins`): what one of them keeps and the other one does not is
answered by the other one with a walk of its own, which meets no mark.
-/

namespace Descent

variable {κ : Type}

namespace Derivation

/-- Nothing is being derived, and no cut is remembered. -/
structure Idle (d : Derivation κ) : Prop extends d.AtRest where
  cycleMet : d.cycleMet = false

theorem idle_fresh : (fresh : Derivation κ).Idle where
  marked := rfl
  depth := rfl
  cycleMet := rfl

end Derivation

variable [DecidableEq κ] {g : Grammar κ} {K : RuleId → Option (Expectation κ)} {id q : RuleId} {rule : Rule κ}
  {e : Expectation κ} {d d' inner : Derivation κ} {fault : Fault} {fuel : Nat}

namespace Grammar

/-! ## 1. What is left of a request -/

/-- A request from outside clears the flag that says that a cut was met, however it ends. -/
theorem expectation_idle (hresolved : ∀ q, ¬ g.Unresolved q) (id : RuleId) (d : Derivation κ) (hd : d.Idle) :
    Ensures (g.expectation id) d (fun _ d' => d'.Idle) fun _ d' => d'.Idle := by
  have cleared (fuel : Nat) :
      Ensures (g.expectationWithin fuel id) d (fun _ d' => d'.cycleMet = false) fun _ d' => d'.cycleMet = false := by
    induction fuel generalizing id with
    | zero => exact hd.cycleMet
    | succ fuel ih =>
      apply Grammar.expectationWithin_ensures
      case absent => exact fun _ => hd.cycleMet
      case unresolved => exact fun label hr => absurd ⟨label, hr⟩ (hresolved id)
      case target => exact fun _ target _ => ih target
      case known => exact fun _ _ _ _ _ => hd.cycleMet
      case mute => exact fun _ _ _ _ _ => hd.cycleMet
      case cut =>
        intro _ _ _ _ hm
        rw [hd.marked] at hm
        cases hm
      case walk =>
        intro rule walk _ _ _ _
        refine (ensures_self walk (d.enter id)).imp (fun e inner _ => ?_) fun fault inner _ => ?_
        · rw [Derivation.cycleMet_conclude, if_pos hd.depth]
        · exact if_pos hd.depth
  exact ((expectationWithin_grows g.derivationFuel id d).and (cleared g.derivationFuel)).imp
    (fun _ _ h => ⟨h.1.atRest hd.toAtRest, h.2⟩) fun _ _ h => ⟨h.1.atRest hd.toAtRest, h.2⟩

/-! ## 2. Rules whose derivation is abandoned -/

/-- While the expectation of a rule is read, the derivation of another one, or its own, is begun and ends in a fault. -/
inductive Abandons (g : Grammar κ) : Nat → RuleId → Derivation κ → RuleId → Prop
  | own {fuel : Nat} {id : RuleId} {rule : Rule κ} {d inner : Derivation κ} {fault : Fault} (hr : g.Proper id rule)
    (hknown : d.known? id = none) (hm : id ∉ d.marked)
    (h : rule.body.walk g (g.expectationWithin fuel) (d.enter id) = .error fault inner) : Abandons g (fuel + 1) id d id
  | target {fuel : Nat} {id target q : RuleId} {label : Option String} {d : Derivation κ}
    (hr : g.rule? id = some ⟨label, .placeholder (some target)⟩) (h : Abandons g fuel target d q) :
    Abandons g (fuel + 1) id d q
  | reading {fuel : Nat} {id p q : RuleId} {rule : Rule κ} {d d₁ : Derivation κ}
    {before after : List (Except Fault RuleId)} {es : List (Expectation κ)} (hr : g.Proper id rule)
    (hknown : d.known? id = none) (hm : id ∉ d.marked)
    (hasks : rule.body.asks g = before ++ .ok p :: after)
    (hread : before.mapM (Derive.ask (g.expectationWithin fuel)) (d.enter id) = .ok es d₁)
    (h : Abandons g fuel p d₁ q) :
    Abandons g (fuel + 1) id d q

/-- A body whose walk ends in a fault has a walk. -/
theorem derived?_ne_none_of_error {read read' : RuleId → Derive κ (Expectation κ)} (hr : g.Proper id rule)
    (h : rule.body.walk g read d = .error fault d') : rule.body.derived? g read' ≠ none := by
  intro hmute
  obtain ⟨answer, hb⟩ := Body.eq_of_mute hr.2 hmute
  rw [hb] at h
  cases h

/-- A walk that ends in a fault ends the derivation of its rule. -/
theorem expectationWithin_of_error (hr : g.Proper id rule) (hknown : d.known? id = none) (hm : id ∉ d.marked)
    (h : rule.body.walk g (g.expectationWithin fuel) (d.enter id) = .error fault inner) :
    g.expectationWithin (fuel + 1) id d = .error fault (inner.leave d id) := by
  have ends : Ensures (g.expectationWithin (fuel + 1) id) d (fun _ _ => False)
      fun fault' d' => fault' = fault ∧ d' = inner.leave d id := by
    apply hr.expectationWithin_ensures
    case known => exact fun _ hknown' => nomatch hknown'.symm.trans hknown
    case mute => exact fun hmute _ => derived?_ne_none_of_error hr h hmute
    case cut => exact fun _ hm' => hm hm'
    case walk =>
      rw [Ensures, h]
      exact fun _ _ => ⟨rfl, rfl⟩
  obtain ⟨_, _, hx, rfl, rfl⟩ := ends.exists_error
  exact hx

/-- A walk keeps nothing for a marked rule if its readings do not. -/
theorem walk_unkept {b : Body κ}
    (hread : ∀ p d, d.known? q = none → q ∈ d.marked →
      Ensures (g.expectationWithin fuel p) d (fun _ d' => d'.known? q = none) fun _ d' => d'.known? q = none)
    (hknown : d.known? q = none) (hm : q ∈ d.marked) :
    Ensures (b.walk g (g.expectationWithin fuel)) d (fun _ d' => d'.known? q = none)
      fun _ d' => d'.known? q = none := by
  let Unkept (d : Derivation κ) : Prop := d.known? q = none ∧ q ∈ d.marked
  refine (Body.walk_ensures (I := Unkept) (J := fun _ => True) (R := fun _ _ => True) (E := fun _ => Unkept)
    (fun p _ d₁ hd₁ => ?_) (fun _ _ _ hd₁ => hd₁) (fun _ _ _ hd₁ _ _ => hd₁) ⟨hknown, hm⟩).imp (fun _ _ h => h.1.1)
    fun _ _ h => h.1
  refine ((expectationWithin_grows fuel p d₁).and (hread p d₁ hd₁.1 hd₁.2)).imp ?_ ?_
  · exact fun e d₂ ⟨hgrows, hd₂⟩ => ⟨⟨hd₂, hgrows.marked ▸ hd₁.2⟩, fun _ => ⟨trivial, trivial⟩⟩
  · exact fun fault d₂ ⟨hgrows, hd₂⟩ => ⟨hd₂, hgrows.marked ▸ hd₁.2⟩

/-- Nothing is kept for a rule while it is marked. -/
theorem expectationWithin_unkept (hq : g.Proper q rule) (hwalk : ∀ read, rule.body.derived? g read ≠ none) (fuel : Nat)
    (id : RuleId) (d : Derivation κ) (hknown : d.known? q = none) (hm : q ∈ d.marked) :
    Ensures (g.expectationWithin fuel id) d (fun _ d' => d'.known? q = none) fun _ d' => d'.known? q = none := by
  induction fuel generalizing id d with
  | zero => exact hknown
  | succ fuel ih =>
    apply Grammar.expectationWithin_ensures
    case absent => exact fun _ => hknown
    case unresolved => exact fun _ _ => hknown
    case target => exact fun _ target _ => ih target d hknown hm
    case known => exact fun _ _ _ _ _ => hknown
    case mute =>
      intro rule' hr _ hmute _
      rw [Derivation.known?_keep, if_neg]
      · exact hknown
      · rintro rfl
        cases hr.symm.trans hq.1
        exact hwalk _ hmute
    case cut => exact fun _ _ _ _ _ => hknown
    case walk =>
      intro rule' walk _ hwalk' _ hid
      rw [Body.derived?_eq_walk hwalk']
      have hne : q ≠ id := by
        rintro rfl
        exact hid hm
      refine (walk_unkept (d := d.enter id) ih hknown (List.mem_cons_of_mem _ hm)).imp (fun e inner hinner => ?_)
        fun _ _ hinner => hinner
      rwa [Derivation.known?_conclude_of_ne hne]

/-- A rule that is read to a fault is one whose derivation is abandoned. -/
theorem abandons_of_error (hr : g.Proper id rule) (h : g.expectationWithin (fuel + 1) id d = .error fault d') :
    g.Abandons (fuel + 1) id d id := by
  have abandons : Ensures (g.expectationWithin (fuel + 1) id) d (fun _ _ => True)
      fun _ _ => g.Abandons (fuel + 1) id d id := by
    apply hr.expectationWithin_ensures
    case known => exact fun _ _ => trivial
    case mute => exact fun _ _ => trivial
    case cut => exact fun _ _ => trivial
    case walk =>
      exact fun hknown hm => (ensures_self _ _).imp (fun _ _ _ => trivial) fun _ _ h => .own hr hknown hm h
  exact abandons.error h

/-- **Nothing is kept for a rule whose derivation is abandoned**, and the reading that this was part of ends in a
fault. -/
theorem Abandons.unkept (h : g.Abandons fuel id d q) :
    ∃ fault d', g.expectationWithin fuel id d = .error fault d' ∧ d'.known? q = none := by
  induction h with
  | @own fuel id rule d inner fault hr hknown hm h =>
    refine ⟨fault, _, expectationWithin_of_error hr hknown hm h, ?_⟩
    have unkept : inner.known? id = none := by
      refine (walk_unkept (d := d.enter id) (expectationWithin_unkept hr (fun _ => ?_) fuel) hknown
        List.mem_cons_self).error h
      exact derived?_ne_none_of_error hr h
    exact unkept
  | target hr _ ih =>
    rw [expectationWithin, hr]
    exact ih
  | @reading fuel id p q rule d d₁ before after es hr hknown hm hasks hread _ ih =>
    obtain ⟨fault, d₂, hp, hq⟩ := ih
    refine ⟨fault, d₂.leave d id, expectationWithin_of_error hr hknown hm ?_, hq⟩
    have rest : ((Except.ok p :: after).mapM (Derive.ask (g.expectationWithin fuel))) d₁ = .error fault d₂ := by
      rw [List.mapM_cons]
      exact bind_apply_of_error hp
    refine bind_apply_of_error ?_
    rw [hasks, List.mapM_append, bind_apply_of_ok hread]
    exact bind_apply_of_error rest

end Grammar

/-! ## 3. Two bookkeepings on one table -/

/-- Two bookkeepings at one point of a walk that build on one table, whatever each of them keeps to save work. -/
structure Derivation.Twins (g : Grammar κ) (K : RuleId → Option (Expectation κ)) (d d' : Derivation κ) : Prop where
  left : d.BuildsOn g K
  right : d'.BuildsOn g K
  marked : d'.marked = d.marked
  depth : d'.depth = d.depth
  /-- inside of a walk -/
  cycleMet : 0 < d.depth → d'.cycleMet = d.cycleMet

/-- The end of two walks in step, for a rule that is not grounded. From outside the answer is put in the table, and
inside of a walk it is not kept, since a cut was met. -/
theorem Derivation.Twins.conclude {inner' : Derivation κ} (hd : Derivation.Twins g K d d')
    (h : Derivation.Twins g K inner inner') (hK : K id = none) (hid : ∀ a, ¬ g.Grounded K id a)
    (hcut : inner.cycleMet = false → g.Grounded K id e) (hdepth : inner.depth = d.depth + 1) :
    ∃ K', Derivation.Twins g K' (d.conclude inner id e) (d'.conclude inner' id e) ∧ (0 < d.depth → K' = K) := by
  have marked : (d'.conclude inner' id e).marked = (d.conclude inner id e).marked := by
    rw [marked_conclude, marked_conclude, h.marked]
  have depth : (d'.conclude inner' id e).depth = (d.conclude inner id e).depth := by
    rw [depth_conclude, depth_conclude, h.depth]
  by_cases hzero : d.depth = 0
  · refine ⟨_, ⟨h.left.start hid hzero e, h.right.start hid (hd.depth.trans hzero) e, marked, depth, fun hpos => ?_⟩,
      fun hpos => absurd hzero hpos.ne'⟩
    rw [depth_conclude, hdepth, hzero] at hpos
    exact absurd hpos (Nat.lt_irrefl 0)
  · have same : inner'.cycleMet = inner.cycleMet := h.cycleMet (hdepth ▸ Nat.succ_pos d.depth)
    have left : d.depth = 0 ∨ inner.cycleMet = false → g.Grounded K id e := fun h => hcut (h.resolve_left hzero)
    have right : d'.depth = 0 ∨ inner'.cycleMet = false → g.Grounded K id e := by rwa [hd.depth, same]
    refine ⟨K, ⟨h.left.conclude hK left, h.right.conclude hK right, marked, depth, fun _ => ?_⟩, fun _ => rfl⟩
    rw [cycleMet_conclude, cycleMet_conclude, hd.depth, same, hd.cycleMet (Nat.pos_of_ne_zero hzero)]

namespace Grammar

/-- What is grounded is answered alike, however much of it is kept. -/
theorem Grounded.answered_alike (h : g.Grounded K id e) (hd : Derivation.Twins g K d d')
    (hmarks : ∀ m ∈ d.marked, Relation.TransGen (g.Unfolds K) m id) (hfuel : g.Suffices fuel d.marked id) :
    EnsuresBoth (g.expectationWithin fuel id) d (g.expectationWithin fuel id) d'
      (fun e d₁ e' d₁' => e = e' ∧ d.Grows d₁ ∧ Derivation.Twins g K d₁ d₁') fun _ _ => True := by
  have answered {d : Derivation κ} (hd : d.BuildsOn g K)
      (hmarks : ∀ m ∈ d.marked, Relation.TransGen (g.Unfolds K) m id) (hfuel : g.Suffices fuel d.marked id) :
      ∃ d₁, g.expectationWithin fuel id d = .ok e d₁ ∧ d.Grows d₁ ∧ d₁.BuildsOn g K ∧
        (0 < d.depth → d₁.cycleMet = d.cycleMet) := by
    have answered := (expectationWithin_grows fuel id d).and (h.answered fuel d hd hmarks)
    obtain ⟨_, d₁, hx, hgrows, rfl, hafter⟩ := (answered.imp (fun _ _ h => h) fun _ _ h => h.2 hfuel).exists_ok
    exact ⟨d₁, hx, hgrows, hafter⟩
  obtain ⟨d₁, hx, hgrows, hd₁, hcut⟩ := answered hd.left hmarks hfuel
  obtain ⟨d₁', hx', hgrows', hd₁', hcut'⟩ := answered hd.right (hd.marked ▸ hmarks) (hd.marked ▸ hfuel)
  unfold EnsuresBoth
  rw [hx, hx']
  refine ⟨rfl, hgrows, hd₁, hd₁', ?_, ?_, fun hdepth => ?_⟩
  · rw [hgrows'.marked, hgrows.marked, hd.marked]
  · rw [hgrows'.depth, hgrows.depth, hd.depth]
  · rw [hgrows.depth] at hdepth
    rw [hcut' (hd.depth ▸ hdepth), hcut hdepth, hd.cycleMet hdepth]

/-- The walks of twins over the body of a rule go in step if their readings do. -/
theorem walk_twins
    (hread : ∀ q d d', Derivation.Twins g K d d' → (∀ m ∈ d.marked, Relation.TransGen (g.Unfolds K) m q) →
      g.Suffices fuel d.marked q → EnsuresBoth (g.expectationWithin fuel q) d (g.expectationWithin fuel q) d'
        (fun e d₁ e' d₁' => e = e' ∧ d.Grows d₁ ∧ ∃ K', Derivation.Twins g K' d₁ d₁' ∧ (0 < d.depth → K' = K))
        fun _ _ => True)
    (hr : g.Proper id rule) (hK : K id = none) (hd : Derivation.Twins g K d d')
    (hmarks : ∀ m ∈ d.marked, Relation.TransGen (g.Unfolds K) m id) (hfuel : g.Suffices (fuel + 1) d.marked id)
    (hm : id ∉ d.marked) :
    EnsuresBoth (rule.body.walk g (g.expectationWithin fuel)) (d.enter id)
      (rule.body.walk g (g.expectationWithin fuel)) (d'.enter id)
      (fun e inner e' inner' => e = e' ∧ (d.enter id).Grows inner ∧ Derivation.Twins g K inner inner')
      fun _ _ => True := by
  refine Body.walk_alike (I := fun d₁ d₁' => (d.enter id).Grows d₁ ∧ Derivation.Twins g K d₁ d₁') ?_
    (fun _ _ _ => trivial) ⟨.refl _, ?_⟩
  · rintro q hq d₁ d₁' ⟨hgrows, hd₁⟩
    have edge : g.Unfolds K id q := Or.inr ⟨hK, rule, hr.1, hq⟩
    refine (hread q d₁ d₁' hd₁ ?_ ?_).imp ?_ fun _ _ h => h
    · rw [hgrows.marked]
      exact List.forall_mem_cons.mpr ⟨.single edge, fun m hm => (hmarks m hm).tail edge⟩
    · rw [hgrows.marked]
      exact hfuel.2 rule hr hm q hq
    · rintro e d₂ e' d₂' ⟨rfl, hgrows', K', hd₂, hK'⟩
      obtain rfl := hK' (hgrows.depth ▸ Nat.succ_pos d.depth)
      exact ⟨rfl, hgrows.trans hgrows', hd₂⟩
  · exact ⟨⟨hd.left.keeps, hd.left.grounded⟩, ⟨hd.right.keeps, hd.right.grounded⟩, congrArg (id :: ·) hd.marked,
      congrArg (· + 1) hd.depth, fun _ => rfl⟩

/-- **Twins answer alike**, and stay twins: inside of a walk on the same table, from outside on one with the answer. -/
theorem expectationWithin_twins (fuel : Nat) (id : RuleId) (d d' : Derivation κ) (hd : Derivation.Twins g K d d')
    (hmarks : ∀ m ∈ d.marked, Relation.TransGen (g.Unfolds K) m id) (hfuel : g.Suffices fuel d.marked id) :
    EnsuresBoth (g.expectationWithin fuel id) d (g.expectationWithin fuel id) d'
      (fun e d₁ e' d₁' => e = e' ∧ d.Grows d₁ ∧ ∃ K', Derivation.Twins g K' d₁ d₁' ∧ (0 < d.depth → K' = K))
      fun _ _ => True := by
  induction fuel generalizing id d d' with
  | zero => exact hfuel.elim
  | succ fuel ih =>
    by_cases hid : ∃ a, g.Grounded K id a
    · obtain ⟨a, ha⟩ := hid
      refine (ha.answered_alike hd hmarks hfuel).imp ?_ fun _ _ h => h
      exact fun _ _ _ _ ⟨he, hgrows, h⟩ => ⟨he, hgrows, K, h, fun _ => rfl⟩
    · have hid : ∀ a, ¬ g.Grounded K id a := fun a ha => hid ⟨a, ha⟩
      have cut : Derivation.Twins g K { d with cycleMet := true } { d' with cycleMet := true } :=
        ⟨⟨hd.left.keeps, hd.left.grounded⟩, ⟨hd.right.keeps, hd.right.grounded⟩, hd.marked, hd.depth, fun _ => rfl⟩
      cases hr : g.rule? id with
      | none =>
        unfold EnsuresBoth
        rw [expectationWithin, hr]
        exact ⟨rfl, trivial⟩
      | some rule =>
        by_cases hp : ∀ target, rule.body ≠ .placeholder target
        · have proper : g.Proper id rule := ⟨hr, hp⟩
          have unknown {d : Derivation κ} (hd : d.BuildsOn g K) : d.known? id = none :=
            Option.eq_none_iff_forall_ne_some.mpr fun e he => hid e (hd.grounded id rule e proper he)
          have hK := hd.left.table_none (unknown hd.left)
          cases hwalk : rule.body.derived? g (g.expectationWithin fuel) with
          | none => exact absurd (.of_mute proper hK hwalk) (hid .empty)
          | some walk =>
            have grounded := walk_buildsOn (fun q => expectationWithin_buildsOn fuel q) proper hK hwalk hd.left
            unfold EnsuresBoth
            rw [proper.expectationWithin_eq (unknown hd.left) hwalk,
              proper.expectationWithin_eq (unknown hd.right) hwalk]
            by_cases hm : id ∈ d.marked
            · rw [if_pos hm, if_pos (hd.marked ▸ hm)]
              exact ⟨rfl, d.grows_cycleMet true, K, cut, fun _ => rfl⟩
            · rw [if_neg hm, if_neg (hd.marked ▸ hm)]
              obtain rfl := Body.derived?_eq_walk hwalk
              have walks := (walk_twins ih proper hK hd hmarks hfuel hm).and_left grounded
              refine ensuresBoth_deriveMarked (walks.imp ?_ fun _ _ h => h)
              rintro e inner _ inner' ⟨⟨rfl, hgrows, hinner⟩, -, hgrounded⟩
              exact ⟨rfl, hgrows.conclude (unknown hd.left) e, hd.conclude hinner hK hid hgrounded hgrows.depth⟩
        · obtain ⟨label, b⟩ := rule
          obtain ⟨target, hb⟩ := not_forall_not.mp hp
          cases hb
          unfold EnsuresBoth
          rw [expectationWithin, hr]
          cases target with
          | none => exact ⟨rfl, d.grows_cycleMet true, K, cut, fun _ => rfl⟩
          | some target =>
            exact ih target d d' hd (fun m hm => (hmarks m hm).tail (Or.inl ⟨label, hr⟩)) (hfuel.1 label target hr)

/-! ## 4. Requests -/

/-- Those of some requests in a row that end in an answer. -/
def answered (g : Grammar κ) : List RuleId → Derivation κ → List RuleId
  | [], _ => []
  | id :: ids, d =>
    match g.expectation id d with
    | .ok _ d' => id :: g.answered ids d'
    | .error _ d' => g.answered ids d'

/-- Requests that end in a fault may be left out, as far as the table is concerned. -/
theorem requests_twins (hguarded : g.IsGuarded) (hresolved : ∀ q, ¬ g.Unresolved q) (ids : List RuleId) (hd : d.Idle)
    (hd' : d'.Idle) (h : Derivation.Twins g K d d') :
    ∃ K', Derivation.Twins g K' (g.requests ids d) (g.requests (g.answered ids d) d') := by
  induction ids generalizing d d' K with
  | nil => exact ⟨K, h⟩
  | cons id ids ih =>
    have marks : ∀ m ∈ d.marked, Relation.TransGen (g.Unfolds K) m id := hd.marked ▸ nofun
    have twins := expectationWithin_twins g.derivationFuel id d d' h marks (hguarded.suffices d.marked id)
    have idle := expectation_idle hresolved id d hd
    have idle' := expectation_idle hresolved id d' hd'
    cases hx : g.expectation id d with
    | ok e d₁ =>
      obtain ⟨_, d₁', hx', -, -, K', h₁, -⟩ := twins.ok hx
      have hx' : g.expectation id d' = .ok _ d₁' := hx'
      have next := ih (idle.ok hx) (idle'.ok hx') h₁
      simpa only [requests, answered, List.foldl_cons, request, hx, hx'] using next
    | error fault d₁ =>
      have left := (expectationWithin_buildsOn g.derivationFuel id d h.left).error hx
      have hidle := idle.error hx
      have h₁ : Derivation.Twins g K d₁ d' := by
        refine ⟨left, h.right, ?_, ?_, fun _ => ?_⟩
        · rw [hidle.marked, hd'.marked]
        · rw [hidle.depth, hd'.depth]
        · rw [hidle.cycleMet, hd'.cycleMet]
      have next := ih hidle hd' h₁
      simpa only [requests, answered, List.foldl_cons, request, hx] using next

/-- **A request that ends in a fault leaves no trace.** Expectations are requested from outside, any of them in any
order, and some requests end in a fault, which the caller gets over. After each of them nothing is being derived and no
cut is remembered. Nothing is kept for a rule whose derivation was abandoned, such as the one that was asked for. And
every request ends as if those that ended in a fault had never been made; if no rule that may raise can be reached, in
an answer. -/
theorem requests_abandoned (hg : g.IsSelfContained) (hguarded : g.IsGuarded) (hresolved : ∀ q, ¬ g.Unresolved q)
    (ids : List RuleId) :
    let d := g.requests ids .fresh
    let d₀ := g.requests (g.answered ids .fresh) .fresh
    (d.marked = [] ∧ d.depth = 0 ∧ d.cycleMet = false) ∧
    (∀ id fault d', g.expectation id d = .error fault d' →
      (∀ rule, g.Proper id rule → g.Abandons g.derivationFuel id d id) ∧
        ∀ q, g.Abandons g.derivationFuel id d q → d'.known? q = none) ∧
    ∀ id, EnsuresBoth (g.expectation id) d (g.expectation id) d₀ (fun e _ e₀ _ => e = e₀) (fun _ _ => True) ∧
      (id < g.rules.size → (∀ p, Relation.ReflTransGen g.Consults id p → ¬ g.MayRaise p) →
        ∃ e d₁ d₂, g.expectation id d = .ok e d₁ ∧ g.expectation id d₀ = .ok e d₂) := by
  intro d d₀
  have idle : d.Idle := requests_leave (expectation_idle hresolved) ids Derivation.idle_fresh
  have fresh : Derivation.Twins g (fun _ => none) .fresh .fresh :=
    ⟨⟨nofun, nofun⟩, ⟨nofun, nofun⟩, rfl, rfl, fun _ => rfl⟩
  obtain ⟨K, twins⟩ := requests_twins hguarded hresolved ids Derivation.idle_fresh Derivation.idle_fresh fresh
  have alike (id : RuleId) :
      EnsuresBoth (g.expectation id) d (g.expectation id) d₀ (fun e _ e₀ _ => e = e₀) fun _ _ => True :=
    (expectationWithin_twins g.derivationFuel id d d₀ twins (idle.marked ▸ nofun)
      (hguarded.suffices d.marked id)).imp (fun _ _ _ _ h => h.1) fun _ _ h => h
  refine ⟨⟨idle.marked, idle.depth, idle.cycleMet⟩, fun id fault d' h => ⟨fun rule hr => ?_, fun q hq => ?_⟩, fun id =>
    ⟨alike id, fun hid hquiet => ?_⟩⟩
  · obtain ⟨fuel, hfuel⟩ := Nat.exists_eq_succ_of_ne_zero (Nat.mul_pos g.rules.size.succ_pos (Nat.succ_pos _)).ne'
    have hfuel : g.derivationFuel = fuel + 1 := hfuel
    rw [expectation, hfuel] at h
    rw [hfuel]
    exact abandons_of_error hr h
  · obtain ⟨_, _, h', hunkept⟩ := hq.unkept
    cases h.symm.trans h'
    exact hunkept
  · obtain ⟨e, d₁, h, -⟩ := ((expectationWithin_unraised g.derivationFuel id d (hg.lt_size hid) hquiet).imp
      (fun _ _ h => h) fun _ _ h => h.2 (hguarded.suffices d.marked id)).exists_ok
    obtain ⟨_, d₂, h₂, rfl⟩ := (alike id).ok h
    exact ⟨e, d₁, d₂, h, h₂⟩

end Grammar

/-- A list in brackets of which one branch reads the list by its name and then refuses, and a rule with a circle of its
own apart from it. -/
def brokenList : Grammar FixedMatcher where
  rules := #[⟨none, .token (.literal "a" true) none⟩, ⟨none, .placeholder (some 3)⟩,
    ⟨none, .handWritten (fun _ => .ok (.failed 0 [] [])) (some ⟨["list"], fun _ => .error (.refused "bad grammar")⟩)⟩,
    ⟨none, .either [0, 4, 2]⟩, ⟨none, .sequence [1, 0]⟩, ⟨none, .placeholder (some 6)⟩, ⟨none, .either [5, 0]⟩]
  names := [("list", .rule 4)]
  customs := 0

theorem brokenList_isGuarded : brokenList.IsGuarded := by
  have hands {p q : RuleId} (h : brokenList.HandsOn p q) : p ∈ [1, 5] ∧ q ∈ [3, 6] := by
    obtain ⟨label, h⟩ := h
    match p, h with
    | 1, h | 5, h => cases h; decide
    | 0, h | 2, h | 3, h | 4, h | 6, h => cases h
  intro id h
  obtain ⟨q, hq, -⟩ := Relation.TransGen.head'_iff.mp h
  obtain ⟨p, -, hp⟩ := Relation.TransGen.tail'_iff.mp h
  have first := (hands hq).1
  have last := (hands hp).2
  simp only [List.mem_cons, List.not_mem_nil, or_false] at first
  rcases first with rfl | rfl <;> exact absurd last (by decide)

theorem brokenList_resolved (q : RuleId) : ¬ brokenList.Unresolved q := by
  rintro ⟨label, hr⟩
  match q, hr with
  | 0, hr | 1, hr | 2, hr | 3, hr | 4, hr | 5, hr | 6, hr => cases hr

/-- What stands apart cannot reach the rule that refuses. -/
theorem brokenList_quiet {p : RuleId} (h : Relation.ReflTransGen brokenList.Consults 6 p) :
    ¬ brokenList.MayRaise p := by
  have apart : p ∈ [6, 5, 0] := by
    induction h with
    | refl => decide
    | @tail p q _ hpq ih =>
      obtain ⟨rule, hr, hq⟩ := hpq
      simp only [List.mem_cons, List.not_mem_nil, or_false] at ih
      rcases ih with rfl | rfl | rfl <;> cases hr
      · exact (show ∀ q ∈ [5, 0], q ∈ [6, 5, 0] by decide) q hq
      · cases List.mem_singleton.mp hq
        decide
      · cases hq
  simp only [List.mem_cons, List.not_mem_nil, or_false] at apart
  rcases apart with rfl | rfl | rfl <;> exact Grammar.not_mayRaise rfl trivial

/-- The list is asked for, then what stands apart, then the list again by one of its branches. The first and the last
request end in a fault, and the next one would do so too and would keep nothing for the list or the branch that refuses;
what stands apart is answered as if it had been asked for alone. -/
theorem requests_abandoned_brokenList :
    brokenList.IsSelfContained ∧ brokenList.IsGuarded ∧ (∀ q, ¬ brokenList.Unresolved q) ∧
      brokenList.answered [3, 6, 4] .fresh = [6] ∧
      let d := brokenList.requests [3, 6, 4] .fresh
      (d.marked = [] ∧ d.depth = 0 ∧ d.cycleMet = false) ∧
      (∃ d', brokenList.expectation 3 d = .error (.refused "bad grammar") d' ∧ d'.known? 3 = none ∧
        d'.known? 2 = none) ∧
      ∃ e d₁ d₂, brokenList.expectation 6 d = .ok e d₁ ∧
        brokenList.expectation 6 (brokenList.requests [6] .fresh) = .ok e d₂ := by
  have hg : brokenList.IsSelfContained := by decide
  have answered : brokenList.answered [3, 6, 4] .fresh = [6] := rfl
  obtain ⟨idle, abandoned, alike⟩ := Grammar.requests_abandoned hg brokenList_isGuarded brokenList_resolved [3, 6, 4]
  have again := (alike 6).2 (by decide) fun p => brokenList_quiet
  rw [answered] at again
  refine ⟨hg, brokenList_isGuarded, brokenList_resolved, answered, idle, ?_, again⟩
  have failed : brokenList.expectation 3 (brokenList.requests [3, 6, 4] .fresh) =
    .error (.refused "bad grammar") _ := rfl
  obtain ⟨itself, unkept⟩ := abandoned 3 _ _ failed
  refine ⟨_, failed, unkept 3 (itself _ ⟨rfl, nofun⟩), unkept 2 ?_⟩
  -- the letter and the branch that begins with the list have been read by then
  have asks : (Body.either (κ := FixedMatcher) [0, 4, 2]).asks brokenList = [.ok 0, .ok 4] ++ .ok 2 :: [] := rfl
  show brokenList.Abandons (71 + 1) 3 _ 2
  exact .reading ⟨rfl, nofun⟩ rfl (by decide) asks rfl (.own ⟨rfl, nofun⟩ rfl (by decide) rfl)

end Descent
