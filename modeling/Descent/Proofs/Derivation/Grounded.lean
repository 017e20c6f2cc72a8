import Descent.Proofs.Derivation.Bounds

/-!
# Answers that need no cut

Given a table of answers, the expectation of a rule is *grounded* if it follows from the table and from rules that read
one another in no circle (`Grammar.Grounded`). Nothing else can be said for it, so it does not matter who derives it,
from inside of which rules, or whether whoever wanted it got an answer.

The table stands for the requests from outside that were answered: what these start a walk with is kept whatever was
cut, and there is no more to it than that it was answered. **All else that is ever kept is grounded in the table**
(`Grammar.expectationWithin_buildsOn`), also by a walk that ends in a fault; and a grounded rule is answered
accordingly, inside of any walk, without meeting a mark (`Grammar.Grounded.answered`). So the bookkeeping is the table,
up to what is kept to save work (`Derivation.BuildsOn`).
-/

namespace Descent

variable {κ : Type}

variable {g : Grammar κ}

/-! ## 1. Grounded expectations -/

/-- The expectation of a rule that is not in the table is derived by reading that of another one. -/
def Grammar.Unfolds (g : Grammar κ) (K : RuleId → Option (Expectation κ)) (p q : RuleId) : Prop :=
  g.HandsOn p q ∨ K p = none ∧ g.Consults p q

variable [DecidableEq κ]

/-- The expectation of a rule follows from a table, and from rules that read one another in no circle. -/
inductive Grammar.Grounded (g : Grammar κ) (K : RuleId → Option (Expectation κ)) : RuleId → Expectation κ → Prop
  | given {id : RuleId} {rule : Rule κ} {e : Expectation κ} (hr : g.Proper id rule) (h : K id = some e) :
    Grounded g K id e
  | target {id target : RuleId} {label : Option String} {e : Expectation κ}
    (hr : g.rule? id = some ⟨label, .placeholder (some target)⟩) (h : Grounded g K target e) : Grounded g K id e
  | rule {id : RuleId} {rule : Rule κ} {S : RuleId → Expectation κ} {e : Expectation κ} (hr : g.Proper id rule)
    (hK : K id = none) (hfinds : rule.body.Finds g) (hreads : ∀ q ∈ rule.body.reads g, Grounded g K q (S q))
    (h : rule.body.concluded ((rule.body.reads g).map S) = .ok e) : Grounded g K id e

variable {K : RuleId → Option (Expectation κ)} {id q : RuleId} {rule : Rule κ} {e e' : Expectation κ}
  {d d' inner : Derivation κ}

namespace Grammar.Grounded

theorem unique (h : g.Grounded K id e) (h' : g.Grounded K id e') : e = e' := by
  induction h generalizing e' with
  | given hr h =>
    cases h' with
    | given _ h' => exact Option.some.inj (h.symm.trans h')
    | target hr' _ => exact absurd hr' (hr.ne_target _ _)
    | rule _ hK _ _ _ => cases h.symm.trans hK
  | target hr _ ih =>
    cases h' with
    | given hr' _ => exact absurd hr (hr'.ne_target _ _)
    | target hr' h' => cases hr.symm.trans hr'; exact ih h'
    | rule hr' _ _ _ _ => exact absurd hr (hr'.ne_target _ _)
  | rule hr hK _ _ h ih =>
    cases h' with
    | given _ h' => cases h'.symm.trans hK
    | target hr' _ => exact absurd hr' (hr.ne_target _ _)
    | rule hr' _ _ hreads h' =>
      cases hr.1.symm.trans hr'.1
      rw [List.map_congr_left fun q hq => ih q hq (hreads q hq)] at h
      exact Except.ok.inj (h.symm.trans h')

/-- All that is grounded, as a function. -/
theorem exists_fun (g : Grammar κ) (K : RuleId → Option (Expectation κ)) :
    ∃ S : RuleId → Expectation κ, ∀ q e, g.Grounded K q e → S q = e := by
  classical
  refine ⟨fun q => if h : ∃ e, g.Grounded K q e then h.choose else .empty, fun q e he => ?_⟩
  have h : ∃ e, g.Grounded K q e := ⟨e, he⟩
  dsimp only
  rw [dif_pos h]
  exact h.choose_spec.unique he

/-- A walk that reads grounded expectations only comes to a grounded one. -/
theorem of_walk {es : List (Expectation κ)} (hr : g.Proper id rule) (hK : K id = none) (hfinds : rule.body.Finds g)
    (hreads : List.Forall₂ (g.Grounded K) (rule.body.reads g) es) (h : rule.body.concluded es = .ok e) :
    g.Grounded K id e := by
  obtain ⟨S, hS⟩ := exists_fun g K
  have hes : (rule.body.reads g).map S = es := by
    rw [← List.forall₂_eq_eq_eq, List.forall₂_map_left_iff]
    exact hreads.imp hS
  subst hes
  rw [List.forall₂_map_right_iff, List.forall₂_same] at hreads
  exact .rule hr hK hfinds hreads h

/-- A hand-written rule without a derivation of its own shows nothing. -/
theorem of_mute {read : RuleId → Derive κ (Expectation κ)} (hr : g.Proper id rule) (hK : K id = none)
    (hmute : rule.body.derived? g read = none) : g.Grounded K id .empty := by
  obtain ⟨answer, hb⟩ := Body.eq_of_mute hr.2 hmute
  have reads : rule.body.reads g = [] := by rw [hb]; rfl
  have concluded : rule.body.concluded [] = .ok .empty := by rw [hb]; rfl
  exact .of_walk hr hK (by rw [hb]; rfl) (reads ▸ .nil) concluded

/-- **What is grounded does not unfold into itself.** -/
theorem acyclic (h : g.Grounded K id e) : ¬ Relation.TransGen (g.Unfolds K) id id := by
  intro hcircle
  induction h with
  | given hr h =>
    obtain ⟨q, ⟨label, hq⟩ | ⟨hK, -⟩, -⟩ := Relation.TransGen.head'_iff.mp hcircle
    · exact hr.ne_target _ _ hq
    · cases h.symm.trans hK
  | target hr _ ih =>
    obtain ⟨q, hq, hpath⟩ := Relation.TransGen.head'_iff.mp hcircle
    have circle := Relation.TransGen.tail' hpath hq
    rcases hq with ⟨label, hq⟩ | ⟨-, rule, hrule, hq⟩
    · cases hr.symm.trans hq
      exact ih circle
    · cases hr.symm.trans hrule
      cases List.mem_singleton.mp hq
      exact ih circle
  | rule hr hK _ _ _ ih =>
    obtain ⟨q, hq, hpath⟩ := Relation.TransGen.head'_iff.mp hcircle
    have circle := Relation.TransGen.tail' hpath hq
    rcases hq with ⟨label, hq⟩ | ⟨-, rule, hrule, hq⟩
    · exact hr.ne_target _ _ hq
    · cases hr.1.symm.trans hrule
      exact ih q hq circle

/-- An answer for a rule that is not grounded may be put in the table. -/
theorem update (h : g.Grounded K q e) (hid : ∀ a, ¬ g.Grounded K id a) (a : Expectation κ) :
    g.Grounded (Function.update K id (some a)) q e := by
  induction h with
  | @given q rule e hr h =>
    have hne : q ≠ id := by
      rintro rfl
      exact hid e (.given hr h)
    exact .given hr ((Function.update_of_ne hne _ K).trans h)
  | target hr _ ih => exact .target hr ih
  | @rule q rule S e hr hK hfinds hreads h ih =>
    have hne : q ≠ id := by
      rintro rfl
      exact hid e (.rule hr hK hfinds hreads h)
    exact .rule hr ((Function.update_of_ne hne _ K).trans hK) hfinds ih h

end Grammar.Grounded

/-! ## 2. What is kept -/

/-- All that is in the table is kept, and all else that is kept is grounded in it. -/
structure Derivation.BuildsOn (d : Derivation κ) (g : Grammar κ) (K : RuleId → Option (Expectation κ)) : Prop where
  keeps : ∀ id e, K id = some e → d.known? id = some e
  grounded : ∀ id rule e, g.Proper id rule → d.known? id = some e → g.Grounded K id e

namespace Derivation

theorem buildsOn_known (d : Derivation κ) (g : Grammar κ) : d.BuildsOn g d.known? where
  keeps _ _ h := h
  grounded _ _ _ hr h := .given hr h

namespace BuildsOn

theorem table_none (hd : d.BuildsOn g K) (h : d.known? id = none) : K id = none :=
  Option.eq_none_iff_forall_ne_some.mpr fun e hK => nomatch h.symm.trans (hd.keeps id e hK)

theorem keep (hd : d.BuildsOn g K) (hK : K id = none) (h : g.Grounded K id e) : (d.keep id e).BuildsOn g K where
  keeps q a hq := by
    rw [known?_keep, if_neg]
    · exact hd.keeps q a hq
    · rintro rfl
      cases hK.symm.trans hq
  grounded q rule a hr hq := by
    rw [known?_keep] at hq
    split at hq
    next heq => cases heq; cases hq; exact h
    next => exact hd.grounded q rule a hr hq

/-- What is kept at the end of a walk has to be grounded. -/
theorem conclude (hinner : inner.BuildsOn g K) (hK : K id = none)
    (hkept : d.depth = 0 ∨ inner.cycleMet = false → g.Grounded K id e) : (d.conclude inner id e).BuildsOn g K := by
  have left : (inner.leave d id).BuildsOn g K := ⟨hinner.keeps, hinner.grounded⟩
  rw [Derivation.conclude]
  split
  next h => exact left.keep hK (hkept (by simpa using h))
  next => exact left

/-- What a walk from outside comes to is put in the table. -/
theorem start (hinner : inner.BuildsOn g K) (hid : ∀ a, ¬ g.Grounded K id a) (hdepth : d.depth = 0)
    (e : Expectation κ) :
    (d.conclude inner id e).BuildsOn g (Function.update K id (some e)) := by
  have kept (q : RuleId) : (d.conclude inner id e).known? q = if id = q then some e else inner.known? q := by
    rw [Derivation.conclude, hdepth, if_pos (by simp), known?_keep]
    rfl
  refine ⟨fun q a hq => ?_, fun q rule a hr hq => ?_⟩
  · rw [kept]
    split
    next heq => rwa [heq, Function.update_self] at hq
    next hne =>
      rw [Function.update_of_ne (fun heq => hne heq.symm)] at hq
      exact hinner.keeps q a hq
  · rw [kept] at hq
    split at hq
    next heq =>
      cases heq
      exact .given hr (by rw [Function.update_self, hq])
    next => exact (hinner.grounded q rule a hr hq).update hid e

end BuildsOn

end Derivation

/-! ## 3. Walks -/

namespace Grammar

/-- The account of reading an expectation inside of a walk: whatever is kept is grounded, and so is the answer, if no
cut is noted. -/
def AnswersGrounded (g : Grammar κ) (K : RuleId → Option (Expectation κ)) : Account κ := fun id d e d' =>
  0 < d.depth → d'.BuildsOn g K ∧ (d'.cycleMet = false → d.cycleMet = false ∧ g.Grounded K id e)

theorem walk_buildsOn {read : RuleId → Derive κ (Expectation κ)} {walk : Derive κ (Expectation κ)}
    (hread : ∀ q d, d.BuildsOn g K → Ensures (read q) d (fun e d' => d.Grows d' ∧ g.AnswersGrounded K q d e d')
      fun _ d' => d'.BuildsOn g K)
    (hr : g.Proper id rule) (hK : K id = none) (hwalk : rule.body.derived? g read = some walk) (hd : d.BuildsOn g K) :
    Ensures walk (d.enter id)
      (fun e inner => inner.BuildsOn g K ∧ (inner.cycleMet = false → g.Grounded K id e))
      fun _ inner => inner.BuildsOn g K := by
  rw [Body.derived?_eq_walk hwalk]
  refine (Body.walk_ensures (I := fun d => d.BuildsOn g K ∧ 0 < d.depth) (J := fun d => d.cycleMet = false)
    (R := g.Grounded K) (d := d.enter id) (fun q _ d₁ hd₁ => ?_) ?_ ?_
    ⟨⟨hd.keeps, hd.grounded⟩, Nat.succ_pos d.depth⟩).imp_ok ?_
  · refine (hread q d₁ hd₁.1).imp_ok fun e d₂ ⟨hgrows, h⟩ => ?_
    obtain ⟨hd₂, hcut⟩ := h hd₁.2
    exact ⟨⟨hd₂, hgrows.depth ▸ hd₁.2⟩, hcut⟩
  · exact fun _ _ _ hd₁ => hd₁.1
  · exact fun _ _ _ hd₁ _ _ => hd₁.1
  · rintro e inner ⟨hinner, h⟩
    refine ⟨hinner.1, fun hcut => ?_⟩
    obtain ⟨-, hfinds, es, hreads, hconcluded⟩ := h hcut
    exact .of_walk hr hK hfinds hreads hconcluded

/-- **Whatever a walk keeps is grounded**, and inside of another one so is what it answers, if no cut is noted. It does
not matter whether it ends in an answer. -/
theorem expectationWithin_buildsOn (fuel : Nat) (id : RuleId) (d : Derivation κ) (hd : d.BuildsOn g K) :
    Ensures (g.expectationWithin fuel id) d (fun e d' => d.Grows d' ∧ g.AnswersGrounded K id d e d')
      fun _ d' => d'.BuildsOn g K := by
  suffices h : Ensures (g.expectationWithin fuel id) d (fun e d' => g.AnswersGrounded K id d e d')
      fun _ d' => d'.BuildsOn g K from
    ((expectationWithin_grows fuel id d).and h).imp (fun _ _ h => h) fun _ _ h => h.2
  induction fuel generalizing id d with
  | zero => exact hd
  | succ fuel ih =>
    apply Grammar.expectationWithin_ensures
    case absent => exact fun _ => hd
    case unresolved => exact fun _ _ _ => ⟨⟨hd.keeps, hd.grounded⟩, fun h => nomatch h⟩
    case target =>
      intro label target hr
      refine (ih target d hd).imp_ok fun e d' h hdepth => ?_
      obtain ⟨hd', h⟩ := h hdepth
      exact ⟨hd', fun hcut => ⟨(h hcut).1, .target hr (h hcut).2⟩⟩
    case known => exact fun rule e hr hp hknown _ => ⟨hd, fun h => ⟨h, hd.grounded id rule e ⟨hr, hp⟩ hknown⟩⟩
    case mute =>
      intro rule hr hp hmute hknown _
      have grounded := Grounded.of_mute ⟨hr, hp⟩ (hd.table_none hknown) hmute
      exact ⟨hd.keep (hd.table_none hknown) grounded, fun h => ⟨h, grounded⟩⟩
    case cut => exact fun _ _ _ _ _ _ => ⟨⟨hd.keeps, hd.grounded⟩, fun h => nomatch h⟩
    case walk =>
      intro rule walk hr hwalk hknown _
      have hK := hd.table_none hknown
      refine (walk_buildsOn (fun q d hd => ?_) (.of_derived hr hwalk) hK hwalk hd).imp ?_ ?_
      · exact ((expectationWithin_grows fuel q d).and (ih q d hd)).imp (fun _ _ h => h) fun _ _ h => h.2
      · rintro e inner ⟨hinner, hgrounded⟩ hdepth
        refine ⟨hinner.conclude hK fun h => hgrounded (h.resolve_left hdepth.ne'), fun hcut => ?_⟩
        rw [Derivation.cycleMet_conclude, if_neg hdepth.ne', Bool.or_eq_false_iff] at hcut
        exact ⟨hcut.1, hgrounded hcut.2⟩
      · exact fun _ inner hinner => ⟨hinner.keeps, hinner.grounded⟩

/-! ## 4. Grounded answers -/

/-- The walk for a rule that is grounded meets no cut and concludes as it should, if what it reads is answered so. -/
theorem walk_answered {S : RuleId → Expectation κ} {fuel : Nat} (hr : g.Proper id rule) (hK : K id = none)
    (hfinds : rule.body.Finds g) (h : rule.body.concluded ((rule.body.reads g).map S) = .ok e)
    (hread : ∀ q ∈ rule.body.reads g, ∀ d, d.BuildsOn g K → (∀ m ∈ d.marked, Relation.TransGen (g.Unfolds K) m q) →
      Ensures (g.expectationWithin fuel q) d
        (fun e' d' => e' = S q ∧ d'.BuildsOn g K ∧ (0 < d.depth → d'.cycleMet = d.cycleMet))
        fun _ _ => ¬ g.Suffices fuel d.marked q)
    (hd : d.BuildsOn g K) (hmarks : ∀ m ∈ d.marked, Relation.TransGen (g.Unfolds K) m id) (hm : id ∉ d.marked) :
    Ensures (rule.body.walk g (g.expectationWithin fuel)) (d.enter id)
      (fun e' inner => e' = e ∧ inner.BuildsOn g K ∧ inner.cycleMet = false)
      fun _ _ => ¬ g.Suffices (fuel + 1) d.marked id := by
  have concluded {es : List (Expectation κ)} (hes : List.Forall₂ (fun q e => S q = e) (rule.body.reads g) es) :
      rule.body.concluded es = .ok e := by
    rw [← List.forall₂_map_left_iff, List.forall₂_eq_eq_eq] at hes
    rw [← hes, h]
  -- the readings go on where the walk has begun
  let Within (d₁ : Derivation κ) : Prop := d₁.BuildsOn g K ∧ (d.enter id).Grows d₁ ∧ d₁.cycleMet = false
  refine (Body.walk_ensures (I := Within) (J := fun _ => True) (R := fun q e => S q = e) (d := d.enter id)
    (fun q hq d₁ hd₁ => ?_) ?_ ?_ ⟨⟨hd.keeps, hd.grounded⟩, .refl _, rfl⟩).imp_ok ?_
  · obtain ⟨hd₁, hgrows, hcut⟩ := hd₁
    have edge : g.Unfolds K id q := Or.inr ⟨hK, rule, hr.1, hq⟩
    have marks : ∀ m ∈ d₁.marked, Relation.TransGen (g.Unfolds K) m q := by
      rw [hgrows.marked]
      exact List.forall_mem_cons.mpr ⟨.single edge, fun m hm => (hmarks m hm).tail edge⟩
    refine ((expectationWithin_grows fuel q d₁).and (hread q hq d₁ hd₁ marks)).imp ?_ ?_
    · rintro e' d₂ ⟨hgrows', rfl, hd₂, hcut'⟩
      refine ⟨⟨hd₂, hgrows.trans hgrows', (hcut' ?_).trans hcut⟩, fun _ => ⟨trivial, rfl⟩⟩
      exact hgrows.depth ▸ Nat.succ_pos d.depth
    · rintro fault d₂ ⟨-, hnot⟩ hsuff
      rw [hgrows.marked] at hnot
      exact hnot (hsuff.2 rule hr hm q hq)
  · intro fault hlost
    rw [hfinds] at hlost
    simp at hlost
  · intro es fault _ _ hes hfault
    cases (concluded (hes trivial).2).symm.trans hfault
  · rintro e' inner ⟨⟨hinner, -, hcut⟩, hwalk⟩
    obtain ⟨-, -, es, hes, he'⟩ := hwalk trivial
    cases (concluded hes).symm.trans he'
    exact ⟨rfl, hinner, hcut⟩

/-- **What is grounded is answered accordingly**, inside of whatever is derived by reading it. -/
theorem Grounded.answered (h : g.Grounded K id e) (fuel : Nat) (d : Derivation κ) (hd : d.BuildsOn g K)
    (hmarks : ∀ m ∈ d.marked, Relation.TransGen (g.Unfolds K) m id) :
    Ensures (g.expectationWithin fuel id) d
      (fun e' d' => e' = e ∧ d'.BuildsOn g K ∧ (0 < d.depth → d'.cycleMet = d.cycleMet))
      fun _ _ => ¬ g.Suffices fuel d.marked id := by
  induction h generalizing fuel d with
  | @given id rule e hr h =>
    cases fuel with
    | zero => exact fun h => h
    | succ fuel =>
      rw [Ensures, expectationWithin_of_known hr.1 hr.2 (hd.keeps id e h)]
      exact ⟨rfl, hd, fun _ => rfl⟩
  | @target id target label e hr h ih =>
    cases fuel with
    | zero => exact fun h => h
    | succ fuel =>
      rw [expectationWithin, hr]
      refine (ih fuel d hd fun m hm => (hmarks m hm).tail (Or.inl ⟨label, hr⟩)).imp (fun _ _ h => h) ?_
      exact fun _ _ hnot hsuff => hnot (hsuff.1 label target hr)
  | @rule id rule S e hr hK hfinds hreads h ih =>
    have grounded : g.Grounded K id e := .rule hr hK hfinds hreads h
    cases fuel with
    | zero => exact fun h => h
    | succ fuel =>
      apply hr.expectationWithin_ensures
      case known => exact fun e' hknown => ⟨(hd.grounded id rule e' hr hknown).unique grounded, hd, fun _ => rfl⟩
      case mute =>
        intro hmute _
        have mute := Grounded.of_mute hr hK hmute
        exact ⟨mute.unique grounded, hd.keep hK mute, fun _ => rfl⟩
      case cut => exact fun _ hm => absurd (hmarks id hm) grounded.acyclic
      case walk =>
        intro _ hm
        refine (walk_answered hr hK hfinds h (fun q hq d₁ => ih q hq fuel d₁) hd hmarks hm).imp_ok ?_
        rintro e' inner ⟨rfl, hinner, hcut⟩
        refine ⟨rfl, hinner.conclude hK fun _ => grounded, fun hdepth => ?_⟩
        rw [Derivation.cycleMet_conclude, if_neg hdepth.ne', hcut, Bool.or_false]

/-! ## 5. Requests -/

/-- A request from outside adds to the table at most what it answers, and nothing if it ends in a fault. -/
theorem expectation_buildsOn (id : RuleId) (d : Derivation κ) (hrest : d.AtRest) (hd : d.BuildsOn g K) :
    Ensures (g.expectation id) d
      (fun _ d' => ∃ K', d'.BuildsOn g K' ∧ ∀ q e, g.Grounded K q e → g.Grounded K' q e)
      fun _ d' => d'.BuildsOn g K := by
  rw [expectation]
  generalize g.derivationFuel = fuel
  have unmarked {m : RuleId} : m ∉ d.marked := hrest.marked ▸ List.not_mem_nil
  induction fuel generalizing id with
  | zero => exact hd
  | succ fuel ih =>
    by_cases hid : ∃ a, g.Grounded K id a
    · obtain ⟨a, ha⟩ := hid
      refine ((expectationWithin_buildsOn (fuel + 1) id d hd).and
        (ha.answered (fuel + 1) d hd fun m hm => absurd hm unmarked)).imp ?_ fun _ _ h => h.1
      exact fun e d' h => ⟨K, h.2.2.1, fun _ _ h => h⟩
    · have hid : ∀ a, ¬ g.Grounded K id a := fun a ha => hid ⟨a, ha⟩
      apply Grammar.expectationWithin_ensures
      case absent => exact fun _ => hd
      case unresolved => exact fun _ _ => ⟨K, ⟨hd.keeps, hd.grounded⟩, fun _ _ h => h⟩
      case target => exact fun _ target _ => ih target
      case known => exact fun rule e hr hp hknown => absurd (hd.grounded id rule e ⟨hr, hp⟩ hknown) (hid e)
      case mute =>
        exact fun rule hr hp hmute hknown => absurd (.of_mute ⟨hr, hp⟩ (hd.table_none hknown) hmute) (hid .empty)
      case cut => exact fun _ _ _ _ hm => absurd hm unmarked
      case walk =>
        intro rule walk hr hwalk hknown _
        refine (walk_buildsOn (fun q => expectationWithin_buildsOn fuel q) (.of_derived hr hwalk)
          (hd.table_none hknown) hwalk hd).imp ?_ fun _ _ hinner => ⟨hinner.keeps, hinner.grounded⟩
        exact fun e inner h => ⟨_, h.1.start hid hrest.depth e, fun _ _ h => h.update hid e⟩

/-- The bookkeeping after a request, however that ends. -/
def request (g : Grammar κ) (d : Derivation κ) (id : RuleId) : Derivation κ :=
  match g.expectation id d with
  | .ok _ d' => d'
  | .error _ d' => d'

/-- The bookkeeping after some requests in a row. -/
def requests (g : Grammar κ) (ids : List RuleId) (d : Derivation κ) : Derivation κ := ids.foldl g.request d

/-- What every request leaves true, however it ends, some requests in a row leave true. -/
theorem requests_leave {P : Derivation κ → Prop}
    (h : ∀ id d, P d → Ensures (g.expectation id) d (fun _ => P) fun _ => P) (ids : List RuleId) (hd : P d) :
    P (g.requests ids d) := by
  induction ids generalizing d with
  | nil => exact hd
  | cons id ids ih =>
    refine ih ?_
    rw [request]
    have h := h id d hd
    unfold Ensures at h
    cases hx : g.expectation id d <;> simpa only [hx] using h

end Grammar

/-- Between requests nothing is being derived, and what was grounded in a table is grounded in what has become of it. -/
structure Derivation.Upholds (d : Derivation κ) (g : Grammar κ) (K : RuleId → Option (Expectation κ)) : Prop
    extends d.AtRest where
  table : ∃ K', d.BuildsOn g K' ∧ ∀ q e, g.Grounded K q e → g.Grounded K' q e

namespace Derivation

theorem AtRest.upholds_known (hd : d.AtRest) (g : Grammar κ) : d.Upholds g d.known? :=
  ⟨hd, d.known?, d.buildsOn_known g, fun _ _ h => h⟩

/-- However a request ends, what was upheld before is upheld afterwards. -/
theorem Upholds.request (hd : d.Upholds g K) (id : RuleId) :
    Ensures (g.expectation id) d (fun _ d' => d'.Upholds g K) fun _ d' => d'.Upholds g K := by
  obtain ⟨K', hbuilds, hK'⟩ := hd.table
  refine ((Grammar.expectationWithin_grows g.derivationFuel id d).and
    (Grammar.expectation_buildsOn id d hd.toAtRest hbuilds)).imp ?_ ?_
  · rintro e d' ⟨hgrows, K'', hbuilds', hK''⟩
    exact ⟨hgrows.atRest hd.toAtRest, K'', hbuilds', fun q e h => hK'' q e (hK' q e h)⟩
  · exact fun fault d' ⟨hgrows, hbuilds'⟩ => ⟨hgrows.atRest hd.toAtRest, K', hbuilds', hK'⟩

/-- **What was grounded is the answer**, whatever was requested in the meantime. -/
theorem Upholds.answers (hd : d.Upholds g K) (h : g.Grounded K id e) (hfuel : g.Suffices g.derivationFuel [] id) :
    ∃ d', g.expectation id d = .ok e d' ∧ d'.Upholds g K := by
  obtain ⟨K', hbuilds, hK'⟩ := hd.table
  have marks : ∀ m ∈ d.marked, Relation.TransGen (g.Unfolds K') m id := hd.marked ▸ nofun
  obtain ⟨_, d', hx, rfl, -⟩ := (((hK' id e h).answered g.derivationFuel d hbuilds marks).imp (fun _ _ h => h)
    fun _ _ hnot => hnot (hd.marked ▸ hfuel)).exists_ok
  exact ⟨d', hx, (hd.request id).ok hx⟩

end Derivation

end Descent
