import Descent.Proofs.Derivation.Walk
import Descent.Proofs.Pairs

/-!
# What a walk reads and what it concludes

The walk over a body reads the expectations of some rules, in order, and then concludes that of the body from what it
has read. That is all there is to it, for the bodies of the library and for hand-written ones, **and so it is written
down once** (`Body.derived?_eq_walk`). Hand-written derivatives differ in what may go wrong: they may ask for a name
that no rule has, in the middle of the walk, and they may refuse to conclude, at its end.

In this form a law about walks is a law about rows of readings. Here are the two that are needed where derivations may
be abandoned: what a walk comes to, reading by reading (`Body.walk_ensures`), and that two walks over one body go alike
while their readings do (`Body.walk_alike`).
-/

namespace Descent

variable {κ : Type}

/-! ## 1. Walks -/

/-- What the walk over a body asks for, in order: rules, and names that no rule has. -/
def Body.asks (g : Grammar κ) : Body κ → List (Except Fault RuleId)
  | .handWritten _ (some derivative) => derivative.reads.map fun name =>
    match g.namedRule? name with
    | some id => .ok id
    | none => .error (.unknownName name)
  | b => (b.reads g).map .ok

/-- The rules that a walk reads are those that it asks for. -/
theorem Body.reads_eq_filterMap (g : Grammar κ) (b : Body κ) : b.reads g = (b.asks g).filterMap Except.toOption := by
  have found (ids : List RuleId) : (ids.map (Except.ok (ε := Fault))).filterMap Except.toOption = ids := by
    rw [List.filterMap_map]
    exact List.filterMap_some
  cases b with
  | handWritten answer derivative =>
    cases derivative with
    | none => rfl
    | some derivative =>
      rw [asks, List.filterMap_map, reads]
      refine List.filterMap_congr fun name _ => ?_
      cases h : g.namedRule? name <;> simp [h, Except.toOption]
  | _ => exact (found _).symm

theorem Body.mem_reads {g : Grammar κ} {b : Body κ} {q : RuleId} : q ∈ b.reads g ↔ .ok q ∈ b.asks g := by
  rw [reads_eq_filterMap, List.mem_filterMap]
  constructor
  · rintro ⟨a, ha, hq⟩
    cases a with
    | ok p => cases hq; exact ha
    | error fault => cases hq
  · exact fun h => ⟨_, h, rfl⟩

/-- All that the body asks for is there. -/
def Body.Finds (g : Grammar κ) (b : Body κ) : Prop := b.asks g = (b.reads g).map .ok

theorem Body.finds_of_library (g : Grammar κ) {b : Body κ} (hb : b.IsLibrary) : b.Finds g := by
  cases b with
  | handWritten answer derivative => exact hb.elim
  | _ => rfl

/-- What has been read one by one has all been found. -/
theorem Body.finds_of_forall₂ {g : Grammar κ} {b : Body κ} {R : RuleId → Expectation κ → Prop}
    {es : List (Expectation κ)} (h : List.Forall₂ (fun a e => ∃ q, a = .ok q ∧ R q e) (b.asks g) es) :
    b.Finds g ∧ List.Forall₂ R (b.reads g) es := by
  rw [Finds, reads_eq_filterMap]
  generalize b.asks g = asked at h
  induction h with
  | nil => exact ⟨rfl, .nil⟩
  | cons head _ ih =>
    obtain ⟨q, rfl, hq⟩ := head
    exact ⟨congrArg (Except.ok q :: ·) ih.1, .cons hq ih.2⟩

/-- Reads what is asked for. -/
def Derive.ask (read : RuleId → Derive κ (Expectation κ)) : Except Fault RuleId → Derive κ (Expectation κ)
  | .ok id => read id
  | .error fault => throw fault

def Derive.ofExcept {α : Type} : Except Fault α → Derive κ α
  | .ok a => pure a
  | .error fault => throw fault

theorem Derive.ensures_ofExcept {α : Type} {x : Except Fault α} {Q : α → Derivation κ → Prop}
    {E : Fault → Derivation κ → Prop} {d : Derivation κ} (hok : ∀ a, x = .ok a → Q a d)
    (herror : ∀ fault, x = .error fault → E fault d) : Ensures (Derive.ofExcept x) d Q E := by
  cases x with
  | ok a => exact hok a rfl
  | error fault => exact herror fault rfl

variable [DecidableEq κ]

/-- What the walk over a body concludes from what it has read. -/
def Body.concluded : Body κ → List (Expectation κ) → Except Fault (Expectation κ)
  | .token m _, _ => .ok (.ofMatcher m)
  | .capture m, _ => .ok (.ofMatcher m)
  | .oneOf ms, _ => .ok ⟨ms, [], false⟩
  | .either _, es => .ok (es.foldl .union .empty)
  | .skipping _, [e] => .ok e.withAmbient
  | .within _ none, [e] => .ok (e.withWhitespace [])
  | .within _ (some _), [policy, e] => .ok (e.withWhitespace policy.prefixes)
  | .handWritten _ (some derivative), es => derivative.conclude es
  | _, [e] => .ok e
  | _, _ => .ok .empty

/-- A body of the library concludes from whatever has been read. -/
theorem Body.concluded_of_library {b : Body κ} (hb : b.IsLibrary) (es : List (Expectation κ)) :
    ∃ e, b.concluded es = .ok e := by
  fun_cases Body.concluded b es
  case case8 => exact hb.elim
  all_goals exact ⟨_, rfl⟩

/-- Reads what the body asks for, and concludes. -/
def Body.walk (g : Grammar κ) (read : RuleId → Derive κ (Expectation κ)) (b : Body κ) : Derive κ (Expectation κ) := do
  Derive.ofExcept (b.concluded (← (b.asks g).mapM (Derive.ask read)))

section Walk

variable {g : Grammar κ} {b : Body κ} {read read' : RuleId → Derive κ (Expectation κ)} {walk : Derive κ (Expectation κ)}
  {d d' : Derivation κ}

/-- Adding up on the way is reading first and adding up then. -/
theorem foldlM_union (branches : List RuleId) (e : Expectation κ) :
    (branches.foldlM (fun e branch => do return e.union (← read branch)) e : Derive κ (Expectation κ)) = do
      return (← (branches.map Except.ok).mapM (Derive.ask read)).foldl .union e := by
  induction branches generalizing e with
  | nil => rfl
  | cons branch branches ih =>
    simp only [List.foldlM_cons, List.map_cons, List.mapM_cons, bind_assoc, pure_bind, List.foldl_cons]
    exact bind_congr fun e₁ => ih (e.union e₁)

/-- Only a hand-written rule without a derivation of its own has no walk. -/
theorem Body.eq_of_mute (hp : ∀ target, b ≠ .placeholder target) (h : b.derived? g read = none) :
    ∃ answer, b = .handWritten answer none := by
  cases b with
  | handWritten answer derivative =>
    cases derivative with
    | none => exact ⟨answer, rfl⟩
    | some derivative => cases h
  | sequence parts => cases parts <;> cases h
  | placeholder target => exact absurd rfl (hp target)
  | _ => cases h

/-- **A walk reads and concludes.** -/
theorem Body.derived?_eq_walk (h : b.derived? g read = some walk) : walk = b.walk g read := by
  have passed {id : RuleId} (hb : b.passes? = some id) (hasks : b.asks g = [.ok id])
      (hconcluded : ∀ e, b.concluded [e] = .ok e) : walk = b.walk g read := by
    rw [derived?_of_passes hb] at h
    cases h
    simp [Body.walk, hasks, hconcluded, Derive.ask, Derive.ofExcept]
  cases b with
  | token m f => cases h; rfl
  | capture m => cases h; rfl
  | oneOf ms => cases h; rfl
  | sequence parts =>
    cases parts with
    | nil => cases h; rfl
    | cons first parts => exact passed rfl rfl fun _ => rfl
  | optional inner default => exact passed rfl rfl fun _ => rfl
  | repeated first minimum attempt => exact passed rfl rfl fun _ => rfl
  | map inner f => exact passed rfl rfl fun _ => rfl
  | skippingAfter inner => exact passed rfl rfl fun _ => rfl
  | either branches =>
    cases h
    exact foldlM_union branches .empty
  | skipping inner =>
    cases h
    simp [Body.walk, asks, reads, entries, concluded, Derive.ask, Derive.ofExcept]
  | within inner policy =>
    cases h
    cases policy <;> simp [Body.walk, asks, reads, entries, concluded, Derive.ask, Derive.ofExcept]
  | placeholder target => cases h
  | handWritten answer derivative =>
    cases derivative with
    | none => cases h
    | some derivative =>
      cases h
      rw [Body.walk, asks, List.mapM_map]
      refine congrArg₂ _ (congrArg (List.mapM · derivative.reads) (funext fun name => ?_)) (funext fun es => ?_)
      · show _ = Derive.ask read (match g.namedRule? name with
          | some id => Except.ok id
          | none => .error (.unknownName name))
        cases g.namedRule? name <;> rfl
      · show _ = Derive.ofExcept (derivative.conclude es)
        cases derivative.conclude es <;> rfl

/-! ## 2. What a walk comes to -/

/-- **A walk comes to what it concludes from its readings**, of which each may be known only where something holds in
the end. It ends in a fault if one of its readings does, if something was asked for that is not there, or by
concluding. -/
theorem Body.walk_ensures {I J : Derivation κ → Prop} {R : RuleId → Expectation κ → Prop}
    {E : Fault → Derivation κ → Prop}
    (hread : ∀ q ∈ b.reads g, ∀ d, I d → Ensures (read q) d (fun e d' => I d' ∧ (J d' → J d ∧ R q e)) E)
    (hlost : ∀ fault, .error fault ∈ b.asks g → ∀ d, I d → E fault d)
    (hraise : ∀ es fault d, I d → (J d → b.Finds g ∧ List.Forall₂ R (b.reads g) es) → b.concluded es = .error fault →
      E fault d)
    (hd : I d) :
    Ensures (b.walk g read) d (fun e d' => I d' ∧
      (J d' → J d ∧ b.Finds g ∧ ∃ es, List.Forall₂ R (b.reads g) es ∧ b.concluded es = .ok e)) E := by
  have hask : ∀ a ∈ b.asks g, ∀ d, I d → Ensures (Derive.ask read a) d
      (fun e d' => I d' ∧ (J d' → J d ∧ ∃ q, a = .ok q ∧ R q e)) E := by
    intro a ha d hd
    cases a with
    | ok q =>
      refine (hread q (Body.mem_reads.mpr ha) d hd).imp_ok fun e d' h => ⟨h.1, fun hJ => ?_⟩
      obtain ⟨hJ, hR⟩ := h.2 hJ
      exact ⟨hJ, q, rfl, hR⟩
    | error fault => exact hlost fault ha d hd
  refine ensures_bind.mpr ((ensures_mapM_forall₂ hask hd).imp_ok fun es d' ⟨hd', hes⟩ => ?_)
  refine Derive.ensures_ofExcept (fun e he => ⟨hd', fun hJ => ?_⟩) fun fault he =>
    hraise es fault d' hd' (fun hJ => ?_) he
  · obtain ⟨hJ, hes⟩ := hes hJ
    obtain ⟨hfinds, hes⟩ := Body.finds_of_forall₂ hes
    exact ⟨hJ, hfinds, es, hes, he⟩
  · exact Body.finds_of_forall₂ (hes hJ).2

/-- **Two walks over one body go alike** while their readings do. -/
theorem Body.walk_alike {I E : Derivation κ → Derivation κ → Prop}
    (hread : ∀ q ∈ b.reads g, ∀ d d', I d d' →
      EnsuresBoth (read q) d (read' q) d' (fun e d₁ e' d₁' => e = e' ∧ I d₁ d₁') E)
    (hI : ∀ d d', I d d' → E d d') (hd : I d d') :
    EnsuresBoth (b.walk g read) d (b.walk g read') d' (fun e d₁ e' d₁' => e = e' ∧ I d₁ d₁') E := by
  refine (EnsuresBoth.mapM (I := I) (fun a ha d d' hd => ?_) hd).bind ?_
  · cases a with
    | ok q => exact hread q (Body.mem_reads.mpr ha) d d' hd
    | error fault => exact ⟨rfl, hI d d' hd⟩
  · rintro es d₁ _ d₁' ⟨rfl, hd₁⟩
    cases b.concluded es with
    | ok e => exact ⟨rfl, hd₁⟩
    | error fault => exact ⟨rfl, hI d₁ d₁' hd₁⟩

/-- Reading the expectation of a rule that is no placeholder, one case for each thing that may be done. -/
theorem Grammar.Proper.expectationWithin_ensures {id : RuleId} {rule : Rule κ} {fuel : Nat}
    {Q : Expectation κ → Derivation κ → Prop} {E : Fault → Derivation κ → Prop} (hr : g.Proper id rule)
    (known : ∀ e, d.known? id = some e → Q e d)
    (mute : rule.body.derived? g (g.expectationWithin fuel) = none → d.known? id = none → Q .empty (d.keep id .empty))
    (cut : d.known? id = none → id ∈ d.marked → Q .empty { d with cycleMet := true })
    (walk : d.known? id = none → id ∉ d.marked →
      Ensures (rule.body.walk g (g.expectationWithin fuel)) (d.enter id) (fun e inner => Q e (d.conclude inner id e))
        fun fault inner => E fault (inner.leave d id)) :
    Ensures (g.expectationWithin (fuel + 1) id) d Q E := by
  have same {rule' : Rule κ} (hr' : g.rule? id = some rule') : rule' = rule := Option.some.inj (hr'.symm.trans hr.1)
  apply Grammar.expectationWithin_ensures
  case absent => exact fun hr' => nomatch hr'.symm.trans hr.1
  case unresolved => exact fun _ hr' => absurd (same hr' ▸ rfl) (hr.2 none)
  case target => exact fun _ target hr' => absurd (same hr' ▸ rfl) (hr.2 (some target))
  case known => exact fun _ e _ _ => known e
  case mute =>
    intro rule' hr' _ hmute
    cases same hr'
    exact mute hmute
  case cut => exact fun _ _ _ => cut
  case walk =>
    intro rule' w hr' hwalk
    cases same hr'
    rw [Body.derived?_eq_walk hwalk]
    exact walk

/-- Reading an expectation that is not kept. -/
theorem Grammar.Proper.expectationWithin_eq {id : RuleId} {rule : Rule κ} {fuel : Nat} (hr : g.Proper id rule)
    (hknown : d.known? id = none) (hwalk : rule.body.derived? g (g.expectationWithin fuel) = some walk) :
    g.expectationWithin (fuel + 1) id d =
      if id ∈ d.marked then .ok .empty { d with cycleMet := true } else deriveMarked id walk d := by
  rw [expectationWithin, hr.1]
  obtain ⟨label, b⟩ := rule
  cases b with
  | placeholder target => exact absurd rfl (hr.2 target)
  | _ =>
    dsimp only
    rw [bind_apply_of_ok (rfl : (get : Derive κ (Derivation κ)) d = .ok d d)]
    simp only [hknown, hwalk]
    split <;> rfl

omit [DecidableEq κ] in
theorem ensuresBoth_deriveMarked {id : RuleId} {walk walk' : Derive κ (Expectation κ)}
    {Q : Expectation κ → Derivation κ → Expectation κ → Derivation κ → Prop} {E : Derivation κ → Derivation κ → Prop}
    (h : EnsuresBoth walk (d.enter id) walk' (d'.enter id)
      (fun e inner e' inner' => Q e (d.conclude inner id e) e' (d'.conclude inner' id e'))
      fun inner inner' => E (inner.leave d id) (inner'.leave d' id)) :
    EnsuresBoth (Grammar.deriveMarked id walk) d (Grammar.deriveMarked id walk') d' Q E := by
  unfold EnsuresBoth at h
  unfold EnsuresBoth Grammar.deriveMarked
  cases hx : walk (d.enter id) <;> cases hy : walk' (d'.enter id) <;> simp only [hx, hy] at h <;> exact h

end Walk

end Descent
