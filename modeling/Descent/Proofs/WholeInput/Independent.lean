import Descent.Matcher.Fixed
import Descent.Proofs.Counterpart.Built
import Descent.Proofs.WholeInput.Outcome

/-!
# Requests that follow one another

A context serves one request after another, and so do the rules of a grammar. From the requests before, four things are
still there: the policy, the record of failures, the count of suspensions, and the expectations that are kept. And any
request may have been cut short by a fault, wherever it arose. **None of this can be told from the next request**:
whatever has been requested of a session, it ends as it would have ended as the first one, and leaves the same record
(`Session.requests_independent`).

The first one is made of a session of its own, whose grammar has been built for it. So its rules have other places
there, and what is compared are alike requests (`WholeInput.Alike`). That grammars are built between requests makes no
difference either, as long as derivations meet no cycle.
-/

namespace Descent

variable {κ : Type}

/-! ## 1. Requests -/

/-- A request for a whole input. -/
structure WholeInput (κ : Type) where
  settings : Settings
  operand : Operand κ
  source : Source
  whitespace : Operand κ

/-- Requests that are the same, but for the places of rules. -/
structure WholeInput.Alike (g g' : Grammar κ) (c c' : WholeInput κ) : Prop where
  settings : c.settings = c'.settings
  source : c.source = c'.source
  operand : c.operand.Alike g g' c'.operand
  whitespace : c.whitespace.AlikeAsPolicy g g' c'.whitespace

/-- A request for a rule of a grammar, or for what can stand for one, and under such a policy. -/
structure WholeInput.IsOf (c : WholeInput κ) (g : Grammar κ) : Prop where
  operand : c.operand.IsRule
  operand_lt : ∀ id, c.operand = .rule id → id < g.rules.size
  whitespace : c.whitespace.IsPolicy
  whitespace_lt : ∀ id, c.whitespace = .rule id → id < g.rules.size

theorem Operand.alike_self {g : Grammar κ} (hg : g.IsStraight) {o : Operand κ} (ho : o.IsRule)
    (hlt : ∀ id, o = .rule id → id < g.rules.size) : o.Alike g g o := by
  cases o with
  | rule id => exact .rule (.refl hg.library hg.closed (hlt id rfl))
  | matcher m => exact .matcher m
  | text text => exact .text text
  | absent => exact ho.elim
  | other kind => exact ho.elim

/-- A request is like itself. -/
theorem WholeInput.IsOf.alike {g : Grammar κ} {c : WholeInput κ} (h : c.IsOf g) (hg : g.IsStraight) :
    c.Alike g g c where
  settings := rfl
  source := rfl
  operand := Operand.alike_self hg h.operand h.operand_lt
  whitespace := by
    obtain ⟨ho, hlt⟩ := And.intro h.whitespace h.whitespace_lt
    generalize c.whitespace = o at ho hlt
    rcases ho with rfl | ho
    · exact .absent
    · exact .rule (Operand.alike_self hg ho hlt)

theorem WholeInput.IsOf.grow {g G : Grammar κ} {c : WholeInput κ} (h : c.IsOf g) (hg : g.IsPartOf G) : c.IsOf G where
  operand := h.operand
  operand_lt id hid := hg.lt_size (h.operand_lt id hid)
  whitespace := h.whitespace
  whitespace_lt id hid := hg.lt_size (h.whitespace_lt id hid)

theorem Operand.Alike.grow {g g' G G' : Grammar κ} {o o' : Operand κ} (h : o.Alike g g' o') (hg : g.IsPartOf G)
    (hg' : g'.IsPartOf G') : o.Alike G G' o' := by
  cases h with
  | rule h => exact .rule (h.grow hg hg')
  | matcher m => exact .matcher m
  | text text => exact .text text

theorem Operand.AlikeAsPolicy.grow {g g' G G' : Grammar κ} {o o' : Operand κ} (h : o.AlikeAsPolicy g g' o')
    (hg : g.IsPartOf G) (hg' : g'.IsPartOf G') : o.AlikeAsPolicy G G' o' := by
  cases h with
  | absent => exact .absent
  | rule h => exact .rule (h.grow hg hg')

variable [DecidableEq κ] [CustomMatcher κ]

def WholeInput.request (c : WholeInput κ) : Request κ (Value κ) :=
  Session.parseToEnd c.settings c.operand c.source c.whitespace

namespace Session

/-! ## 2. Sessions -/

/-- What requests rely on, and leave so: derivations meet no cycle, what is kept of them is right, and the policy is
there. -/
structure IsTidy (s : Session κ) : Prop where
  straight : s.grammar.IsStraight
  sure : s.derivation.Sure s.grammar
  policy : ∀ id, s.context.whitespace = some id → id < s.grammar.rules.size

/-- Rules have been added at most, and the policy is the same. -/
structure GoesOn (s u : Session κ) : Prop where
  grammar : s.grammar.IsPartOf u.grammar
  whitespace : u.context.whitespace = s.context.whitespace

/-- A session that nothing has been requested of. -/
def opened (g : Grammar κ) (policy : Option RuleId) (verbosity : Int) : Session κ :=
  ⟨g, .fresh, .fresh policy verbosity, []⟩

section Tidy

omit [CustomMatcher κ]

variable {s u u' : Session κ}

omit [DecidableEq κ] in
theorem GoesOn.refl (s : Session κ) : s.GoesOn s := ⟨.refl _, rfl⟩

omit [DecidableEq κ] in
theorem GoesOn.trans (h : s.GoesOn u) (h' : u.GoesOn u') : s.GoesOn u' :=
  ⟨h.grammar.trans h'.grammar, h'.whitespace.trans h.whitespace⟩

/-- The policy is still there. -/
theorem IsTidy.policy_lt (h : s.IsTidy) (hu : s.GoesOn u) (id : RuleId) (hid : u.context.whitespace = some id) :
    id < u.grammar.rules.size := by
  rw [hu.whitespace] at hid
  exact hu.grammar.lt_size (h.policy id hid)

/-- The policy is like itself. -/
theorem IsTidy.policy_alike (h : s.IsTidy) :
    Option.Rel (s.grammar.Alike s.grammar) s.context.whitespace s.context.whitespace := by
  have hpolicy := h.policy
  generalize s.context.whitespace = P at hpolicy
  cases P with
  | none => exact .none
  | some id => exact .some (.refl h.straight.library h.straight.closed (hpolicy id rfl))

theorem IsTidy.grow (h : s.IsTidy) {g : Grammar κ} (hpart : s.grammar.IsPartOf g) (hg : g.IsStraight) :
    IsTidy { s with grammar := g } where
  straight := hg
  sure := h.sure.grow hpart
  policy := h.policy_lt ⟨hpart, rfl⟩

end Tidy

/-- What may become of a session: requests are answered or refused, and between them rules are added. -/
inductive Reaches (s : Session κ) : Session κ → Prop
  | start : Reaches s s
  | built {u : Session κ} {g : Grammar κ} (h : Reaches s u) (hpart : u.grammar.IsPartOf g) (hg : g.IsStraight) :
    Reaches s { u with grammar := g }
  | answered {u u' : Session κ} {c : WholeInput κ} {x : Value κ} (h : Reaches s u) (hc : c.IsOf u.grammar)
      (hx : c.request u = .ok x u') : Reaches s u'
  | refused {u u' : Session κ} {c : WholeInput κ} {why : Problem} (h : Reaches s u) (hc : c.IsOf u.grammar)
      (hx : c.request u = .error why u') : Reaches s u'

/-! ## 3. Alike requests -/

section Both

variable {s s' t t' : Session κ} {o o' w w' : Operand κ} {p p' : Preparation} {settings : Settings} {source : Source}

omit [DecidableEq κ] [CustomMatcher κ] in
/-- What is built in step is built in step in sessions, and nothing else is changed. -/
theorem building_both {α β : Type} {x : Build κ α} {y : Build κ β} {Q : α → Grammar κ → β → Grammar κ → Prop}
    (h : EnsuresBoth x s.grammar y s'.grammar Q fun _ _ => False) {E : Session κ → Session κ → Prop} :
    EnsuresBoth (building x) s (building y) s'
      (fun a t b t' => Q a t.grammar b t'.grammar ∧ t.context = s.context ∧ t'.context = s'.context) E := by
  unfold EnsuresBoth at h ⊢
  unfold building
  cases hx : x s.grammar <;> cases hy : y s'.grammar <;> simp only [hx, hy] at h ⊢
  · exact ⟨h, trivial, trivial⟩
  · exact h.2.elim

omit [DecidableEq κ] in
/-- Alike policies are chosen by alike requests, of contexts with alike policies. -/
theorem chosenPolicy_both (s s' : Session κ) (hg : s.grammar.IsStraight) (hg' : s'.grammar.IsStraight)
    (hP : Option.Rel (s.grammar.Alike s'.grammar) s.context.whitespace s'.context.whitespace)
    (hw : w.AlikeAsPolicy s.grammar s'.grammar w') {E : Session κ → Session κ → Prop} :
    EnsuresBoth (chosenPolicy w) s (chosenPolicy w') s' (fun P t P' t' =>
      s.grammar.GrowBoth s'.grammar t.grammar t'.grammar ∧ Option.Rel (t.grammar.Alike t'.grammar) P P') E := by
  have built : EnsuresBoth (building (Build.policy w)) s (building (Build.policy w')) s' (fun P t P' t' =>
      s.grammar.GrowBoth s'.grammar t.grammar t'.grammar ∧ Option.Rel (t.grammar.Alike t'.grammar) P P') E :=
    (building_both (Build.policy_alike hg hg' hw)).imp (fun _ _ _ _ h => h.1) fun _ _ h => h
  cases hw with
  | absent => exact ⟨⟨.refl _, .refl _, hg, hg'⟩, hP⟩
  | rule h =>
    cases h with
    | rule | matcher | text => exact built

omit [DecidableEq κ] in
/-- Alike requests are prepared alike. -/
theorem prepared_both (hg : s.grammar.IsStraight) (hg' : s'.grammar.IsStraight)
    (hP : Option.Rel (s.grammar.Alike s'.grammar) s.context.whitespace s'.context.whitespace)
    (ho : o.Alike s.grammar s'.grammar o') (hw : w.AlikeAsPolicy s.grammar s'.grammar w') :
    EnsuresBoth (prepared o w) s (prepared o' w') s' (fun p t p' t' =>
      s.grammar.GrowBoth s'.grammar t.grammar t'.grammar ∧ t.grammar.Alike t'.grammar p.anchor p'.anchor ∧
        Option.Rel (t.grammar.Alike t'.grammar) p.policy p'.policy) fun _ _ => False := by
  rw [prepared, prepared]
  refine (building_both (Build.asRule_alike hg hg' ho)).bind ?_
  rintro top s₁ top' s₁' ⟨⟨h₁, htop⟩, hcontext, hcontext'⟩
  have hP : Option.Rel (s₁.grammar.Alike s₁'.grammar) s₁.context.reset.whitespace s₁'.context.reset.whitespace := by
    rw [hcontext, hcontext']
    exact Grammar.rel_grow hP h₁.part h₁.part'
  refine EnsuresBoth.bind (Q := fun _ t _ t' => t = { s₁ with context := s₁.context.reset } ∧
    t' = { s₁' with context := s₁'.context.reset }) ⟨rfl, rfl⟩ ?_
  rintro _ _ _ _ ⟨rfl, rfl⟩
  refine (chosenPolicy_both { s₁ with context := s₁.context.reset } { s₁' with context := s₁'.context.reset }
    h₁.straight h₁.straight' hP (hw.grow h₁.part h₁.part')).bind ?_
  rintro P s₂ P' s₂' ⟨h₂, hP⟩
  refine (building_both (anchored_alike h₂.straight h₂.straight' (htop.grow h₂.part h₂.part'))).bind ?_
  rintro anchor s₃ anchor' s₃' ⟨⟨h₃, hanchor⟩, -, -⟩
  exact ⟨h₁.trans (h₂.trans h₃), hanchor, Grammar.rel_grow hP h₃.part h₃.part'⟩

/-- Runs that end alike make requests end alike. -/
theorem Concludes.both {S : ParseState κ → ParseState κ → Prop}
    (hS : ∀ v v', S v v' → v.context.furthest = v'.context.furthest) {x y : Request κ (Value κ)}
    (hx : Concludes settings source p t (x s)) (hy : Concludes settings source p' t' (y s'))
    (hrun : EnsuresBoth (t.grammar.parse runDepth p.anchor (.ofSource source)) (p.start t)
      (t'.grammar.parse runDepth p'.anchor (.ofSource source)) (p'.start t') (fun r v r' v' => r = r' ∧ S v v') S) :
    EnsuresBoth x s y s'
      (fun a u b u' => a = b ∧ ∃ v v' j j', S v v' ∧ u = t.resumed v j ∧ u' = t'.resumed v' j')
      fun u u' => ∃ v v' j j', S v v' ∧ u = t.resumed v j ∧ u' = t'.resumed v' j' := by
  unfold EnsuresBoth
  generalize x s = ending at hx
  generalize y s' = ending' at hy
  cases hx with
  | value h =>
    obtain ⟨_, v', h', rfl, hv⟩ := hrun.ok h
    cases hy with
    | value hy =>
      cases h'.symm.trans hy
      exact ⟨rfl, _, _, _, _, hv, rfl, rfl⟩
    | rejected hy => cases h'.symm.trans hy
    | stopped hy => cases h'.symm.trans hy
  | rejected h hreport =>
    obtain ⟨_, v', h', rfl, hv⟩ := hrun.ok h
    cases hy with
    | value hy => cases h'.symm.trans hy
    | rejected hy hreport' =>
      cases h'.symm.trans hy
      rw [hS _ _ hv] at hreport
      cases hreport.symm.trans hreport'
      exact ⟨rfl, _, _, _, _, hv, rfl, rfl⟩
    | stopped hy => cases h'.symm.trans hy
  | stopped h =>
    obtain ⟨v', h', hv⟩ := hrun.error h
    cases hy with
    | value hy => cases h'.symm.trans hy
    | rejected hy => cases h'.symm.trans hy
    | stopped hy =>
      cases h'.symm.trans hy
      exact ⟨rfl, _, _, _, _, hv, rfl, rfl⟩

/-- **Alike requests end alike**, and leave tidy sessions as tidy as they were. -/
theorem request_both (hs : s.IsTidy) (hs' : s'.IsTidy)
    (hP : Option.Rel (s.grammar.Alike s'.grammar) s.context.whitespace s'.context.whitespace) {c c' : WholeInput κ}
    (hc : c.Alike s.grammar s'.grammar c') :
    EnsuresBoth c.request s c'.request s'
      (fun x u x' u' => x = x' ∧ u.context.furthest = u'.context.furthest ∧ u.IsTidy ∧ s.GoesOn u)
      fun u u' => u.context.furthest = u'.context.furthest ∧ u.IsTidy ∧ s.GoesOn u := by
  obtain ⟨settings, o, source, w⟩ := c
  obtain ⟨settings', o', source', w'⟩ := c'
  obtain ⟨hsettings, hsource, ho, hw⟩ := hc
  cases (hsettings : settings = settings')
  cases (hsource : source = source')
  have both := prepared_both hs.straight hs'.straight hP ho hw
  have single := prepared_ensures o w s
  have single' := prepared_ensures o' w' s'
  cases hp : prepared o w s with
  | error why t => exact (both.error hp).choose_spec.2.elim
  | ok p t =>
    obtain ⟨p', t', hp', hgrow, hanchor, hpolicy⟩ := both.ok hp
    obtain ⟨hpart, hderivation, hcontext, -⟩ := single.ok hp
    obtain ⟨hpart', hderivation', hcontext', -⟩ := single'.ok hp'
    let K := Grammar.alikeRules t.grammar t'.grammar
    have states : K.States (p.start t) (p'.start t') := by
      refine ⟨?_, ?_, hpolicy, ?_, ?_⟩
      · show t.derivation.Sure t.grammar
        exact hderivation ▸ hs.sure.grow hpart
      · show t'.derivation.Sure t'.grammar
        exact hderivation' ▸ hs'.sure.grow hpart'
      · show t.context.suspended = t'.context.suspended
        rw [hcontext, hcontext']
        rfl
      · show t.context.furthest = t'.context.furthest
        rw [hcontext, hcontext']
        rfl
    have run := Counterpart.parse_both hgrow.straight hgrow.straight' rfl runDepth (.ofSource source) hanchor states
    have left {v v' : ParseState κ} {j j' : List String} (hv : K.States v v') :
        (t.resumed v j).context.furthest = (t'.resumed v' j').context.furthest ∧ (t.resumed v j).IsTidy ∧
          s.GoesOn (t.resumed v j) := by
      have hwhitespace : t.context.whitespace = s.context.whitespace := by rw [hcontext]; rfl
      have goesOn : s.GoesOn (t.resumed v j) := ⟨hpart, hwhitespace⟩
      exact ⟨hv.context.furthest, ⟨hgrow.straight, hv.sure, hs.policy_lt goesOn⟩, goesOn⟩
    refine (Concludes.both (fun v v' hv => hv.context.furthest) (parseToEnd_concludes settings source hp)
      (parseToEnd_concludes settings source hp') run).imp ?_ ?_
    · rintro x _ y _ ⟨rfl, v, v', j, j', hv, rfl, rfl⟩
      exact ⟨rfl, left hv⟩
    · rintro _ _ ⟨v, v', j, j', hv, rfl, rfl⟩
      exact left hv

end Both

/-! ## 4. Histories -/

section History

variable {s u : Session κ}

/-- What one request leaves, by the request beside itself. -/
theorem IsTidy.request (hs : s.IsTidy) {c : WholeInput κ} (hc : c.IsOf s.grammar) :
    Leaves c.request s fun u => u.IsTidy ∧ s.GoesOn u := by
  have both := request_both hs hs hs.policy_alike (hc.alike hs.straight)
  unfold Leaves Ensures
  cases hx : c.request s with
  | ok x u =>
    obtain ⟨_, _, -, -, -, h⟩ := both.ok hx
    exact h
  | error why u =>
    obtain ⟨_, -, -, h⟩ := both.error hx
    exact h

/-- Whatever is requested of a tidy session, it stays tidy. -/
theorem Reaches.tidy (h : s.Reaches u) (hs : s.IsTidy) : u.IsTidy ∧ s.GoesOn u := by
  induction h with
  | start => exact ⟨hs, .refl s⟩
  | built _ hpart hg ih => exact ⟨ih.1.grow hpart hg, ih.2.trans ⟨hpart, rfl⟩⟩
  | answered _ hc hx ih =>
    obtain ⟨htidy, hgoes⟩ := (ih.1.request hc).ok hx
    exact ⟨htidy, ih.2.trans hgoes⟩
  | refused _ hc hx ih =>
    obtain ⟨htidy, hgoes⟩ := (ih.1.request hc).error hx
    exact ⟨htidy, ih.2.trans hgoes⟩

/-- **Requests do not depend on those before them.** Let a session start from any context and with any expectations
that are right, and let anything be requested of it. A request for a whole input then ends as an alike request ends that
is the first one made of a session of its own, whose policy is like the one that this session started with: in the same
value, the same report or the same fault, and with the same record. -/
theorem requests_independent (hs : s.IsTidy) (hu : s.Reaches u) {g : Grammar κ} (hg : g.IsStraight)
    {policy : Option RuleId} (hP : Option.Rel (s.grammar.Alike g) s.context.whitespace policy) (verbosity : Int)
    {c c' : WholeInput κ} (hc : c.Alike u.grammar g c') :
    EnsuresBoth c.request u c'.request (opened g policy verbosity)
      (fun x t x' t' => x = x' ∧ t.context.furthest = t'.context.furthest)
      fun t t' => t.context.furthest = t'.context.furthest := by
  obtain ⟨htidy, hgoes⟩ := hu.tidy hs
  have first : (opened g policy verbosity).IsTidy :=
    ⟨hg, Derivation.sure_fresh g, (Counterpart.policy_lt_size (K := Grammar.alikeRules _ g) hP).2⟩
  have hpolicy : Option.Rel (u.grammar.Alike g) u.context.whitespace policy := by
    rw [hgoes.whitespace]
    exact Grammar.rel_grow hP hgoes.grammar (.refl g)
  refine (request_both htidy first hpolicy hc).imp ?_ fun _ _ h => h.1
  exact fun x t x' t' h => ⟨h.1, h.2.1⟩

end History

end Session

/-- A letter, or another one that a transform fails on, and blanks. -/
def reused : Grammar FixedMatcher where
  rules := #[⟨none, .token (.charClass ⟨.set (.between ' ' ' '), " ", false⟩) none⟩,
    ⟨none, .token (.charClass ⟨.set (.between 'b' 'b'), "b", false⟩) none⟩,
    ⟨none, .token (.charClass ⟨.set (.between 'd' 'd'), "d", false⟩) (some (NamedTransform.transform .boom))⟩,
    ⟨none, .either [1, 2]⟩]
  names := []
  customs := 0

/-- The same, built in another order. -/
def rebuilt : Grammar FixedMatcher where
  rules := #[⟨none, .token (.charClass ⟨.set (.between 'b' 'b'), "b", false⟩) none⟩,
    ⟨none, .token (.charClass ⟨.set (.between 'd' 'd'), "d", false⟩) (some (NamedTransform.transform .boom))⟩,
    ⟨none, .either [0, 1]⟩, ⟨none, .token (.charClass ⟨.set (.between ' ' ' '), " ", false⟩) none⟩]
  names := []
  customs := 0

theorem reused_alike : reused.Alike rebuilt 3 2 ∧ reused.Alike rebuilt 0 3 := by
  have letter : reused.Alike rebuilt 1 0 := .intro (.intro rfl rfl (.token _ _) nofun)
  have other : reused.Alike rebuilt 2 1 := .intro (.intro rfl rfl (.token _ _) nofun)
  exact ⟨.intro (.intro rfl rfl (.either (.cons letter (.cons other .nil))) nofun),
    .intro (.intro rfl rfl (.token _ _) nofun)⟩

set_option synthInstance.maxSize 512 in
/-- After a value, a rejection and a fault, a fourth request is rejected like the first one of another session. -/
theorem requests_independent_reused :
    let s : Session FixedMatcher := .opened reused (some 0) 0
    let call (text : List Char) : WholeInput FixedMatcher := ⟨.default, .rule 3, ⟨0, text⟩, .absent⟩
    let call' : WholeInput FixedMatcher := ⟨.default, .rule 2, ⟨0, ['b', ' ', 'b']⟩, .absent⟩
    s.IsTidy ∧ rebuilt.IsStraight ∧ Option.Rel (reused.Alike rebuilt) s.context.whitespace (some 3) ∧
      ∃ x u₁ e u₂ u, (call ['b']).request s = .ok x u₁ ∧ (call ['c']).request u₁ = .error (.rejected e) u₂ ∧
        (call [' ', 'd']).request u₂ = .error (.fault .transform) u ∧ s.Reaches u ∧
        (call ['b', ' ', 'b']).Alike u.grammar rebuilt call' ∧
        ∃ error t t', (call ['b', ' ', 'b']).request u = .error (.rejected error) t ∧ error.position = 2 ∧
          call'.request (.opened rebuilt (some 3) 0) = .error (.rejected error) t' ∧
          t.context.furthest = t'.context.furthest := by
  intro s call call'
  have hg : reused.IsStraight := .of_rank (by decide) (by decide) (fun id => id) (by decide)
  have hg' : rebuilt.IsStraight := .of_rank (by decide) (by decide) (fun id => id) (by decide)
  have hs : s.IsTidy := ⟨hg, Derivation.sure_fresh reused, fun id hid => by cases hid; decide⟩
  have hP : Option.Rel (reused.Alike rebuilt) (some 0) (some 3) := .some reused_alike.2
  -- the four requests, one after the other
  obtain ⟨x, u₁, h₁, rest⟩ := Ensures.exists_ok (x := (call ['b']).request) (s := s)
    (Q := fun _ u₁ => Ensures (call ['c']).request u₁ (fun _ _ => False) fun why u₂ =>
      (∃ e, why = .rejected e ∧ e.position = 0) ∧ Ensures (call [' ', 'd']).request u₂ (fun _ _ => False) fun why u =>
        why = .fault .transform ∧ Ensures (call ['b', ' ', 'b']).request u (fun _ _ => False) fun why _ =>
          ∃ e, why = .rejected e ∧ e.position = 2) (by decide +kernel)
  obtain ⟨_, u₂, h₂, ⟨e, rfl, -⟩, rest⟩ := rest.exists_error
  obtain ⟨_, u, h₃, rfl, rest⟩ := rest.exists_error
  obtain ⟨_, t, h₄, error, rfl, hposition⟩ := rest.exists_error
  have isOf (text : List Char) : (call text).IsOf reused :=
    ⟨trivial, fun id hid => by cases hid; decide, Or.inl rfl, nofun⟩
  have reaches₁ : s.Reaches u₁ := .answered .start (isOf ['b']) h₁
  have reaches₂ : s.Reaches u₂ := .refused reaches₁ ((isOf ['c']).grow (reaches₁.tidy hs).2.grammar) h₂
  have reaches : s.Reaches u := .refused reaches₂ ((isOf [' ', 'd']).grow (reaches₂.tidy hs).2.grammar) h₃
  have hcall : (call ['b', ' ', 'b']).Alike u.grammar rebuilt call' :=
    ⟨rfl, rfl, .rule (reused_alike.1.grow (reaches.tidy hs).2.grammar (.refl rebuilt)), .absent⟩
  obtain ⟨t', h₄', hrecord⟩ := (Session.requests_independent hs reaches hg' hP 0 hcall).error h₄
  exact ⟨hs, hg', hP, x, u₁, e, u₂, u, h₁, h₂, h₃, reaches, hcall, error, t, t', h₄, hposition, h₄', hrecord⟩

end Descent
