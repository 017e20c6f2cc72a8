import Descent.Proofs.Likeness.Shift
import Descent.Proofs.Run.Level
import Descent.Proofs.WholeInput.Coherent

/-!
# Leading whitespace does not matter

A request that allows a class of characters as whitespace may have any number of them in front of its text: it ends as
it does without them, in the same value, in a report at the same character, or in the same fault
(`Session.leading_whitespace_ignored`).

The two runs start at places that do not correspond. What brings them together is the first thing that they do: the
policy takes as many characters of the class as there are, and so leaves the same text with and without a lead
(`Plan.ensures_skip`). From there on they see the same text. But they have been told different things by then: without a
lead, the policy may have failed, and a failure reads expectations. So the windows are exchanged first and what is
kept afterwards, from a state in between (`Likeness.parse_level`). On their way back up, the failure of the one run may
stand where its rule began and that of the other may not; only one of them is stamped then, and stamping moves nothing.
-/

namespace Descent

variable {κ : Type}

/-! ## 1. Runs in windows that show the same text -/

namespace Likeness

variable {K : Likeness} {C : View → Prop} {P : Option RuleId} {c c' : Context κ}

theorem orderly (K : Likeness) : Orderly K.Views := fun hv hw => hv.start_lt_iff hw

/-- The endings of runs that go on in step. -/
abbrev Endings (K : Likeness) (C : View → Prop) : Ending κ → Ending κ → Prop :=
  Ending.Rel (Value.Rel (K.Seen C)) K.Views

/-- How two such runs end: alike, and with records at corresponding places. -/
def EndsLevel (K : Likeness) (C : View → Prop) (P : Option RuleId) (r : Result κ) (t : ParseState κ) (r' : Result κ)
    (t' : ParseState κ) : Prop :=
  K.Endings C r.ending r'.ending ∧ Context.Level K.Views P t.context t'.context

theorem Results.endings {r r' : Result κ} (h : K.Results C r r') : K.Endings C r.ending r'.ending := by
  cases h with
  | parsed hx hw => exact .parsed hx hw
  | failed hf => exact .failed hf.rest

/-- Between contexts whose records stand level there is one that is like the first and differs from the second in what
its record says. -/
theorem exists_between (h : Context.Level K.Views P c c') : ∃ m, K.Contexts c m ∧ Context.Level Eq P m c' := by
  obtain ⟨hwhitespace, hwhitespace', hsuspended, hfurthest⟩ := h
  generalize hf : c.furthest = furthest at hfurthest
  generalize hf' : c'.furthest = furthest' at hfurthest
  cases hfurthest with
  | none =>
    refine ⟨c', ⟨hwhitespace.trans hwhitespace'.symm, hsuspended, ?_⟩, hwhitespace', hwhitespace', rfl, ?_⟩
    · rw [hf, hf']
      exact .none
    · rw [hf']
      exact .none
  | @some f f' hrest =>
    let said : Failure κ := ⟨f'.rest, f.expected, f.whitespace⟩
    refine ⟨{ c' with furthest := some said }, ⟨hwhitespace.trans hwhitespace'.symm, hsuspended, ?_⟩, hwhitespace',
      hwhitespace', rfl, ?_⟩
    · rw [hf]
      exact .some ⟨hrest, rfl, rfl⟩
    · rw [hf']
      exact .some rfl

variable [DecidableEq κ] [CustomMatcher κ] {g : Grammar κ} {s s' : ParseState κ}

/-- Runs in windows that show the same text end alike and leave level records, whatever they have been told. -/
theorem parse_level (hg : g.LooksAtText C) (hclosed : g.IsClosed) (hP : g.Has P) (fuel : Nat) {id : RuleId}
    (hid : id < g.rules.size) {v v' : View} (hv : K.Views v v') (hs : Context.Level K.Views P s.context s'.context) :
    EnsuresBothUnless g.StopsEndless (g.parse fuel id v) s (g.parse fuel id v') s' (K.EndsLevel C P) := by
  obtain ⟨m, hlike, hlevel⟩ := exists_between hs
  have windows := parse_alike hg fuel id v v' s ⟨s.derivation, m⟩ hv ⟨rfl, hlike⟩
  have told := Grammar.parse_level hg.library hclosed fuel P id v' ⟨s.derivation, m⟩ s' hP hid hlevel
  refine (EnsuresBothUnless.after windows told).imp ?_
  rintro r t r' t' ⟨y, u, ⟨hy, hu⟩, hr, ht⟩
  refine ⟨hr ▸ hy.endings, ?_, ht.whitespace', hu.context.suspended.trans ht.suspended, ?_⟩
  · exact hu.context.whitespace.trans ht.whitespace
  · have hfurthest := hu.context.furthest
    have hsame := ht.furthest
    generalize t.context.furthest = a at hfurthest ⊢
    generalize u.context.furthest = b at hfurthest hsame
    generalize t'.context.furthest = d at hsame ⊢
    cases hfurthest with
    | none => cases hsame with | none => exact .none
    | some hf => cases hsame with | some hrest => exact .some (hrest ▸ hf.rest)

end Likeness

/-! ## 2. Skipping a class of characters -/

section Skip

/-- A rule with a body is there as a policy. -/
theorem Grammar.HasBody.has {g : Grammar κ} {p : RuleId} {body : Body κ} (h : g.HasBody p body) : g.Has (some p) := by
  rintro _ ⟨⟩
  exact h.lt_size

variable [CustomMatcher κ]

/-- The policy that a class of characters makes. -/
def CharClass.policyBody (k : CharClass) : Body κ := .token (.many (.charClass k)) (some fun _ => .ok .none)

/-- The window behind all characters of a class that a window begins with. -/
def View.Behind (k : CharClass) (v w : View) : Prop :=
  w.source = v.source ∧ w.stop = v.stop ∧ w.start = v.start + (v.chars.takeWhile k.contains).length

/-- What is left of a window by a policy that ends so. -/
def Ending.skipped (v : View) : Ending κ → View
  | .parsed _ w => w
  | .failed _ => v

/-- Such a policy takes all characters of the class, or fails where there is none. -/
theorem CharClass.exists_taken (k : CharClass) (v : View) :
    ∃ r : Result κ, (Matcher.many (.charClass k)).taken v (fun _ => .ok .none) = .ok r ∧
      v.Behind k (r.ending.skipped v) := by
  have hsplit := Matcher.split_eq_width (m := (Matcher.many (.charClass k) : Matcher κ)) rfl v
  have hwidth : (Matcher.many (.charClass k) : Matcher κ).width? v.chars = .ok (k.runWidth? v.chars) := rfl
  rw [hwidth] at hsplit
  cases hw : k.runWidth? v.chars with
  | none =>
    rw [hw] at hsplit
    refine ⟨_, except_bind_of_ok hsplit, rfl, rfl, ?_⟩
    have hzero : (v.chars.takeWhile k.contains).length = 0 := by
      by_contra hne
      cases hw.symm.trans (CharClass.runWidth?_eq_some_iff.mpr ⟨Nat.pos_of_ne_zero hne, rfl⟩)
    rw [hzero]
    rfl
  | some n =>
    obtain ⟨-, hn⟩ := CharClass.runWidth?_eq_some_iff.mp hw
    have hle : n ≤ v.chars.length := hn ▸ (List.takeWhile_sublist _).length_le
    obtain ⟨hstop, hcut⟩ := View.split_add_eq_ok hle
    let halves := v.cut (v.start + n) (Nat.le_add_right _ _) hstop
    have hsplit : (Matcher.many (.charClass k) : Matcher κ).split v = .ok (some halves) := by
      rw [hsplit, hw]
      exact except_bind_of_ok hcut
    refine ⟨.parsed .none halves.2, ?_, rfl, rfl, ?_⟩
    · exact except_bind_of_ok hsplit
    · rw [← hn]
      rfl

variable [DecidableEq κ] {g : Grammar κ} {s : ParseState κ}

/-- Under a policy of a class of characters, skipping takes all of them there are, and changes no context. -/
theorem Plan.ensures_skip (hg : g.IsLibrary) (hclosed : g.IsClosed) {p : RuleId} {k : CharClass}
    (hp : g.HasBody p k.policyBody) (hs : s.context.whitespace = some p) (hsuspended : s.context.suspended = 0)
    (fuel : Nat) (v : View) :
    Ensures ((Plan.skip v).exec g (g.parse (fuel + 1))) s (fun w t => v.Behind k w ∧ t.context = s.context)
      fun why _ => g.StopsEndless why := by
  have hP : g.Has s.context.whitespace := hs ▸ hp.has
  obtain ⟨label, hr⟩ := hp
  have hproper : ∀ target, (k.policyBody : Body κ) ≠ .placeholder target := nofun
  rw [Plan.skip, ensures_exec_policy, hs]
  rw [Plan.exec, ensures_bind, Scope.around_eq, Parse.ensures_bracketed, Grammar.parse_eq_reported hr hproper]
  obtain ⟨r, htaken, hbehind⟩ := k.exists_taken (κ := κ) v
  have hplan : (k.policyBody : Body κ).plan v = .done r := by
    rw [CharClass.policyBody, Body.plan, htaken]
    rfl
  rw [hplan]
  -- recording is suspended for the policy, so that its failure leaves no trace
  have quiet := Grammar.ensures_reported_quiet (s := { s with context := Scope.quiet.enter s.context }) hg hclosed
    (g.parse fuel) (Grammar.lt_size_of_rule? hr) hP (by simp [Scope.enter, hsuspended]) v r
  show Ensures (g.reported (g.parse fuel) p v r) _ _ _
  refine quiet.imp ?_ fun why t h => h
  rintro y t ⟨hy, ht⟩
  have hcontext : Scope.quiet.leave s.context t.context = s.context := by
    rw [ht]
    simp [Scope.leave, Scope.enter]
  rw [← hy] at hbehind
  cases y with
  | parsed x w => exact ⟨hbehind, hcontext⟩
  | failed f => exact ⟨hbehind, hcontext⟩

end Skip

/-! ## 3. The anchor -/

section Anchor

variable [DecidableEq κ] [CustomMatcher κ] {g : Grammar κ} {K : Likeness} {C : View → Prop} {s s' : ParseState κ}

/-- What a rule comes to behind ambient whitespace, if what the policy leaves corresponds. -/
theorem Grammar.skipping_level (hg : g.LooksAtText C) (hclosed : g.IsClosed) {id inner p : RuleId}
    (hbody : g.HasBody id (.skipping inner)) (hinner : inner < g.rules.size) {k : CharClass}
    (hp : g.HasBody p k.policyBody) {v v' : View} (hskip : ∀ w w', v.Behind k w → v'.Behind k w' → K.Views w w')
    (fuel : Nat) (hs : Context.Level K.Views (some p) s.context s'.context) (hsuspended : s.context.suspended = 0) :
    EnsuresBothUnless g.StopsEndless (g.parse (fuel + 2) id v) s (g.parse (fuel + 2) id v') s'
      (K.EndsLevel C (some p)) := by
  obtain ⟨label, hr⟩ := hbody
  have hP : g.Has (some p) := hp.has
  refine parse_of_body_level hg.library hclosed hP K.orderly hr nofun ?_
  rw [Body.plan, Body.plan, Plan.exec_bind, Plan.exec_bind]
  -- both skip first, and find themselves at the same text
  have skipped := EnsuresBothUnless.of_ensures (Q := fun w t w' t' => K.Views w w' ∧
      Context.Level K.Views (some p) t.context t'.context)
    (Plan.ensures_skip hg.library hclosed hp hs.whitespace hsuspended fuel v)
    (Plan.ensures_skip hg.library hclosed hp hs.whitespace' (hs.suspended ▸ hsuspended) fuel v')
    fun w t w' t' h h' => ⟨hskip w w' h.1 h'.1, h.2 ▸ h'.2 ▸ hs⟩
  refine skipped.bind ?_
  rintro w t w' t' ⟨hw, ht⟩
  refine (Likeness.parse_level hg hclosed hP (fuel + 1) hinner hw ht).bind ?_
  rintro r u r' u' ⟨hr, hu⟩
  rcases hr.results with ⟨x, x', a, a', rfl, rfl, hx, ha⟩ | ⟨f, f', rfl, rfl, hf⟩
  · exact Or.inr (Or.inr ⟨.parsed hx ha, hu⟩)
  · -- a failure where the rule began names what whitespace is allowed, and stays where it is
    have atEntry : f.offset = w.start ↔ f'.offset = w'.start := hw.start_eq_iff hf
    dsimp only
    by_cases h : f.offset = w.start
    · rw [if_pos h, if_pos (atEntry.mp h)]
      refine ((Plan.allow_tells f).level hg.library hclosed hP (Plan.allow_tells f') hu).imp ?_
      rintro y t y' t' ⟨hy, hy', ht⟩
      exact ⟨hy ▸ hy' ▸ .failed hf, ht⟩
    · rw [if_neg h, if_neg fun h' => h (atEntry.mpr h')]
      exact Or.inr (Or.inr ⟨.failed hf, hu⟩)

/-- **What an anchor comes to** at two windows where what is skipped leaves the same text. -/
theorem Grammar.IsAnchor.parse_level (hg : g.LooksAtText C) (hclosed : g.IsClosed) {top anchor p : RuleId}
    (h : g.IsAnchor top anchor) (htop : top < g.rules.size) {k : CharClass} (hp : g.HasBody p k.policyBody)
    {v v' : View} (hskip : ∀ w w', v.Behind k w → v'.Behind k w' → K.Views w w') (fuel : Nat)
    (hs : Context.Level K.Views (some p) s.context s'.context) (hsuspended : s.context.suspended = 0) :
    EnsuresBothUnless g.StopsEndless (g.parse (fuel + 4) anchor v) s (g.parse (fuel + 4) anchor v') s'
      (K.EndsLevel C (some p)) := by
  obtain ⟨body, token, last, all, hbody, htoken, hlast, ⟨_, hall⟩, ⟨_, hanchor⟩⟩ := h
  have hP : g.Has (some p) := hp.has
  have whole : EnsuresBothUnless g.StopsEndless (g.parse (fuel + 3) all v) s (g.parse (fuel + 3) all v') s'
      (K.EndsLevel C (some p)) := by
    refine parse_of_body_level hg.library hclosed hP K.orderly hall nofun ?_
    refine (skipping_level hg hclosed hbody htop hp hskip fuel hs hsuspended).bind ?_
    rintro r t r' t' ⟨hr, ht⟩
    rcases hr.results with ⟨x, x', w, w', rfl, rfl, hx, hw⟩ | ⟨f, f', rfl, rfl, hf⟩
    · refine (Likeness.parse_level hg hclosed hP (fuel + 2) hlast.lt_size hw ht).bind ?_
      rintro r u r' u' ⟨hr, hu⟩
      rcases hr.results with ⟨y, y', a, a', rfl, rfl, hy, ha⟩ | ⟨f, f', rfl, rfl, hf⟩
      · exact Or.inr (Or.inr ⟨.parsed (.tuple (.cons hx (.cons hy .nil))) ha, hu⟩)
      · exact Or.inr (Or.inr ⟨.failed hf, hu⟩)
    · exact Or.inr (Or.inr ⟨.failed hf, ht⟩)
  refine parse_of_body_level hg.library hclosed hP K.orderly hanchor nofun (whole.bind ?_)
  rintro r t r' t' ⟨hr, ht⟩
  rcases hr.results with ⟨x, x', w, w', rfl, rfl, hx, hw⟩ | ⟨f, f', rfl, rfl, hf⟩
  · have first := Value.element_isBlind (κ := κ) 0 (K.Seen C) (fun _ _ => Likeness.Seen.chars_eq)
      (fun _ => Likeness.Seen.const) x x' hx
    rw [Plan.exec_ofExcept, Plan.exec_ofExcept]
    refine Or.inr (Or.inr (.ofExcept (first.bind fun y y' hy => ?_) (fun _ _ h => ⟨h, ht⟩) trivial))
    exact Ending.Rel.parsed hy hw
  · exact Or.inr (Or.inr ⟨.failed hf, ht⟩)

end Anchor

/-! ## 4. Rules that are added for a request -/

/-- A body of which a rule can be added to a grammar that looks at text. -/
structure Body.Suits (C : View → Prop) (g : Grammar κ) (b : Body κ) : Prop extends b.Fits g where
  matchers : ∀ m ∈ b.leaves, m.custom? = none
  transforms : ∀ f, b.transform? = some f → f.IsBlind C
  optional : ∀ inner default, b ≠ .optional inner default

namespace Body.Suits

variable {C : View → Prop} {g : Grammar κ}

theorem token {m : Matcher κ} (hm : m.custom? = none) : (Body.token m none).Suits C g where
  toFits := .token m none
  matchers := List.forall_mem_cons.mpr ⟨hm, nofun⟩
  transforms := nofun
  optional := nofun

theorem policyBody (k : CharClass) : (k.policyBody : Body κ).Suits C g where
  toFits := .token _ _
  matchers := List.forall_mem_cons.mpr ⟨rfl, nofun⟩
  transforms _ hf :=
    have constant : (Value.none : Value κ).IsConstant C := fun _ _ => .none
    Option.some.inj hf ▸ constant.isBlind
  optional := nofun

theorem skipping {inner : RuleId} (h : inner < g.rules.size) : (Body.skipping inner).Suits C g where
  toFits := .skipping h
  matchers := nofun
  transforms := nofun
  optional := nofun

theorem sequence {parts : List RuleId} (h : ∀ q ∈ parts, q < g.rules.size) : (Body.sequence parts).Suits C g where
  toFits := .sequence h
  matchers := nofun
  transforms := nofun
  optional := nofun

theorem map {inner : RuleId} (h : inner < g.rules.size) {f : Transform κ} (hf : f.IsBlind C) :
    (Body.map inner f).Suits C g where
  toFits := .map h f
  matchers := nofun
  transforms _ h := Option.some.inj h ▸ hf
  optional := nofun

end Body.Suits

/-- A grammar to which such rules have been added. -/
structure Grammar.Grows (C : View → Prop) (g g' : Grammar κ) : Prop where
  part : g.IsPartOf g'
  looksAtText : g'.LooksAtText C
  closed : g'.IsClosed
  guarded : g.IsGuarded → g'.IsGuarded

namespace Grammar.Grows

variable {C : View → Prop} {g g' g'' : Grammar κ}

theorem refl (hg : g.LooksAtText C) (hclosed : g.IsClosed) : g.Grows C g := ⟨.refl g, hg, hclosed, id⟩

theorem trans (h : g.Grows C g') (h' : g'.Grows C g'') : g.Grows C g'' :=
  ⟨h.part.trans h'.part, h'.looksAtText, h'.closed, fun hg => h'.guarded (h.guarded hg)⟩

theorem push (hg : g.LooksAtText C) (hclosed : g.IsClosed) {body : Body κ} (hb : body.Suits C g)
    (label : Option String) : g.Grows C (g.push label body) where
  part := Grammar.isPartOf_push
  looksAtText := by
    refine ⟨fun id rule hr => ?_, fun id rule hr => ?_, fun id rule hr => ?_, fun id label inner default hr => ?_⟩
    all_goals rcases Grammar.rule?_push_cases hr with hr | ⟨-, hrule⟩
    · exact hg.library id rule hr
    · exact hrule ▸ hb.library
    · exact hg.matchers id rule hr
    · exact hrule ▸ hb.matchers
    · exact hg.transforms id rule hr
    · exact hrule ▸ hb.transforms
    · exact hg.defaults id label inner default hr
    · exact absurd (congrArg Rule.body hrule).symm (hb.optional inner default)
  closed := hclosed.push hb.refs label
  guarded hguarded := hguarded.push hb.placeholder label

end Grammar.Grows

section Build

variable {C : View → Prop} {g : Grammar κ} {E : Fault → Grammar κ → Prop}

theorem Build.ensures_add_grows (hg : g.LooksAtText C) (hclosed : g.IsClosed) {label : Option String} {body : Body κ}
    (hb : body.Suits C g) {Q : RuleId → Grammar κ → Prop}
    (h : ∀ id g', g.Grows C g' → g'.HasBody id body → Q id g') : Ensures (Build.add label body) g Q E :=
  h g.rules.size (g.push label body) (.push hg hclosed hb label) ⟨label, Grammar.rule?_push_size⟩

variable [CustomMatcher κ]

/-- A rule is made of what can stand for one. -/
theorem Build.asRule_grows (hg : g.LooksAtText C) (hclosed : g.IsClosed) {o : Operand κ}
    (hrule : ∀ id, o = .rule id → id < g.rules.size) (hmatcher : ∀ m, o = .matcher m → m.custom? = none) :
    Ensures (Build.asRule o) g (fun top g' => g.Grows C g' ∧ top < g'.rules.size) fun _ _ => True := by
  have token {m : Matcher κ} (hm : m.custom? = none) : Ensures (Build.add (some m.description) (.token m none)) g
      (fun top g' => g.Grows C g' ∧ top < g'.rules.size) fun _ _ => True :=
    ensures_add_grows hg hclosed (.token hm) fun id g' hgrows hid => ⟨hgrows, hid.lt_size⟩
  cases o with
  | rule id => exact ⟨.refl hg hclosed, hrule id rfl⟩
  | matcher m => exact token (hmatcher m rfl)
  | text text => exact token rfl
  | _ => trivial

/-- A class of characters makes a policy. -/
theorem Build.policy_grows (hg : g.LooksAtText C) (hclosed : g.IsClosed) (k : CharClass) :
    Ensures (Build.policy (.matcher (.charClass k))) g
      (fun policy g' => g.Grows C g' ∧ ∃ p, policy = some p ∧ g'.HasBody p k.policyBody) fun _ _ => True := by
  show Ensures (do return some (← Build.add _ k.policyBody)) g _ _
  rw [ensures_bind]
  exact ensures_add_grows hg hclosed (.policyBody k) fun p g' hgrows hp => ⟨hgrows, p, rfl, hp⟩

theorem Build.ensures_skipping_grows (hg : g.LooksAtText C) (hclosed : g.IsClosed) {inner : RuleId}
    (hinner : inner < g.rules.size) {Q : RuleId → Grammar κ → Prop}
    (h : ∀ id g', g.Grows C g' → g'.HasBody id (.skipping inner) → Q id g') :
    Ensures (Build.skipping (.rule inner)) g Q E :=
  show Ensures (Build.add (g.label inner) (.skipping inner)) g Q E from
    ensures_add_grows hg hclosed (.skipping hinner) h

/-- The rules of an anchor are made. -/
theorem Session.anchored_grows (hg : g.LooksAtText C) (hclosed : g.IsClosed) {top : RuleId}
    (htop : top < g.rules.size) : Ensures (Session.anchored top) g (fun _ g' => g.Grows C g') E := by
  rw [Session.anchored, ensures_bind]
  refine Build.ensures_skipping_grows hg hclosed htop fun body g₁ h₁ hbody => ?_
  rw [ensures_bind]
  refine Build.ensures_add_grows h₁.looksAtText h₁.closed (.token rfl) fun token g₂ h₂ htoken => ?_
  rw [ensures_bind]
  refine Build.ensures_skipping_grows h₂.looksAtText h₂.closed htoken.lt_size fun last g₃ h₃ hlast => ?_
  rw [ensures_bind]
  have parts : ∀ q ∈ [body, last], q < g₃.rules.size :=
    List.forall_mem_cons.mpr ⟨(h₂.trans h₃).part.lt_size hbody.lt_size, List.forall_mem_singleton.mpr hlast.lt_size⟩
  refine Build.ensures_add_grows h₃.looksAtText h₃.closed (.sequence parts) fun all g₄ h₄ hall => ?_
  have first := Body.Suits.map hall.lt_size (Value.element_isBlind (C := C) 0)
  show Ensures (Build.add (g₄.label all) (.map all (Value.element 0))) g₄ (fun _ g' => g.Grows C g') E
  refine Build.ensures_add_grows h₄.looksAtText h₄.closed first fun anchor g₅ h₅ _ => ?_
  exact h₁.trans (h₂.trans (h₃.trans (h₄.trans h₅)))

end Build

/-! ## 5. Requests -/

/-- A text behind a lead, and the text by itself. -/
def Likeness.behind (i j : Nat) (lead text : List Char) : Likeness where
  here := ⟨⟨i, lead ++ text⟩, lead.length, (lead ++ text).length, by simp, Nat.le_refl _⟩
  there := .ofSource ⟨j, text⟩
  chars_eq := by
    rw [View.chars_ofSource]
    simp [View.chars]

section Behind

variable {i j : Nat} {lead text : List Char} {k : CharClass}

@[simp] theorem Likeness.shift_behind : (Likeness.behind i j lead text).shift = -lead.length := by
  simp [shift, behind, View.ofSource]

/-- A lead of characters of a class is skipped with those that the text begins with. -/
theorem Likeness.views_of_behind (hlead : ∀ c ∈ lead, k.contains c = true) {w w' : View}
    (hw : (View.ofSource ⟨i, lead ++ text⟩).Behind k w) (hw' : (View.ofSource ⟨j, text⟩).Behind k w') :
    (Likeness.behind i j lead text).Views w w' := by
  obtain ⟨hsource, hstop, hstart⟩ := hw
  obtain ⟨hsource', hstop', hstart'⟩ := hw'
  rw [View.chars_ofSource, List.takeWhile_append_of_pos hlead, List.length_append] at hstart
  rw [View.chars_ofSource] at hstart'
  simp only [View.ofSource, Source.length, List.length_append, Nat.zero_add] at hsource hstop hstart
  simp only [View.ofSource, Source.length, Nat.zero_add] at hsource' hstop' hstart'
  refine ⟨hsource, hsource', ?_, ?_, ?_, ?_⟩
  · rw [shift_behind]
    omega
  · rw [shift_behind]
    omega
  · show lead.length ≤ w.start
    omega
  · show w.stop ≤ (lead ++ text).length
    rw [List.length_append]
    omega

end Behind

namespace Session

variable {K : Likeness} {C : View → Prop}

/-- How requests end that go on in step: in values that correspond, in reports at places that do, or in the same
fault, if they end at all. -/
inductive Corresponds (K : Likeness) (C : View → Prop) : EStateM.Result Problem (Session κ) (Value κ) →
    EStateM.Result Problem (Session κ) (Value κ) → Prop
  | value {x x' : Value κ} {u u' : Session κ} (hx : Value.Rel (K.Seen C) x x') : Corresponds K C (.ok x u) (.ok x' u')
  | rejected {e e' : ParseError} {u u' : Session κ} (hposition : e'.position = e.position + K.shift) :
    Corresponds K C (.error (.rejected e) u) (.error (.rejected e') u')
  | fault {u u' : Session κ} (e : Fault) : Corresponds K C (.error (.fault e) u) (.error (.fault e) u')
  | unfinished {u u' : Session κ} : Corresponds K C (.error .unfinished u) (.error .unfinished u')

/-- Failures at corresponding places are reported at corresponding places, whichever of them is. -/
theorem reported_views (settings : Settings) {f f' : Failure κ} (hf : K.Views f.rest f'.rest)
    {furthest furthest' : Option (Failure κ)}
    (h : Option.Rel (fun f f' => K.Views f.rest f'.rest) furthest furthest') :
    K.Views (reported settings f furthest).rest (reported settings f' furthest').rest := by
  cases h with
  | none => exact hf
  | @some best best' hbest =>
    have later : best.offset < f.offset ↔ best'.offset < f'.offset := hbest.start_lt_iff hf
    have same : (settings.reportFurthest && decide (f.offset ≤ best.offset)) =
        (settings.reportFurthest && decide (f'.offset ≤ best'.offset)) := by
      simp only [← Nat.not_lt, later]
    rw [reported, reported, same]
    split
    · exact hbest
    · exact hf

variable {s s' : Session κ}

/-- What is built depends on the grammar only. -/
theorem building_same {α : Type} {x : Build κ α} (h : s.grammar = s'.grammar) :
    EnsuresBoth (building x) s (building x) s' (fun a t b t' => a = b ∧ t.grammar = t'.grammar) fun _ _ => True := by
  unfold EnsuresBoth building
  rw [h]
  cases x s'.grammar with
  | ok a g => exact ⟨rfl, rfl⟩
  | error e g => exact ⟨rfl, trivial⟩

variable [CustomMatcher κ] {o w : Operand κ}

/-- A policy that is given is built. -/
theorem chosenPolicy_of_ne_absent (hw : w ≠ .absent) : chosenPolicy w = building (Build.policy w) := by
  cases w with
  | absent => exact absurd rfl hw
  | _ => rfl

/-- What is prepared under a policy of its own depends on the grammar only, too. -/
theorem prepared_same (h : s.grammar = s'.grammar) (hw : w ≠ .absent) :
    EnsuresBoth (prepared o w) s (prepared o w) s' (fun p t p' t' => p = p' ∧ t.grammar = t'.grammar)
      fun _ _ => True := by
  rw [prepared, chosenPolicy_of_ne_absent hw]
  refine (building_same h).bind ?_
  rintro top t _ t' ⟨rfl, ht⟩
  have reset : EnsuresBoth (modifyContext Context.reset) t (modifyContext Context.reset) t'
      (fun _ u _ u' => u.grammar = u'.grammar) fun _ _ => True := ht
  refine reset.bind fun _ u _ u' hu => ?_
  refine (building_same hu).bind ?_
  rintro policy t _ t' ⟨rfl, ht⟩
  refine (building_same ht).bind ?_
  rintro anchor t _ t' ⟨rfl, ht⟩
  exact ⟨rfl, ht⟩

/-- What is prepared under a policy of a class of characters. -/
theorem prepared_grows (hg : s.grammar.LooksAtText C) (hclosed : s.grammar.IsClosed)
    (hrule : ∀ id, o = .rule id → id < s.grammar.rules.size) (hmatcher : ∀ m, o = .matcher m → m.custom? = none)
    (k : CharClass) :
    Ensures (prepared o (.matcher (.charClass k))) s
      (fun p t => s.grammar.Grows C t.grammar ∧ p.top < t.grammar.rules.size ∧
        ∃ q, p.policy = some q ∧ t.grammar.HasBody q k.policyBody) fun _ _ => True := by
  rw [prepared, ensures_bind, ensures_building]
  refine (Build.asRule_grows hg hclosed hrule hmatcher).imp ?_ fun _ _ _ => trivial
  rintro top g ⟨hgrows, htop⟩
  have hw : (.matcher (.charClass k) : Operand κ) ≠ .absent := by simp
  rw [ensures_bind, modifyContext, ensures_modify, ensures_bind, chosenPolicy_of_ne_absent hw, ensures_building]
  refine (Build.policy_grows hgrows.looksAtText hgrows.closed k).imp ?_ fun _ _ _ => trivial
  rintro policy g' ⟨hgrows', q, rfl, hq⟩
  rw [ensures_bind, ensures_building]
  have htop' := hgrows'.part.lt_size htop
  refine (anchored_grows hgrows'.looksAtText hgrows'.closed htop').imp_ok fun anchor g'' hgrows'' => ?_
  exact ⟨hgrows.trans (hgrows'.trans hgrows''), hgrows''.part.lt_size htop', q, rfl, hgrows''.part.hasBody hq⟩

variable [DecidableEq κ] {settings : Settings} {source source' : Source} {p p' : Preparation} {P : Option RuleId}
  {x y : EStateM.Result Problem (Session κ) (Value κ)}

/-- Runs that end alike make requests end alike. -/
theorem Concludes.corresponds (hx : Concludes settings source p s x) (hy : Concludes settings source' p' s' y)
    (hrun : EnsuresBoth (s.grammar.parse runDepth p.anchor (.ofSource source)) (p.start s)
      (s'.grammar.parse runDepth p'.anchor (.ofSource source')) (p'.start s') (K.EndsLevel C P) fun _ _ => True) :
    Corresponds K C x y := by
  cases hx with
  | value h =>
    obtain ⟨r', t', h', hr, -⟩ := hrun.ok h
    rcases hr.results with ⟨_, x', _, w', ⟨⟩, rfl, hvalues, -⟩ | ⟨_, _, ⟨⟩, -⟩
    obtain ⟨u', rfl⟩ := hy.value_iff.mpr ⟨w', t', h'⟩
    exact .value hvalues
  | @rejected f t e journal h hreport =>
    obtain ⟨r', t', h', hr, ht⟩ := hrun.ok h
    rcases hr.results with ⟨_, _, _, _, ⟨⟩, -⟩ | ⟨_, f', ⟨⟩, rfl, hf⟩
    obtain ⟨e', u', he'⟩ := hy.rejected_of h'
    obtain ⟨f'', t'', _, h'', hreport', -⟩ := hy.of_rejected he'
    cases h'.symm.trans h''
    subst he'
    obtain ⟨-, rfl⟩ := Source.report_eq hreport
    obtain ⟨-, rfl⟩ := Source.report_eq hreport'
    exact .rejected (reported_views settings hf ht.furthest).start_eq
  | @stopped why t journal h =>
    obtain ⟨t', h', -⟩ := hrun.error h
    obtain ⟨u', rfl⟩ := hy.stops_of h'
    cases why with
    | fault e => exact .fault e
    | unfinished => exact .unfinished

/-- What is prepared of such requests runs alike, behind a lead and without one. -/
theorem prepared_runs_level (hg : s.grammar.LooksAtText C) (hclosed : s.grammar.IsClosed)
    (hrule : ∀ id, o = .rule id → id < s.grammar.rules.size) (hmatcher : ∀ m, o = .matcher m → m.custom? = none)
    (i j : Nat) {k : CharClass} {lead : List Char} (hlead : ∀ c ∈ lead, k.contains c = true) (text : List Char)
    {t t' : Session κ} (hp : prepared o (.matcher (.charClass k)) s = .ok p t)
    (hp' : prepared o (.matcher (.charClass k)) s' = .ok p t') (ht : t.grammar = t'.grammar) :
    EnsuresBothUnless s.grammar.StopsEndless
      (t.grammar.parse runDepth p.anchor (.ofSource ⟨i, lead ++ text⟩)) (p.start t)
      (t'.grammar.parse runDepth p.anchor (.ofSource ⟨j, text⟩)) (p.start t')
      ((Likeness.behind i j lead text).EndsLevel C p.policy) := by
  obtain ⟨hgrows, htop, q, hq, hpolicy⟩ := (prepared_grows hg hclosed hrule hmatcher k).ok hp
  obtain ⟨-, -, hcontext, hanchor, -⟩ := (prepared_ensures _ _ _).ok hp
  obtain ⟨-, -, hcontext', -⟩ := (prepared_ensures _ _ _).ok hp'
  let K := Likeness.behind i j lead text
  have level : Context.Level K.Views (some q) (p.start t).context (p.start t').context := by
    rw [Preparation.start, Preparation.start, hcontext, hcontext']
    exact ⟨hq, hq, rfl, .none⟩
  have suspended : (p.start t).context.suspended = 0 := by
    rw [Preparation.start, hcontext]
    rfl
  obtain ⟨n, hn⟩ : ∃ n, runDepth = n + 4 := ⟨999996, rfl⟩
  rw [← ht, hq, hn]
  have run := hanchor.parse_level hgrows.looksAtText hgrows.closed htop hpolicy
    (fun w w' => Likeness.views_of_behind hlead) n level suspended
  -- a circle of placeholders has been there before
  have before (why : Stop) : t.grammar.StopsEndless why → s.grammar.StopsEndless why := by
    rintro ⟨e, rfl, hcircle, he⟩
    exact ⟨e, rfl, fun hguarded => hcircle (hgrows.guarded hguarded), he⟩
  exact run.imp_error before

/-- **Leading whitespace does not matter.** Of a text and of the same text behind characters of a class that is allowed
as whitespace, one and the same is requested, in whichever contexts. Then the two requests end in values that are the
same but for windows, which lie as much further to the left as there are characters in front; or both end in reports,
of which the positions differ by as much, whether they are about the furthest failure or about the last one; or both
let the same fault through. Only in a grammar whose placeholders stand for one another in a circle may either of them
fail to end for a derivation that does not. -/
theorem leading_whitespace_ignored (settings : Settings) (hg : s.grammar.LooksAtText C) (hclosed : s.grammar.IsClosed)
    (hgrammar : s.grammar = s'.grammar) (hrule : ∀ id, o = .rule id → id < s.grammar.rules.size)
    (hmatcher : ∀ m, o = .matcher m → m.custom? = none) (i j : Nat) (k : CharClass) {lead : List Char}
    (hlead : ∀ c ∈ lead, k.contains c = true) (text : List Char) :
    let K := Likeness.behind i j lead text
    let x := parseToEnd settings o ⟨i, lead ++ text⟩ (.matcher (.charClass k)) s
    let y := parseToEnd settings o ⟨j, text⟩ (.matcher (.charClass k)) s'
    K.shift = -lead.length ∧
      (Corresponds K C x y ∨ ∃ e u, s.grammar.Endless e ∧ (x = .error (.fault e) u ∨ y = .error (.fault e) u)) := by
  intro K x y
  refine ⟨Likeness.shift_behind, ?_⟩
  have same := prepared_same (o := o) (w := .matcher (.charClass k)) hgrammar nofun
  cases hp : prepared o (.matcher (.charClass k)) s with
  | error why u =>
    obtain ⟨⟨e, rfl⟩, -⟩ := (prepared_ensures _ _ _).error hp
    obtain ⟨u', hp', -⟩ := same.error hp
    have hx : x = .error (.fault e) u := by
      rw [← bind_apply_of_error hp, ← parseToEnd_eq]
    have hy : y = .error (.fault e) u' := by
      rw [← bind_apply_of_error hp', ← parseToEnd_eq]
    rw [hx, hy]
    exact Or.inl (.fault e)
  | ok p t =>
    obtain ⟨_, t', hp', rfl, ht⟩ := same.ok hp
    have hx := parseToEnd_concludes settings ⟨i, lead ++ text⟩ hp
    have hy := parseToEnd_concludes settings ⟨j, text⟩ hp'
    rcases prepared_runs_level hg hclosed hrule hmatcher i j hlead text hp hp' ht with
      ⟨_, _, hrun, e, rfl, he⟩ | ⟨_, _, hrun, e, rfl, he⟩ | hrun
    · obtain ⟨u, hu⟩ := hx.stops_of hrun
      exact Or.inr ⟨e, u, he, Or.inl hu⟩
    · obtain ⟨u, hu⟩ := hy.stops_of hrun
      exact Or.inr ⟨e, u, he, Or.inr hu⟩
    · exact Or.inl (hx.corresponds hy hrun)

end Session

theorem letters_isGuarded : letters.IsGuarded := by
  have none (p q : RuleId) : ¬ letters.HandsOn p q := by
    rintro ⟨label, hr⟩
    have hmem := Array.mem_of_getElem? hr
    simp [letters] at hmem
  intro id hcircle
  cases hcircle with
  | single h => exact none _ _ h
  | tail _ h => exact none _ _ h

/-- What follows a letter is none: it is reported at the second character, and behind two blanks at the fourth. -/
theorem leading_whitespace_ignored_letters :
    let blank : CharClass := ⟨.set (.between ' ' ' '), " ", false⟩
    let request (source : Source) : Request FixedMatcher (Value FixedMatcher) :=
      Session.parseToEnd Settings.default (.rule 5) source (.matcher (.charClass blank))
    let s : Session FixedMatcher := ⟨letters, .fresh, .fresh none 0, []⟩
    letters.LooksAtText (fun _ => False) ∧ letters.IsClosed ∧ 5 < letters.rules.size ∧
      (∀ c ∈ [' ', ' '], blank.contains c = true) ∧
      ∃ e u e' u', request ⟨0, [' ', ' ', 'b', 'c']⟩ s = .error (.rejected e) u ∧ e.position = 3 ∧
        request ⟨1, ['b', 'c']⟩ s = .error (.rejected e') u' ∧ e'.position = 1 := by
  intro blank request s
  have hclosed : letters.IsClosed := by decide
  have hlead : ∀ c ∈ [' ', ' '], blank.contains c = true :=
    List.forall_mem_cons.mpr ⟨by decide, List.forall_mem_cons.mpr ⟨by decide, nofun⟩⟩
  obtain ⟨_, u, hx, e, rfl, hthree⟩ := Ensures.exists_error (s := s) (x := request ⟨0, [' ', ' ', 'b', 'c']⟩)
    (E := fun why _ => ∃ e, why = .rejected e ∧ e.position = 3) (by decide +kernel)
  obtain ⟨hshift, ends⟩ := Session.leading_whitespace_ignored (s := s) Settings.default letters_looksAtText hclosed rfl
    (o := .rule 5) (by rintro _ ⟨⟩; decide) nofun 0 1 blank hlead ['b', 'c']
  rcases ends with ends | ⟨_, _, hendless, -⟩
  · have ends : Session.Corresponds _ _ (request ⟨0, [' ', ' ', 'b', 'c']⟩ s) (request ⟨1, ['b', 'c']⟩ s) := ends
    refine ⟨letters_looksAtText, hclosed, by decide, hlead, e, u, ?_⟩
    clear_value request
    rw [hx] at ends
    generalize request ⟨1, ['b', 'c']⟩ s = y at ends
    cases ends with
    | @rejected _ e' _ u' hposition =>
      rw [hshift, hthree] at hposition
      exact ⟨e', u', hx, hthree, rfl, hposition⟩
  · exact absurd letters_isGuarded hendless.1

end Descent
