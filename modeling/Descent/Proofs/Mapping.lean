import Descent.Matcher.Fixed
import Descent.Transform
import Descent.Proofs.Pairs
import Descent.Proofs.Run.Noted
import Descent.Proofs.Run.PassedOn

/-!
# Mapping is transparent

A map applies a transform to the value of the rule inside, and nothing else about it should be seen. It is a rule of its
own, though: it has an expectation of its own, stamps the failure that it is given, and offers it to the record. None of
this adds anything (`Grammar.map_failed`). The matchers have been named by the rule inside, and the record has noted its
failure. So **stacks of maps come to what the composite of their transforms comes to**, with the same context in every
case, that of a transform that raises included (`Grammar.mapping_transparent`).

In one thing maps do show. What has been kept for a map before it runs may name the matchers in another order than what
is kept for the rule inside, if the two were asked for from different places of a circle, and then the failure is
reported in the order of the map (`mapping_reorders`). Where nothing else is kept for the maps than for the rule inside,
the failure is the very same: this is what `Grammar.Spoken` carries through a stack. It is so when none of them has been
asked for before, and stays so then, since maps that are asked for after the rule inside are answered as it was.
-/

namespace Descent

variable {κ : Type}

/-! ## 1. Stacks of maps -/

/-- Transforms one after another; the last that is applied comes first. -/
def Transform.stacked : List (Transform κ) → Transform κ
  | [], x => .ok x
  | f :: fs, x => stacked fs x >>= f

/-- Rules that map the results of another one, put one around another; the outermost comes first. -/
inductive Grammar.Maps (g : Grammar κ) (p : RuleId) : RuleId → List RuleId → List (Transform κ) → Prop
  | none : Maps g p p [] []
  | layer {id inner : RuleId} {label : Option String} {f : Transform κ} {ids : List RuleId} {fs : List (Transform κ)}
    (hr : g.rule? id = some ⟨label, .map inner f⟩) (h : Maps g p inner ids fs) : Maps g p id (id :: ids) (f :: fs)

variable [DecidableEq κ] {g : Grammar κ} {p id first inner : RuleId} {rule : Rule κ} {label : Option String}
  {transform : Transform κ} {ids : List RuleId} {fs : List (Transform κ)} {v w : View} {f f' : Failure κ}
  {d : Derivation κ} {s t : ParseState κ} {fuel : Nat} {P : Option RuleId}

/-! ## 2. What is kept for the rule inside -/

section Spoken

variable {e : Expectation κ} {ms : List (Matcher κ)}

/-- What is kept when a failure has been reported at the entry of a rule, or of the rule that it stands for: the
expectation of that rule, with which the failure has been stamped, and what the policy was told to show for it. -/
structure Grammar.Spoken (g : Grammar κ) (P : Option RuleId) (p : RuleId) (v : View) (f : Failure κ) (d : Derivation κ)
    (e : Expectation κ) (ms : List (Matcher κ)) : Prop where
  kept : ∃ q rule, Relation.ReflTransGen g.HandsOn p q ∧ g.Proper q rule ∧ d.known? q = some e
  entry : f.offset = v.start
  said : f.stampedBy e (e.allowed ms) = f
  told : e.ambient = true → ∀ d', d'.Keeps d → ∃ d'', g.Told P d' ms d'' ∧ d''.known = d'.known

/-- The rule is answered by what is kept. -/
theorem Grammar.Spoken.expectation (h : g.Spoken P p v f d e ms) : g.expectation p d = .ok e d := by
  obtain ⟨q, rule, hpath, hq, hknown⟩ := h.kept
  obtain ⟨fuel, hfuel, hsize⟩ := g.exists_derivationFuel
  exact expectationWithin_of_handsOn hq hpath hknown (by omega)

/-- A rule that hands on the expectation of another one is answered by what is kept for that one, unless something else
is kept for it. It is the only rule for which more is kept then. -/
theorem Grammar.expectation_handed (hd : d.AtRest) (hr : g.Proper id rule) (hpasses : rule.body.passes? = some first)
    (hfirst : ∃ q rule', Relation.ReflTransGen g.HandsOn first q ∧ g.Proper q rule' ∧ d.known? q = some e)
    (hkept : ∀ e', d.known? id = some e' → e' = e) :
    ∃ d', g.expectation id d = .ok e d' ∧ ∀ q e', d'.known? q = some e' → d.known? q = some e' ∨ e' = e := by
  obtain ⟨q, rule', hpath, hq, hknown⟩ := hfirst
  obtain ⟨fuel, hfuel, hsize⟩ := g.exists_derivationFuel
  suffices answered : Ensures (g.expectation id) d
      (fun e' d' => e' = e ∧ ∀ q e'', d'.known? q = some e'' → d.known? q = some e'' ∨ e'' = e) fun _ _ => False by
    obtain ⟨_, d', h, rfl, hd'⟩ := answered.exists_ok
    exact ⟨d', h, hd'⟩
  rw [Grammar.expectation, hfuel]
  apply Grammar.expectationWithin_ensures
  case absent => exact fun hnone => Option.some_ne_none _ (hr.1.symm.trans hnone)
  case unresolved =>
    intro label hr'
    cases hr'.symm.trans hr.1
    exact absurd rfl (hr.2 none)
  case target => exact fun label target hr' => absurd hr' (hr.ne_target label target)
  case known => exact fun _ e' _ _ hid => ⟨hkept e' hid, fun _ _ h => Or.inl h⟩
  case mute =>
    intro rule₁ hr₁ _ hnone _
    cases hr₁.symm.trans hr.1
    cases (Body.derived?_of_passes hpasses g _).symm.trans hnone
  case cut =>
    intro _ _ _ _ hm
    rw [hd.marked] at hm
    cases hm
  case walk =>
    intro rule₁ walk hr₁ hwalk _ _
    cases hr₁.symm.trans hr.1
    cases (Body.derived?_of_passes hpasses g _).symm.trans hwalk
    have handed := expectationWithin_of_handsOn (d := d.enter id) hq hpath hknown hsize
    rw [Ensures, handed]
    refine ⟨rfl, fun q e'' hq => ?_⟩
    exact (Derivation.known?_conclude hq).imp_right fun h => h.2.1

/-- **A layer that has nothing else to say** says at its entry what has been said, and what is kept for it then is what
is kept for the rule inside. -/
theorem Grammar.Spoken.layer (h : g.Spoken P first v f d e ms) (hd : d.AtRest) (hr : g.Proper id rule)
    (hpasses : rule.body.passes? = some first) (hkept : ∀ e', d.known? id = some e' → e' = e) :
    ∃ d', g.StampsFrom P id v f d f d' ∧ g.Spoken P id v f d' e ms ∧
      ∀ q e', d'.known? q = some e' → d.known? q = some e' ∨ e' = e := by
  obtain ⟨d₁, he, honly⟩ := expectation_handed hd hr hpasses h.kept hkept
  have keeps : d₁.Keeps d := (expectation_again hd he).1.keeps
  have known : d₁.known? id = some e := expectation_kept hd hr.1 hr.2 he
  -- if the policy is asked, it was asked before
  obtain ⟨d₂, hms, hsame⟩ : ∃ d₂, (if e.ambient then g.Told P d₁ ms d₂ else d₂ = d₁) ∧ d₂.known = d₁.known := by
    cases ha : e.ambient with
    | false => exact ⟨d₁, rfl, rfl⟩
    | true => exact h.told ha d₁ keeps
  have same (q : RuleId) : d₂.known? q = d₁.known? q := by rw [Derivation.known?, hsame, Derivation.known?]
  refine ⟨d₂, ?_, ⟨⟨id, rule, .refl, hr, (same id).trans known⟩, h.entry, h.said, fun ha d' hd' => ?_⟩, ?_⟩
  · have stamps := Grammar.StampsFrom.entry h.entry he hms
    rwa [h.said] at stamps
  · exact h.told ha d' (keeps.trans fun q e' hq => hd' q e' ((same q).trans hq))
  · exact fun q e' hq => honly q e' ((same q).symm.trans hq)

end Spoken

variable [CustomMatcher κ]

/-- A run that fails at its entry leaves what it has said there. -/
theorem Grammar.parse_spoken (hg : g.IsLibrary) (hs : g.Asked s.derivation)
    (h : g.parse fuel p v s = .ok (.failed f) t) (ho : f.offset = v.start) :
    ∃ e ms, g.Spoken s.context.whitespace p v f t.derivation e ms := by
  have asked (id : RuleId) (d : Derivation κ) (hd : g.Asked d) :
      Ensures (g.expectation id) d (fun _ => g.Asked) fun _ _ => True :=
    (ensures_self _ d).imp (fun _ _ h => hd.request h) fun _ _ _ => trivial
  obtain ⟨q, rule, f₀, d, hpath, hq, hd, hstamps⟩ := parse_stampsFrom asked hs h
  cases hstamps with
  | deeper ho' => exact absurd ho ho'
  | @entry e ms d₁ _ ho' he hms =>
    have known₁ : d₁.known? q = some e := expectation_kept (hd.atRest hg) hq.1 hq.2 he
    have rest₁ : d₁.AtRest := (hd.request he).atRest hg
    refine ⟨e, ms, ⟨q, rule, hpath, hq, ?_⟩, ho, ?_, fun ha d' hd' => ?_⟩
    · cases ha : e.ambient with
      | false =>
        rw [ha] at hms
        exact hms ▸ known₁
      | true =>
        rw [if_pos ha] at hms
        exact (hms.again rest₁).1 q e known₁
    · rw [Failure.stampedBy, Failure.stampedBy, orderedUnion_orderedUnion_left, orderedUnion_orderedUnion_left]
    · rw [if_pos ha] at hms
      exact (hms.again rest₁).2 d' hd'

/-! ## 3. One map -/

/-- A map runs the rule inside. It maps a value, reports a failure in its turn, and has no part in anything else. -/
theorem Grammar.parse_map (hr : g.rule? id = some ⟨label, .map inner transform⟩) :
    g.parse (fuel + 1) id v s =
      match g.parse fuel inner v s with
      | .ok (.parsed x w) t =>
        match transform x with
        | .ok y => .ok (.parsed y w) t
        | .error fault => .error (.fault fault) t
      | .ok (.failed f) t => g.report (g.parse fuel) id v (.failed f) t
      | .error why t => .error why t := by
  rw [Grammar.parse_rule hr (by simp), Body.run, bind_assoc]
  cases hinner : g.parse fuel inner v s with
  | error why t => exact bind_apply_of_error hinner
  | ok r t =>
    rw [bind_apply_of_ok hinner]
    cases r with
    | failed f => rfl
    | parsed x w =>
      dsimp only
      rw [Transform.apply]
      cases transform x with
      | ok y => rfl
      | error fault => rfl

omit [CustomMatcher κ] in
/-- How a rule reports a failure, by the requests that are made for it. -/
theorem Grammar.report_eq_ok_iff {run : Runner κ} {r : Result κ} :
    g.report run id v (.failed f) s = .ok r t ↔
      ∃ f' d, g.StampsFrom s.context.whitespace id v f s.derivation f' d ∧ r = .failed f' ∧
        t = ⟨d, s.context.record f'⟩ := by
  rw [Grammar.report, bind_eq_ok]
  constructor
  · rintro ⟨r, u, hstamp, h⟩
    obtain ⟨f', d, hstamps, rfl, rfl⟩ := Plan.exec_stamp_iff.mp hstamp
    cases h
    exact ⟨f', d, hstamps, rfl, rfl⟩
  · rintro ⟨f', d, hstamps, rfl, rfl⟩
    exact ⟨_, _, Plan.exec_stamp_iff.mpr ⟨f', d, hstamps, rfl, rfl⟩, rfl⟩

/-! ## 4. Stacks -/

section PassesOn

variable {f'' : Failure κ}

omit [CustomMatcher κ]

theorem Grammar.PassesOn.refl (g : Grammar κ) (v : View) (d : Derivation κ) (f : Failure κ) : g.PassesOn v d f f where
  rest_eq := rfl
  deeper _ := rfl
  expected := .refl _
  whitespace := .refl _
  straight _ _ := rfl

theorem Grammar.PassesOn.symm (h : g.PassesOn v d f f') : g.PassesOn v d f' f where
  rest_eq := h.rest_eq.symm
  deeper ho := (h.deeper fun ho' => ho ((congrArg View.start h.rest_eq).trans ho')).symm
  expected := h.expected.symm
  whitespace := h.whitespace.symm
  straight hg hd := (h.straight hg hd).symm

theorem Grammar.PassesOn.trans (h : g.PassesOn v d f f') (h' : g.PassesOn v d f' f'') : g.PassesOn v d f f'' where
  rest_eq := h'.rest_eq.trans h.rest_eq
  deeper ho := (h'.deeper fun ho' => ho ((congrArg View.start h.rest_eq).symm.trans ho')).trans (h.deeper ho)
  expected := h'.expected.trans h.expected
  whitespace := h'.whitespace.trans h.whitespace
  straight hg hd := (h'.straight hg hd).trans (h.straight hg hd)

end PassesOn

namespace Grammar.Maps

variable {x : Value κ} {why : Stop}

/-- Where the rule inside succeeds, its value is mapped by one transform after another. -/
theorem parse_parsed (h : g.Maps p id ids fs) (hrun : g.parse fuel p v s = .ok (.parsed x w) t) :
    g.parse (fuel + fs.length) id v s =
      match Transform.stacked fs x with
      | .ok y => .ok (.parsed y w) t
      | .error fault => .error (.fault fault) t := by
  induction h with
  | none => exact hrun
  | @layer id inner label transform ids fs hr _ ih =>
    rw [List.length_cons, ← Nat.add_assoc, parse_map hr, ih, Transform.stacked]
    cases Transform.stacked fs x with
    | ok y => rfl
    | error fault => rfl

/-- Where it ends without a result, so do they. -/
theorem parse_stopped (h : g.Maps p id ids fs) (hrun : g.parse fuel p v s = .error why t) :
    g.parse (fuel + fs.length) id v s = .error why t := by
  induction h with
  | none => exact hrun
  | layer hr _ ih => rw [List.length_cons, ← Nat.add_assoc, parse_map hr, ih]

end Grammar.Maps

/-- A map finds the failure of the rule inside noted, and adds nothing to the record. -/
theorem Grammar.map_failed (hg : g.IsLibrary) (hs : g.Asked s.derivation)
    (hr : g.rule? id = some ⟨label, .map inner transform⟩) (hrun : g.parse fuel inner v s = .ok (.failed f) t) :
    ∃ f' d, g.parse (fuel + 1) id v s = .ok (.failed f') { t with derivation := d } ∧
      g.PassesOn v s.derivation f f' := by
  obtain ⟨f', t', hreport, hpasses⟩ := report_passesOn hg ⟨hr, by simp⟩ rfl hs hrun (g.parse fuel)
  obtain ⟨_, d, -, ⟨⟩, rfl⟩ := report_eq_ok_iff.mp hreport
  have noted : t.context.Notes f' := (parse_noted hg hrun).of_subset (congrArg View.start hpasses.rest_eq)
    hpasses.expected.subset hpasses.whitespace.subset
  refine ⟨f', d, ?_, hpasses⟩
  rw [parse_map hr, hrun]
  dsimp only
  rw [hreport, show t.context.record f' = t.context from noted]

/-- A map for which nothing else is kept than for the rule inside reports its very failure. -/
theorem Grammar.Spoken.map_failed (hg : g.IsLibrary) (hs : g.Asked s.derivation)
    (hr : g.rule? id = some ⟨label, .map inner transform⟩) (hrun : g.parse fuel inner v s = .ok (.failed f) t)
    {e : Expectation κ} {ms : List (Matcher κ)} (h : g.Spoken s.context.whitespace inner v f t.derivation e ms)
    (hkept : ∀ e', t.derivation.known? id = some e' → e' = e) :
    ∃ d, g.parse (fuel + 1) id v s = .ok (.failed f) { t with derivation := d } ∧
      g.Spoken s.context.whitespace id v f d e ms ∧
      ∀ q e', d.known? q = some e' → t.derivation.known? q = some e' ∨ e' = e := by
  have asked : g.Asked t.derivation := (g.parse_bookkeeping (fun _ _ => trivial)
    (fun _ d hd => (ensures_self _ d).imp (fun _ _ h => hd.request h) fun _ _ _ => trivial) fuel inner v s hs).ok hrun
  obtain ⟨d, hstamps, hspoken, honly⟩ := h.layer (asked.atRest hg) ⟨hr, by simp⟩ rfl hkept
  rw [← ((g.parse_restored fuel inner v s).ok hrun).whitespace] at hstamps
  refine ⟨d, ?_, hspoken, honly⟩
  rw [parse_map hr, hrun]
  dsimp only
  rw [report_eq_ok_iff.mpr ⟨f, d, hstamps, rfl, rfl⟩, show t.context.record f = t.context from parse_noted hg hrun]

namespace Grammar.Maps

/-- Where the rule inside fails, its failure is passed on by each of them, and nothing is added to the record. -/
theorem parse_failed (hg : g.IsLibrary) (hs : g.Asked s.derivation) (h : g.Maps p id ids fs)
    (hrun : g.parse fuel p v s = .ok (.failed f) t) :
    ∃ f' d, g.parse (fuel + fs.length) id v s = .ok (.failed f') { t with derivation := d } ∧
      g.PassesOn v s.derivation f f' := by
  induction h with
  | none => exact ⟨f, t.derivation, hrun, .refl g v s.derivation f⟩
  | layer hr _ ih =>
    obtain ⟨f₁, d₁, hinner, hpasses₁⟩ := ih
    obtain ⟨f', d', houter, hpasses⟩ := map_failed hg hs hr hinner
    exact ⟨f', d', houter, hpasses₁.trans hpasses⟩

/-- The failure is the very same, where nothing else is kept for them than for the rule inside. -/
theorem parse_spoken (hg : g.IsLibrary) (hs : g.Asked s.derivation) (h : g.Maps p id ids fs)
    (hrun : g.parse fuel p v s = .ok (.failed f) t) {e : Expectation κ} {ms : List (Matcher κ)}
    (hspoken : g.Spoken s.context.whitespace p v f t.derivation e ms)
    (hkept : ∀ q ∈ ids, ∀ e', t.derivation.known? q = some e' → e' = e) :
    ∃ d, g.parse (fuel + fs.length) id v s = .ok (.failed f) { t with derivation := d } ∧
      g.Spoken s.context.whitespace id v f d e ms ∧
      ∀ q e', d.known? q = some e' → t.derivation.known? q = some e' ∨ e' = e := by
  induction h with
  | none => exact ⟨t.derivation, hrun, hspoken, fun _ _ h => Or.inl h⟩
  | @layer id inner label transform ids fs hr _ ih =>
    obtain ⟨hid, hids⟩ := List.forall_mem_cons.mp hkept
    obtain ⟨d₁, hinner, hspoken₁, honly₁⟩ := ih hids
    have kept₁ (e' : Expectation κ) (he' : d₁.known? id = some e') : e' = e := (honly₁ id e' he').elim (hid e') (·)
    obtain ⟨d, houter, hspoken, honly⟩ := hspoken₁.map_failed hg hs hr hinner kept₁
    refine ⟨d, houter, hspoken, fun q e' hq => ?_⟩
    exact (honly q e' hq).elim (honly₁ q e') Or.inr

end Grammar.Maps

/-- **Mapping is transparent to diagnostics.** A stack of maps succeeds where the rule inside does, with the same rest
and with what the transforms make of its value; where one of them raises, that is the fault. Where the rule inside
fails, the stack passes its failure on, whatever the transforms are; and it is the very same failure if by then nothing
else is kept for the maps than what the rule inside is answered. In each case the context is left as the rule inside
leaves it. So two stacks with the same composite cannot be told from one another, but by the order of what they name. -/
theorem Grammar.mapping_transparent (hg : g.IsLibrary) (hs : g.Asked s.derivation) (h : g.Maps p id ids fs)
    (fuel : Nat) (v : View) :
    (∀ x w t, g.parse fuel p v s = .ok (.parsed x w) t →
      g.parse (fuel + fs.length) id v s =
        match Transform.stacked fs x with
        | .ok y => .ok (.parsed y w) t
        | .error fault => .error (.fault fault) t) ∧
    (∀ f t, g.parse fuel p v s = .ok (.failed f) t →
      ∃ f' d, g.parse (fuel + fs.length) id v s = .ok (.failed f') { t with derivation := d } ∧
        g.PassesOn v s.derivation f f' ∧
        ((∀ q ∈ ids, ∀ e, t.derivation.known? q = some e → ∃ d', g.expectation p t.derivation = .ok e d') → f' = f)) ∧
    (∀ why t, g.parse fuel p v s = .error why t → g.parse (fuel + fs.length) id v s = .error why t) ∧
    ∀ id' ids' fs', g.Maps p id' ids' fs' → (∀ x, Transform.stacked fs' x = Transform.stacked fs x) →
      EnsuresBoth (g.parse (fuel + fs.length) id v) s (g.parse (fuel + fs'.length) id' v) s
        (fun r t r' t' => t'.context = t.context ∧
          (r' = r ∨ ∃ f f', r = .failed f ∧ r' = .failed f' ∧ g.PassesOn v s.derivation f f'))
        fun t t' => t' = t := by
  refine ⟨fun x w t hrun => h.parse_parsed hrun, fun f t hrun => ?_, fun why t hrun => h.parse_stopped hrun,
    fun id' ids' fs' h' hfs => ?_⟩
  · obtain ⟨f', d, houter, hpasses⟩ := h.parse_failed hg hs hrun
    refine ⟨f', d, houter, hpasses, fun hkept => ?_⟩
    by_cases ho : f.offset = v.start
    · obtain ⟨e, ms, hspoken⟩ := parse_spoken hg hs hrun ho
      have kept (q : RuleId) (hq : q ∈ ids) (e' : Expectation κ) (he' : t.derivation.known? q = some e') : e' = e := by
        obtain ⟨d', he⟩ := hkept q hq e' he'
        cases he.symm.trans hspoken.expectation
        rfl
      obtain ⟨d', hsame, -⟩ := h.parse_spoken hg hs hrun hspoken kept
      cases houter.symm.trans hsame
      rfl
    · exact hpasses.deeper ho
  · cases hrun : g.parse fuel p v s with
    | error why t =>
      unfold EnsuresBoth
      rw [h.parse_stopped hrun, h'.parse_stopped hrun]
      exact ⟨rfl, rfl⟩
    | ok r t =>
      cases r with
      | parsed x w =>
        unfold EnsuresBoth
        rw [h.parse_parsed hrun, h'.parse_parsed hrun, hfs]
        cases Transform.stacked fs x with
        | ok y => exact ⟨rfl, Or.inl rfl⟩
        | error fault => exact ⟨rfl, rfl⟩
      | failed f =>
        obtain ⟨f₁, d₁, hrun₁, hpasses₁⟩ := h.parse_failed hg hs hrun
        obtain ⟨f₂, d₂, hrun₂, hpasses₂⟩ := h'.parse_failed hg hs hrun
        unfold EnsuresBoth
        rw [hrun₁, hrun₂]
        exact ⟨rfl, Or.inr ⟨f₁, f₂, rfl, rfl, hpasses₁.symm.trans hpasses₂⟩⟩

/-- A letter, the list of it, the length of that list, and the same at once. -/
def countedLetter : Grammar FixedMatcher where
  rules := #[⟨none, .token (.literal "x" true) none⟩, ⟨none, .map 0 NamedTransform.wrap.transform⟩,
    ⟨none, .map 1 NamedTransform.len.transform⟩,
    ⟨none, .map 0 fun x => NamedTransform.wrap.transform x >>= NamedTransform.len.transform⟩]
  names := []
  customs := 0

/-- Two maps come to what their composite comes to, and where there is no letter both report what the letter reports. -/
theorem mapping_transparent_countedLetter :
    let v := View.ofSource ⟨0, ['x']⟩
    let w := View.ofSource ⟨0, ['y']⟩
    let s : ParseState FixedMatcher := ⟨.fresh, .fresh none 0⟩
    let fs : List (Transform FixedMatcher) := [NamedTransform.len.transform, NamedTransform.wrap.transform]
    countedLetter.IsLibrary ∧ countedLetter.Asked s.derivation ∧ countedLetter.Maps 0 2 [2, 1] fs ∧
      (∃ rest t, countedLetter.parse 3 2 v s = .ok (.parsed (.int 1) rest) t) ∧
      (∃ f t t', countedLetter.parse 1 0 w s = .ok (.failed f) t ∧ f.expected = [.literal "x" true] ∧
        countedLetter.parse 3 2 w s = .ok (.failed f) t' ∧ t'.context = t.context) ∧
      EnsuresBoth (countedLetter.parse 3 2 v) s (countedLetter.parse 2 3 v) s (fun _ t _ t' => t'.context = t.context)
        fun t t' => t' = t := by
  intro v w s fs
  have hg : countedLetter.IsLibrary := by decide
  have hs : countedLetter.Asked s.derivation := .fresh countedLetter
  have two : countedLetter.Maps 0 2 [2, 1] fs := .layer rfl (.layer rfl .none)
  have one : countedLetter.Maps 0 3 [3] [fun x => NamedTransform.wrap.transform x >>= NamedTransform.len.transform] :=
    .layer rfl .none
  refine ⟨hg, hs, two, ?_, ?_, ?_⟩
  · have letter : countedLetter.parse 1 0 v s = .ok (.parsed (.str "x") ⟨v.source, 1, 1, by decide, by decide⟩) s := rfl
    exact ⟨_, _, (Grammar.mapping_transparent hg hs two 1 v).1 _ _ _ letter⟩
  · obtain ⟨_, t, hrun, f, rfl, hf, h₁, h₂⟩ := Ensures.exists_ok (x := countedLetter.parse 1 0 w) (s := s)
      (Q := fun r t => ∃ f, r = .failed f ∧ f.expected = [.literal "x" true] ∧ t.derivation.known? 1 = none ∧
        t.derivation.known? 2 = none) (by decide +kernel)
    obtain ⟨f', d, hmapped, -, hsame⟩ := (Grammar.mapping_transparent hg hs two 1 w).2.1 f t hrun
    have kept : ∀ q ∈ [2, 1], ∀ e, t.derivation.known? q = some e →
        ∃ d', countedLetter.expectation 0 t.derivation = .ok e d' := by
      intro q hq e he
      rcases List.mem_cons.mp hq with rfl | hq
      · cases h₂.symm.trans he
      · cases List.mem_singleton.mp hq
        cases h₁.symm.trans he
    cases hsame kept
    exact ⟨f, t, _, hrun, hf, hmapped, rfl⟩
  · refine ((Grammar.mapping_transparent hg hs two 1 v).2.2.2 3 [3] _ one fun x => rfl).imp ?_ fun _ _ h => h
    exact fun r t r' t' h => h.1

/-- A letter that may come after the rule itself, or after another letter, and a map of that. -/
def mappedRecursive : Grammar FixedMatcher where
  rules := #[⟨none, .placeholder (some 7)⟩, ⟨none, .token (.literal "" true) none⟩,
    ⟨none, .token (.literal "c" true) none⟩, ⟨none, .either [1, 0, 2]⟩, ⟨none, .token (.literal "a" true) none⟩,
    ⟨none, .sequence [3, 4]⟩, ⟨none, .token (.literal "b" true) none⟩, ⟨none, .either [5, 6]⟩,
    ⟨none, .map 7 NamedTransform.wrap.transform⟩]
  names := []
  customs := 0

/-- Asked for first, the map was answered from inside of the circle, and names the same matchers in another order. -/
theorem mapping_reorders :
    let v := View.ofSource ⟨0, ['d']⟩
    let c : Context FixedMatcher := .fresh none 0
    ∃ e d f t f' t', mappedRecursive.expectation 8 .fresh = .ok e d ∧
      mappedRecursive.parse 9 7 v ⟨d, c⟩ = .ok (.failed f) t ∧
      mappedRecursive.parse 10 8 v ⟨d, c⟩ = .ok (.failed f') t' ∧ f' ≠ f ∧
      f.expected = [.literal "" true, .literal "b" true, .literal "c" true] ∧
      f'.expected = [.literal "" true, .literal "c" true, .literal "b" true] := by
  intro v c
  obtain ⟨e, d, he, hfirst, hagain⟩ := Ensures.exists_ok (x := mappedRecursive.expectation 8) (s := .fresh)
    (Q := fun _ d => Ensures (mappedRecursive.parse 9 7 v) ⟨d, c⟩ (fun r _ => ∃ f, r = .failed f ∧
        f.expected = [.literal "" true, .literal "b" true, .literal "c" true]) (fun _ _ => False) ∧
      Ensures (mappedRecursive.parse 10 8 v) ⟨d, c⟩ (fun r _ => ∃ f, r = .failed f ∧
        f.expected = [.literal "" true, .literal "c" true, .literal "b" true]) fun _ _ => False) (by decide +kernel)
  obtain ⟨_, t, h, f, rfl, hf⟩ := hfirst.exists_ok
  obtain ⟨_, t', h', f', rfl, hf'⟩ := hagain.exists_ok
  refine ⟨e, d, f, t, f', t', he, h, h', ?_, hf, hf'⟩
  rintro rfl
  exact absurd (hf.symm.trans hf') (by decide)

end Descent
