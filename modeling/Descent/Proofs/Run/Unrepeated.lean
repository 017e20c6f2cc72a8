import Descent.Proofs.Derivation.Bounds
import Descent.Proofs.Furthest
import Descent.Proofs.Suspension

/-!
# What failures name

Failures are made where a matcher does not apply, with the matchers as they were listed. From there they are passed
upwards: as they are where they lie deeper than the rule that passes them on, and stamped once more where they lie at
its entry; and each of them is offered to the record on the way. **At all of these points a failure names no matcher
twice** (`Grammar.failures_unrepeated`), for whatever was listed twice is stamped before any rule returns it.

A stamp puts what the rule expects in front. **So a failure at the entry of a rule names what the rule expects, in that
order, and after that only what the operand named that failed there.** That operand can be told from the log: rules
write down their calls when they end, and after the last call of an operand nothing else is called, so its call is
written down right before that of the rule. What is read off a plan is how its result has to do with its last call
(`Plan.Ends`); a run then adds the log, and the expectation that was asked for, which is what is kept for the rule from
then on.
-/

namespace Descent

variable {κ α β : Type}

/-! ## 1. The record -/

section Record

variable [DecidableEq κ]

/-- The record, if there is one, names nothing twice. -/
def Context.NamesOnce (c : Context κ) : Prop := ∀ f, c.furthest = some f → f.Unrepeated

theorem Failure.Summarises.unrepeated {f : Failure κ} {fs : List (Failure κ)} (h : f.Summarises fs) :
    f.Unrepeated where
  expected := h.expected ▸ nodup_distinct _
  whitespace := h.whitespace ▸ nodup_distinct _

/-- Merging failures that name nothing twice gives one that names nothing twice. -/
theorem unrepeated_of_deepestOf {furthest : Option (Failure κ)} {fs : List (Failure κ)}
    (hbest : ∀ f, furthest = some f → f.Unrepeated) (hfs : ∀ f ∈ fs, f.Unrepeated) :
    ∀ f, deepestOf furthest fs = some f → f.Unrepeated := by
  intro f hf
  by_cases hnone : fs = []
  · subst hnone
    exact hbest f hf
  · obtain ⟨f', hf', hsum⟩ := deepestOf_summarises hbest hfs hnone
    cases hf'.symm.trans hf
    exact hsum.unrepeated

variable [CustomMatcher κ] {g : Grammar κ}

/-- A run leaves a record that names nothing twice. -/
theorem Grammar.parse_namesOnce (hg : g.IsLibrary) (fuel : Nat) (id : RuleId) (v : View) (s : ParseState κ)
    (hs : s.context.NamesOnce) : Leaves (g.parse fuel id v) s fun t => t.context.NamesOnce := by
  have summed {t : ParseState κ} (h : ∃ log, (unrepeated g).Tracks v s.context.furthest (t, log)) :
      t.context.NamesOnce := by
    obtain ⟨log, htracks⟩ := h
    intro f hf
    refine unrepeated_of_deepestOf hs (fun f' hf' => ?_) f (htracks.furthest_eq.symm.trans hf)
    obtain ⟨c, hc, hcf⟩ := List.mem_filterMap.mp hf'
    exact (((htracks.obeys c hc).2 _ (Call.failure?_eq_some_iff.mp hcf).1).2 f' rfl).1
  exact ((unrepeated_kept hg).parse fuel id v s).imp (fun _ _ h => summed h.2) fun _ _ h => summed h.2

/-- And so it is at every point that the run passes. -/
theorem Grammar.passes_namesOnce (hg : g.IsLibrary) {fuel : Nat} {id : RuleId} {v : View} {a b : Point κ}
    (h : g.Passes fuel id v a b) (ha : a.state.context.NamesOnce) : b.state.context.NamesOnce := by
  refine h.stays (P := fun a => a.state.context.NamesOnce) ⟨fun _ h => h, fun scope h f hf => ?_, fun h f hf => ?_⟩
    (fun fuel id v a ha => g.parse_namesOnce hg fuel id v a.state ha) ha
  · exact h f ((scope.furthest_enter _).symm.trans hf)
  · exact h f ((Scope.furthest_leave _ _ _).symm.trans hf)

end Record

/-! ## 2. Answers show what a rule tries by itself -/

section Leaves

variable {g : Grammar κ} {b : Body κ} {id : RuleId} {e : Expectation κ} {d d' : Derivation κ}

/-- What is kept for a rule shows the matchers that the rule tries by itself. -/
def Derivation.ShowsLeaves (d : Derivation κ) (g : Grammar κ) : Prop :=
  ∀ id rule e, g.rule? id = some rule → d.known? id = some e → rule.body.leaves ⊆ e.prefixes

variable [DecidableEq κ]

theorem Body.Derives.leaves_subset {R : Account κ} (h : b.Derives R d e d') : b.leaves ⊆ e.prefixes := by
  cases h with
  | own hown => exact (own?_eq_some hown).1 ▸ List.Subset.refl _
  | passed hpasses => exact (passes?_eq_some hpasses).2.1 ▸ List.nil_subset _
  | _ => exact List.nil_subset _

/-- An answer that is no cut shows them too. -/
theorem Grammar.expectationWithin_showsLeaves (hg : g.IsLibrary) (fuel : Nat) (id : RuleId) (d : Derivation κ)
    (hd : d.ShowsLeaves g) :
    Ensures (g.expectationWithin fuel id) d
      (fun e d' => d'.ShowsLeaves g ∧
        (d.marked = [] → ∀ rule, g.rule? id = some rule → rule.body.leaves ⊆ e.prefixes))
      fun _ _ => True := by
  induction fuel generalizing id d with
  | zero => exact trivial
  | succ fuel ih =>
    have placeholder {label : Option String} {target : Option RuleId} {e : Expectation κ}
        (hr : g.rule? id = some ⟨label, .placeholder target⟩) (rule : Rule κ) (hr' : g.rule? id = some rule) :
        rule.body.leaves ⊆ e.prefixes := by
      cases hr.symm.trans hr'
      exact List.nil_subset _
    apply Grammar.expectationWithin_ensures
    case absent => exact fun _ => trivial
    case unresolved => exact fun _ hr => ⟨hd, fun _ => placeholder hr⟩
    case target => exact fun _ target hr => (ih target d hd).imp_ok fun e d' h => ⟨h.1, fun _ => placeholder hr⟩
    case known => exact fun rule e _ _ hknown => ⟨hd, fun _ rule hr => hd id rule e hr hknown⟩
    case mute => exact fun rule hr hp hnone _ => absurd hnone (Body.derived?_ne_none (hg id rule hr) hp)
    case cut => exact fun _ _ _ _ hm => ⟨hd, fun hnone => by simp [hnone] at hm⟩
    case walk =>
      intro rule walk hr hwalk _ _
      refine (Body.derived?_ensures (R := fun _ _ _ _ => True) (P := fun d₁ => d₁.ShowsLeaves g) (E := fun _ _ => True)
        hwalk (fun q _ d₁ hd₁ => (ih q d₁ hd₁).imp_ok fun _ _ h => ⟨trivial, h.1⟩) ?_ (d := d.enter id) hd).imp ?_
        fun _ _ h => h
      · exact fun _ _ _ _ _ => ⟨fun _ => trivial, fun _ _ _ => trivial⟩
      rintro e inner ⟨hderives, hinner⟩
      have own (rule' : Rule κ) (hr' : g.rule? id = some rule') : rule'.body.leaves ⊆ e.prefixes := by
        cases hr.symm.trans hr'
        exact hderives.leaves_subset
      refine ⟨fun q rule' e' hr' hq => ?_, fun _ => own⟩
      rcases Derivation.known?_conclude hq with hq | ⟨rfl, rfl, -⟩
      · exact hinner q rule' e' hr' hq
      · exact own rule' hr'

theorem Grammar.Asked.showsLeaves (hg : g.IsLibrary) (hd : g.Asked d) : d.ShowsLeaves g := by
  induction hd with
  | fresh => exact nofun
  | request _ h ih => exact ((expectationWithin_showsLeaves hg _ _ _ (ih hg)).ok h).1
  | @resolve g g' d id target _ h ih =>
    intro q rule e hr hknown
    by_cases hq : q = id
    · obtain ⟨label, hr'⟩ := h.after
      cases hr.symm.trans (hq ▸ hr')
      exact List.nil_subset _
    · exact ih (h.isLibrary hg) q rule e ((h.others q hq).symm.trans hr) hknown

/-- Between requests, an answer shows what the rule tries by itself. -/
theorem Grammar.Asked.leaves_subset (hg : g.IsLibrary) (hd : g.Asked d) {rule : Rule κ} (hr : g.rule? id = some rule)
    (h : g.expectation id d = .ok e d') : rule.body.leaves ⊆ e.prefixes :=
  ((expectationWithin_showsLeaves hg _ id d (hd.showsLeaves hg)).ok h).2 (hd.atRest hg).marked rule hr

end Leaves

/-! ## 3. How plans end -/

/-- The rules that a body is made of. The policy that it sets is none of them. -/
def Body.operands : Body κ → List RuleId
  | .within inner _ => [inner]
  | b => b.refs

/-- What is true of the result of a plan and of its last call, with the answer to that. Which call was the last before
the plan is given. -/
def Plan.Ends : Plan κ α → Option (RuleId × Result κ) → (α → Option (RuleId × Result κ) → Prop) → Prop
  | .done a, last, Q => Q a last
  | .stop _, _, _ => True
  | .policy next, last, Q => ∀ p, (next p).Ends last Q
  | .expect _ next, last, Q => ∀ e, (next e).Ends last Q
  | .call _ id _ next, _, Q => ∀ r, (next r).Ends (some (id, r)) Q

namespace Plan.Ends

variable {p : Plan κ α} {last : Option (RuleId × Result κ)} {Q : α → Option (RuleId × Result κ) → Prop}

theorem bind {f : α → Plan κ β} {R : β → Option (RuleId × Result κ) → Prop}
    (h : p.Ends last fun a last => (f a).Ends last R) : (p.bind f).Ends last R := by
  induction p generalizing last with
  | done a => exact h
  | stop why => exact trivial
  | policy next ih => exact fun q => ih q (h q)
  | expect id next ih => exact fun e => ih e (h e)
  | call scope id w next ih => exact fun r => ih r (h r)

theorem ofExcept {x : Except Fault α} (h : ∀ a, x = .ok a → Q a last) : (Plan.ofExcept x).Ends last Q := by
  cases x with
  | ok a => exact h a rfl
  | error e => exact trivial

/-- Whatever is left when whitespace has been skipped. -/
theorem skip {v : View} {Q : View → Option (RuleId × Result κ) → Prop} (h : ∀ w last, Q w last) :
    (Plan.skip v).Ends last Q := by
  intro q
  cases q with
  | none => exact h v last
  | some q =>
    intro r
    cases r with
    | parsed x rest => exact h rest _
    | failed f => exact h v _

end Plan.Ends

/-- What a failure of a body has to do with the last call that was made for it. -/
inductive Body.Blames (b : Body κ) (v : View) : Result κ → Option (RuleId × Result κ) → Prop
  | parsed {x : Value κ} {rest : View} {last : Option (RuleId × Result κ)} : Blames b v (.parsed x rest) last
  /-- no rule was called, and no matcher of its own applied -/
  | own : Blames b v (.failed ⟨v, b.leaves, []⟩) none
  /-- an operand failed there, and nothing was called any more -/
  | operand {q : RuleId} {f f' : Failure κ} (hq : q ∈ b.operands) (hrest : f'.rest = f.rest)
    (hexpected : f'.expected = f.expected) : Blames b v (.failed f') (some (q, .failed f))

section Body

variable {b : Body κ} {v rest : View} {last : Option (RuleId × Result κ)} {r : Result κ}

theorem sequencePlan_ends {parts : List RuleId} {values : List (Value κ)} (h : ∀ q ∈ parts, q ∈ b.operands) :
    (sequencePlan parts values rest).Ends last (b.Blames v) := by
  induction parts generalizing values rest last with
  | nil => exact .parsed
  | cons part parts ih =>
    obtain ⟨hpart, h⟩ := List.forall_mem_cons.mp h
    intro r
    cases r with
    | parsed x w => exact ih h
    | failed f => exact .operand hpart rfl rfl

theorem eitherPlan_ends {branches : List RuleId} (h : ∀ q ∈ branches, q ∈ b.operands) (hr : b.Blames v r last) :
    (eitherPlan v branches r).Ends last (b.Blames v) := by
  induction branches generalizing r last with
  | nil => exact hr
  | cons branch branches ih =>
    obtain ⟨hbranch, h⟩ := List.forall_mem_cons.mp h
    intro r'
    cases r' with
    | parsed x w => exact .parsed
    | failed f => exact ih h (.operand hbranch rfl rfl)

theorem closed_blames {minimum : Int} {values : List (Value κ)} (hr : b.Blames v r last) :
    b.Blames v (closed minimum values rest r) last := by
  rw [closed]
  split
  · exact hr
  · exact .parsed

theorem roundsPlan_ends {attempt q : RuleId} {minimum : Int} {fuel : Nat} {values : List (Value κ)}
    (hattempt : attempt ∈ b.operands) (hq : q ∈ b.operands) :
    (roundsPlan attempt minimum fuel values rest r).Ends (some (q, r)) (b.Blames v) := by
  induction fuel generalizing q values rest r with
  | zero => exact trivial
  | succ fuel ih =>
    cases r with
    | failed f => exact closed_blames (.operand hq rfl rfl)
    | parsed x next =>
      rw [roundsPlan]
      split
      · exact closed_blames .parsed
      · exact fun r' => ih hattempt

variable [DecidableEq κ] [CustomMatcher κ]

/-- **How a body ends**, one case for each combinator. -/
theorem Body.plan_ends (hb : b.IsLibrary) : (b.plan v).Ends none (b.Blames v) := by
  have taken {m : Matcher κ} {value : View → Except Fault (Value κ)} (hleaves : b.leaves = [m]) (r : Result κ)
      (hr : m.taken v value = .ok r) : b.Blames v r none := by
    rcases Matcher.taken_ok hr with rfl | ⟨x, rest, rfl, -⟩
    · exact hleaves ▸ .own
    · exact .parsed
  cases b with
  | token m f =>
    cases f with
    | none => exact .ofExcept (taken rfl)
    | some f => exact .ofExcept (taken rfl)
  | capture m => exact .ofExcept (taken rfl)
  | sequence parts => exact sequencePlan_ends fun _ h => h
  | either branches => exact eitherPlan_ends (fun _ h => h) .own
  | oneOf ms =>
    refine .ofExcept fun r hr => ?_
    rcases chosen_ok hr with rfl | ⟨x, rest, rfl, -⟩
    · exact .own
    · exact .parsed
  | optional inner default =>
    intro r
    cases r with
    | parsed x rest => exact .parsed
    | failed f => exact .parsed
  | repeated first minimum attempt =>
    exact fun r => roundsPlan_ends (List.mem_cons_of_mem _ List.mem_cons_self) List.mem_cons_self
  | map inner f =>
    intro r
    cases r with
    | parsed x rest =>
      refine .ofExcept fun r' hr' => ?_
      obtain ⟨y, -, hy⟩ := except_bind_eq_ok.mp hr'
      cases hy
      exact .parsed
    | failed f => exact .operand List.mem_cons_self rfl rfl
  | skipping inner =>
    refine .bind (.skip fun start last r => ?_)
    cases r with
    | parsed x rest => exact .parsed
    | failed f =>
      dsimp only
      split
      · -- what the policy allows is added to the whitespace only
        intro q
        cases q with
        | none => exact .operand List.mem_cons_self rfl rfl
        | some q => exact fun e => .operand List.mem_cons_self rfl rfl
      · exact .operand List.mem_cons_self rfl rfl
  | skippingAfter inner =>
    intro r
    cases r with
    | parsed x rest => exact .bind (.skip fun w last => .parsed)
    | failed f => exact .operand List.mem_cons_self rfl rfl
  | within inner policy =>
    intro r
    cases r with
    | parsed x rest => exact .parsed
    | failed f => exact .operand List.mem_cons_self rfl rfl
  | placeholder target => exact trivial
  | handWritten answer derivative => exact hb.elim

end Body

/-! ## 4. What the log tells of failures -/

/-- One rule is an operand of another, or what an operand of it stands for. -/
def Grammar.Operand (g : Grammar κ) (p q : RuleId) : Prop :=
  ∃ rule o, g.rule? p = some rule ∧ o ∈ rule.body.operands ∧ Relation.ReflTransGen g.HandsOn o q

section Log

variable [DecidableEq κ] {g : Grammar κ} {d d' : Derivation κ} {id q : RuleId} {rule : Rule κ} {e : Expectation κ}
  {log : List (Call κ)} {c : Call κ} {f : Failure κ} {v : View} {st : ParseState κ × List (Call κ)}

/-- From now on, whoever asks for the expectation of a rule is answered this one. -/
def Derivation.Fixes (d : Derivation κ) (g : Grammar κ) (id : RuleId) (e : Expectation κ) : Prop :=
  ∀ d' : Derivation κ, d'.Keeps d → g.expectation id d' = .ok e d'

theorem Derivation.fixes_of_known (hr : g.Proper id rule) (h : d.known? id = some e) : d.Fixes g id e := by
  intro d' hd'
  obtain ⟨fuel, hfuel, -⟩ := g.exists_derivationFuel
  rw [Grammar.expectation, hfuel]
  exact Grammar.expectationWithin_of_known hr.1 hr.2 (hd' id e h)

/-- What a failure at the entry of a rule names: what the rule expects, or that and what its operand expected that
failed, by the call that ended before. -/
inductive Failure.MadeOf (f : Failure κ) (g : Grammar κ) (id : RuleId) (before : Option (Call κ))
    (e : Expectation κ) : Prop
  | own (h : f.expected = distinct e.prefixes)
  | operand {c : Call κ} {f₀ : Failure κ} (hbefore : before = some c) (hc : g.Operand id c.rule)
    (hf : c.outcome = .ok (.failed f₀)) (hrest : f₀.rest = f.rest)
    (h : f.expected = orderedUnion e.prefixes f₀.expected)

/-- What a call has to do with the one that ended before it, if it failed at its entry. -/
def Grammar.Explains (g : Grammar κ) (d : Derivation κ) (before : Option (Call κ)) (c : Call κ) : Prop :=
  ∀ f, c.outcome = .ok (.failed f) → f.offset = c.view.start →
    ∃ e, d.Fixes g c.rule e ∧ f.MadeOf g c.rule before e

/-- Each call of a log is explained by the one before it. -/
def Grammar.Explained (g : Grammar κ) (d : Derivation κ) (log : List (Call κ)) : Prop :=
  ∀ before c, before ++ [c] <+: log → g.Explains d before.getLast? c

theorem Grammar.Explained.mono (h : g.Explained d log) (hd : d'.Keeps d) : g.Explained d' log := by
  intro before c hc f hf ho
  obtain ⟨e, hfixes, hmade⟩ := h before c hc f hf ho
  exact ⟨e, fun d'' hd'' => hfixes d'' (hd.trans hd''), hmade⟩

theorem Grammar.Explained.concat (h : g.Explained d log) (hc : g.Explains d log.getLast? c) :
    g.Explained d (log ++ [c]) := by
  intro before c' hp
  rcases List.prefix_concat_iff.mp hp with heq | hp
  · obtain ⟨rfl, hc'⟩ := List.append_inj' heq rfl
    cases hc'
    exact hc
  · exact h before c' hp

/-- The last call of a log is that of a rule, or of what it stands for, and failed. -/
def Grammar.FailedLast (g : Grammar κ) (log : List (Call κ)) (q : RuleId) (f : Failure κ) : Prop :=
  ∃ c, log.getLast? = some c ∧ Relation.ReflTransGen g.HandsOn q c.rule ∧ c.outcome = .ok (.failed f)

/-- What is true at every moment of a run until it stops: requests have led to the bookkeeping, and the log is
explained. -/
structure Grammar.Accounts (g : Grammar κ) (st : ParseState κ × List (Call κ)) : Prop where
  asked : g.Asked st.1.derivation
  explained : g.Explained st.1.derivation st.2

/-- What the run of a rule leaves: if it failed, its call was the last. -/
def Grammar.RunsAccounted (g : Grammar κ) (id : RuleId) (st : ParseState κ × List (Call κ))
    (x : Logged κ (Result κ)) : Prop :=
  Ensures x st (fun r t => g.Accounts t ∧ ∀ f, r = .failed f → g.FailedLast t.2 id f)
    fun _ t => g.Explained t.1.derivation t.2

/-- A request leaves what was explained explained. -/
theorem Plan.expect_execLogged {run : RuleId → View → Logged κ (Result κ)} {next : Expectation κ → Plan κ α}
    {Q : α → ParseState κ × List (Call κ) → Prop} (hst : g.Accounts st)
    (hnext : ∀ e d, g.expectation id st.1.derivation = .ok e d → st.1.derivation.Grows d →
      g.Accounts ({ st.1 with derivation := d }, st.2) →
      Ensures ((next e).execLogged g run) ({ st.1 with derivation := d }, st.2) Q
        fun _ t => g.Explained t.1.derivation t.2) :
    Ensures ((Plan.expect id next).execLogged g run) st Q fun _ t => g.Explained t.1.derivation t.2 := by
  rw [Plan.execLogged, ensures_bind, Logged.ensures_lift, Parse.ensures_ofDerive]
  refine ((Grammar.expectationWithin_grows g.derivationFuel id _).and (ensures_self _ _)).imp ?_ ?_
  · rintro e d ⟨hgrows, hask⟩
    exact hnext e d hask hgrows ⟨hst.asked.request hask, hst.explained.mono hgrows.keeps⟩
  · exact fun _ d h => hst.explained.mono h.1.keeps

/-- Executing a plan leaves the log explained if its calls do, and what was last told to the plan is what was called
last. -/
theorem Plan.Ends.execLogged {run : RuleId → View → Logged κ (Result κ)} {p : Plan κ α}
    {last : Option (RuleId × Result κ)} {Q : α → Option (RuleId × Result κ) → Prop} (hp : p.Ends last Q)
    (hrun : ∀ q w st, g.Accounts st → g.RunsAccounted q st (run q w)) (hst : g.Accounts st)
    (hlast : ∀ q f, last = some (q, .failed f) → g.FailedLast st.2 q f) :
    Ensures (p.execLogged g run) st
      (fun a t => g.Accounts t ∧ ∃ last, Q a last ∧ ∀ q f, last = some (q, .failed f) → g.FailedLast t.2 q f)
      fun _ t => g.Explained t.1.derivation t.2 := by
  induction p generalizing last st with
  | done a => exact ⟨hst, last, hp, hlast⟩
  | stop why => exact hst.explained
  | policy next ih => exact ih st.1.context.whitespace (hp _) hst hlast
  | expect q next ih => exact expect_execLogged hst fun e d _ _ hst' => ih e (hp e) hst' hlast
  | call scope q w next ih =>
    rw [Plan.execLogged, ensures_bind, Logged.ensures_bracketed]
    refine (hrun q w ({ st.1 with context := scope.enter st.1.context }, st.2) ⟨hst.asked, hst.explained⟩).imp ?_
      fun _ _ h => h
    rintro r t ⟨ht, hfailed⟩
    refine ih r (hp r) ⟨ht.asked, ht.explained⟩ ?_
    rintro q' f heq
    cases heq
    exact hfailed f rfl

/-- A stamp puts first what the rule expects from now on. -/
theorem Plan.stamp_execLogged (hg : g.IsLibrary) (hr : g.Proper id rule) {run : RuleId → View → Logged κ (Result κ)}
    {r : Result κ} (hst : g.Accounts st) :
    Ensures ((Plan.stamp id v r).execLogged g run) st
      (fun r' t => g.Accounts t ∧ t.2 = st.2 ∧ ∀ f', r' = .failed f' → ∃ f, r = .failed f ∧ f'.rest = f.rest ∧
        (f'.offset = v.start → ∃ e, t.1.derivation.Fixes g id e ∧ rule.body.leaves ⊆ e.prefixes ∧
          f'.expected = orderedUnion e.prefixes f.expected))
      fun _ t => g.Explained t.1.derivation t.2 := by
  cases r with
  | parsed x rest =>
    refine ⟨hst, rfl, fun f' hf' => ?_⟩
    cases hf'
  | failed f =>
    rw [Plan.stamp]
    split
    next ho =>
      refine expect_execLogged hst fun e d hask _ hd => ?_
      have hatRest := hst.asked.atRest hg
      have hfixes : d.Fixes g id e :=
        Derivation.fixes_of_known hr (Grammar.expectation_kept hatRest hr.1 hr.2 hask)
      have hleaves := hst.asked.leaves_subset hg hr.1 hask
      have stamped {d' : Derivation κ} (hd' : d'.Keeps d) {f' : Failure κ} (whitespace : List (Matcher κ))
          (hf' : Result.failed (f.stampedBy e whitespace) = .failed f') : ∃ f₀, Result.failed f = .failed f₀ ∧
            f'.rest = f₀.rest ∧ (f'.offset = v.start → ∃ e, d'.Fixes g id e ∧ rule.body.leaves ⊆ e.prefixes ∧
              f'.expected = orderedUnion e.prefixes f₀.expected) := by
        cases hf'
        exact ⟨f, rfl, rfl, fun _ => ⟨e, fun d'' hd'' => hfixes d'' (hd'.trans hd''), hleaves, rfl⟩⟩
      dsimp only
      split
      · -- the policy is asked after the rule itself, and keeps what is kept
        rw [Plan.ensures_execLogged_policy]
        cases st.1.context.whitespace with
        | none => exact ⟨hd, rfl, fun f' => stamped (fun _ _ h => h) _⟩
        | some p =>
          refine expect_execLogged hd fun e' d' _ hgrows hd' => ?_
          exact ⟨hd', rfl, fun f' => stamped hgrows.keeps _⟩
      · exact ⟨hd, rfl, fun f' => stamped (fun _ _ h => h) _⟩
    next ho =>
      refine ⟨hst, rfl, fun f' hf' => ?_⟩
      cases hf'
      exact ⟨f, rfl, rfl, fun ho' => absurd ho' ho⟩

variable [CustomMatcher κ]

/-- What a rule comes to explains its call, whatever context the call leaves. -/
theorem Grammar.Proper.execLogged (hg : g.IsLibrary) (hr : g.Proper id rule)
    {run : RuleId → View → Logged κ (Result κ)} (hrun : ∀ q w st, g.Accounts st → g.RunsAccounted q st (run q w))
    (hst : g.Accounts st) :
    Ensures (((rule.body.plan v).bind (Plan.stamp id v)).execLogged g run) st
      (fun r t => g.Accounts t ∧ ∀ context, g.Explains t.1.derivation t.2.getLast? ⟨id, v, .ok r, context⟩)
      fun _ t => g.Explained t.1.derivation t.2 := by
  have hends : (rule.body.plan v).Ends none (rule.body.Blames v) := Body.plan_ends (hg id rule hr.1)
  rw [Plan.execLogged_bind, ensures_bind]
  refine (hends.execLogged hrun hst nofun).imp_ok ?_
  rintro r t ⟨ht, last, hblames, hlast⟩
  refine (Plan.stamp_execLogged hg hr ht).imp_ok ?_
  rintro r' t' ⟨ht', hlog, hstamped⟩
  refine ⟨ht', fun context f' hf' ho => ?_⟩
  cases hf'
  obtain ⟨f, rfl, hrest, hentry⟩ := hstamped f' rfl
  obtain ⟨e, hfixes, hleaves, hexpected⟩ := hentry ho
  refine ⟨e, hfixes, ?_⟩
  cases hblames with
  | own => exact .own (hexpected.trans (orderedUnion_of_subset hleaves))
  | @operand q f₀ _ hq hrest₀ hexpected₀ =>
    obtain ⟨c, hc, hhands, hfailed⟩ := hlast q f₀ rfl
    refine .operand (hlog ▸ hc) ⟨rule, q, hr.1, hq, hhands⟩ hfailed (hrest.trans hrest₀).symm ?_
    rw [hexpected, hexpected₀]

/-- **A run explains its failures**, by induction on fuel. -/
theorem Grammar.logged_accounts (hg : g.IsLibrary) (fuel : Nat) (id : RuleId) (v : View)
    (st : ParseState κ × List (Call κ)) (hst : g.Accounts st) : g.RunsAccounted id st (g.logged fuel id v) := by
  induction fuel generalizing id v st with
  | zero => exact hst.explained
  | succ fuel ih =>
    rw [Grammar.logged]
    split
    next hplaceholder =>
      rcases g.plan_of_isPlaceholder hplaceholder v with ⟨label, hplan⟩ | ⟨label, t, hr, hplan⟩
      · rw [hplan]
        exact hst.explained
      · -- the call of the target is the last, and it is what the placeholder stands for
        rw [RunsAccounted, hplan, Plan.execLogged, ensures_bind, Logged.ensures_bracketed]
        refine (ih t v st hst).imp_ok ?_
        rintro r s ⟨hs, hfailed⟩
        refine ⟨hs, fun f hf => ?_⟩
        obtain ⟨c, hc, hhands, hout⟩ := hfailed f hf
        exact ⟨c, hc, .head ⟨label, hr⟩ hhands, hout⟩
    next hplaceholder =>
      have follow : Ensures ((g.plan id v).execLogged g (g.logged fuel)) st
          (fun r t => g.Accounts t ∧ ∀ context, g.Explains t.1.derivation t.2.getLast? ⟨id, v, .ok r, context⟩)
          fun _ t => g.Explained t.1.derivation t.2 := by
        rw [Grammar.plan]
        split
        next => exact hst.explained
        next => exact hst.explained
        next label target hr => exact absurd (by rw [isPlaceholder, hr]) hplaceholder
        next rule hnone hsome hr => exact Proper.execLogged hg ⟨hr, Rule.body_ne_placeholder hnone hsome⟩ ih hst
      rw [RunsAccounted, Logged.ensures_noted, ensures_bind]
      refine follow.imp ?_ fun why t ht => ht.concat fun f hf => by cases hf
      rintro r t ⟨ht, hexplains⟩
      rw [ensures_bind, Logged.ensures_lift]
      -- offering the result changes the record only
      have offered : Ensures (Parse.offer r) t.1 (fun _ s => s.derivation = t.1.derivation) fun _ _ => False := by
        cases r with
        | parsed x rest => rfl
        | failed f => rfl
      refine offered.imp (fun _ s hs => ?_) fun _ _ h => h.elim
      refine ⟨⟨hs ▸ ht.asked, hs ▸ ht.explained.concat (hexplains s.context)⟩, fun f hf => ?_⟩
      exact ⟨_, List.getLast?_concat, .refl, congrArg Except.ok hf⟩

/-- **Failures name nothing twice.** In a run of a grammar of the library that ends in any way, from a context without
a record or with one that names nothing twice, every failure that a rule returns names no matcher and no whitespace
twice, and neither does the record at any point that the run passes. And a failure at the entry of its rule names what
the rule expects, in that order and each matcher once, and then nothing more, or what its operand expected besides
that failed there; which operand that is tells the call right before. The expectation is the one that is answered from
then on, by whatever bookkeeping comes of the run. The run with a log is the run itself, by the first part. -/
theorem Grammar.failures_unrepeated (hg : g.IsLibrary) (fuel : Nat) (id : RuleId) (v : View) (s : ParseState κ)
    (hd : g.Asked s.derivation) (hs : ∀ f, s.context.furthest = some f → f.Unrepeated) :
    let run := g.logged fuel id v (s, [])
    let log := (Logged.left run).2
    let d := (Logged.left run).1.derivation
    Logged.forget run = g.parse fuel id v s ∧
      (∀ n b, g.Passes fuel id v ⟨s, n⟩ b → ∀ f, b.state.context.furthest = some f → f.Unrepeated) ∧
      ∀ before c, before ++ [c] <+: log → ∀ f, c.outcome = .ok (.failed f) →
        f.Unrepeated ∧
          (f.offset = c.view.start → ∃ e, (∀ d' : Derivation κ, d'.Keeps d → g.expectation c.rule d' = .ok e d') ∧
            (f.expected = distinct e.prefixes ∨
              ∃ c₀ f₀, before.getLast? = some c₀ ∧ g.Operand c.rule c₀.rule ∧ c₀.outcome = .ok (.failed f₀) ∧
                f₀.rest = f.rest ∧ f.expected = distinct e.prefixes ++ f₀.expected.filter (· ∉ e.prefixes))) := by
  intro run log d
  have tracks := (unrepeated_kept hg).tracks fuel id v s
  have unrepeated {c : Call κ} (hc : c ∈ log) {f : Failure κ} (hf : c.outcome = .ok (.failed f)) : f.Unrepeated :=
    (((tracks.obeys c hc).2 _ hf).2 f rfl).1
  have explained : g.Explained d log := by
    have start : g.Accounts (s, []) := ⟨hd, fun before c h => by simp at h⟩
    exact Logged.left_of_ensures (P := fun t => g.Explained t.1.derivation t.2)
      ((logged_accounts hg fuel id v (s, []) start).imp_ok fun _ _ h => h.1.explained)
  refine ⟨g.forget_logged fuel id v s [], fun n b hb => passes_namesOnce hg hb hs, fun before c hc f hf => ?_⟩
  refine ⟨unrepeated (hc.subset (List.mem_append_right _ List.mem_cons_self)) hf, fun ho => ?_⟩
  obtain ⟨e, hfixes, hmade⟩ := explained before c hc f hf ho
  refine ⟨e, hfixes, ?_⟩
  cases hmade with
  | own h => exact Or.inl h
  | @operand c₀ f₀ hbefore hc₀ hf₀ hrest h =>
    have hmem : c₀ ∈ log := hc.subset (List.mem_append_left _ (List.mem_of_getLast? hbefore))
    exact Or.inr ⟨c₀, f₀, hbefore, hc₀, hf₀, hrest, h.trans (orderedUnion_of_nodup (unrepeated hmem hf₀).expected _)⟩

end Log

/-- A choice of a letter that is given twice, and may be left out, before another letter. -/
def twiceBefore : Grammar FixedMatcher where
  rules := #[⟨none, .oneOf [.literal "a" true, .literal "a" true]⟩, ⟨none, .optional 0 .none⟩,
    ⟨none, .token (.literal "b" true) none⟩, ⟨none, .sequence [1, 2]⟩]
  names := []
  customs := 0

/-- What a run of the pair leaves where neither letter is. -/
def twiceBeforeLeft : ParseState FixedMatcher × List (Call FixedMatcher) :=
  Logged.left (twiceBefore.logged 3 3 (.ofSource ⟨0, ['c']⟩) (⟨.fresh, .fresh none 0⟩, []))

/-- How the pair fails there. -/
def twiceBeforeFailure : Failure FixedMatcher :=
  ⟨.ofSource ⟨0, ['c']⟩, [.literal "a" true, .literal "b" true], []⟩

/-- Its call is the last, and its expectation is kept. -/
theorem twiceBeforeLeft_eq :
    (∃ c₀ c₁ c₂ context, [c₀, c₁, c₂] ++ [⟨3, .ofSource ⟨0, ['c']⟩, .ok (.failed twiceBeforeFailure), context⟩] =
      twiceBeforeLeft.2) ∧
      twiceBeforeLeft.1.derivation.known? 3 = some ⟨[.literal "a" true, .literal "a" true], [], false⟩ :=
  ⟨⟨_, _, _, _, rfl⟩, rfl⟩

/-- It names the first letter once, which it expects twice, and then the other one, which its operand named that
failed. -/
theorem failures_unrepeated_twiceBefore :
    twiceBefore.IsLibrary ∧ twiceBefore.Asked .fresh ∧
      (∃ c ∈ twiceBeforeLeft.2, c.rule = 3 ∧ c.outcome = .ok (.failed twiceBeforeFailure)) ∧
      twiceBeforeFailure.Unrepeated ∧
      ∃ e, twiceBefore.expectation 3 twiceBeforeLeft.1.derivation = .ok e twiceBeforeLeft.1.derivation ∧
        e.prefixes = [.literal "a" true, .literal "a" true] ∧
        twiceBeforeFailure.expected = distinct e.prefixes ++ [.literal "b" true] := by
  have hg : twiceBefore.IsLibrary := by decide
  obtain ⟨⟨c₀, c₁, c₂, context, hcalls⟩, hknown⟩ := twiceBeforeLeft_eq
  obtain ⟨-, -, hlog⟩ := Grammar.failures_unrepeated hg 3 3 (.ofSource ⟨0, ['c']⟩) ⟨.fresh, .fresh none 0⟩ (.fresh _)
    nofun
  obtain ⟨hunrepeated, hentry⟩ := hlog _ _ ⟨[], (List.append_nil _).trans hcalls⟩ twiceBeforeFailure rfl
  have hmem : _ ∈ twiceBeforeLeft.2 := hcalls ▸ List.mem_append_right _ List.mem_cons_self
  obtain ⟨e, hanswer, -⟩ := hentry rfl
  have answer : twiceBefore.expectation 3 twiceBeforeLeft.1.derivation = .ok e twiceBeforeLeft.1.derivation :=
    hanswer _ fun _ _ h => h
  have fixed : twiceBeforeLeft.1.derivation.Fixes twiceBefore 3 _ := Derivation.fixes_of_known ⟨rfl, nofun⟩ hknown
  have first : e.prefixes = [.literal "a" true, .literal "a" true] := by
    cases answer.symm.trans (fixed _ fun _ _ h => h)
    rfl
  exact ⟨hg, .fresh _, ⟨_, hmem, rfl, rfl⟩, hunrepeated, e, answer, first, by rw [first]; rfl⟩

end Descent
