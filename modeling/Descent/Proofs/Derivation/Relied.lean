import Descent.Proofs.Derivation.Reach

/-!
# What answers can be relied on

What a derivation answers half way through a walk is less than what can be reached from the rule: it turns back at
marks. The account of it has an upper and a lower bound. All that is shown can be reached; and what is *due* is shown,
which is whatever can be reached past the marks, and, if no cut was met, whatever can be reached at all.

The lower bound holds of the rules that are *relied on*, which need not be all: an answer that was kept for some rule
may be out of date, and then nothing that begins with that rule can be relied on. Some rules may *wait* for what is not
there yet. They too are seen to by the record of cuts: a rule that waits and is read inside of a walk leaves a cut on
record, so that nothing is kept that its answer went into. At the start of a walk there is no such care, and an answer
is kept whether or not the rule waits. `Grammar.expectationWithin_reliable` has that as its one condition.
-/

namespace Descent

variable {κ : Type}

/-- Which rules are relied on to be answered in full, and which of all rules wait for something. What a rule that is
relied on begins with is relied on; what waits is a placeholder for nothing yet, or begins with something that waits. -/
structure Reliance (g : Grammar κ) where
  on : RuleId → Prop
  waits : RuleId → Prop
  on_entry : ∀ {p q}, on p → g.Entry p q → on q
  waits_next : ∀ {p rule}, g.rule? p = some rule → waits p →
    rule.body = .placeholder none ∨ ∃ q ∈ rule.body.entries, waits q

/-- The bookkeeping as derivations leave it: the depth is the number of marks, and what is kept is right. It is all
there is to know of the rules that are relied on, and these wait for nothing. -/
structure Derivation.Reliable {g : Grammar κ} (d : Derivation κ) (S : Reliance g) : Prop where
  depth_eq : d.depth = d.marked.length
  sound : ∀ id e, d.known? id = some e → ∀ T : Trait κ, T.Shown e → T.Reached g id
  full : ∀ id e, d.known? id = some e → S.on id → ¬ S.waits id ∧ ∀ T : Trait κ, T.Reached g id → T.Shown e

/-- What reading a rule owes, between two states of the bookkeeping. -/
def Trait.Due (T : Trait κ) (g : Grammar κ) (d d' : Derivation κ) (id : RuleId) : Prop :=
  T.Avoids g d.marked id ∨ d'.cycleMet = false ∧ T.Reached g id

theorem Trait.Due.reached {T : Trait κ} {g : Grammar κ} {d d' : Derivation κ} {id : RuleId} (h : T.Due g d d' id) :
    T.Reached g id := by
  rcases h with h | ⟨-, h⟩
  · exact h.reached
  · exact h

/-- The account of reading the expectation of a rule. -/
structure ReadsFor {g : Grammar κ} (S : Reliance g) (id : RuleId) (d : Derivation κ) (e : Expectation κ)
    (d' : Derivation κ) : Prop where
  reliable : d'.Reliable S
  marked : d'.marked = d.marked
  /-- inside of a walk, a cut is not forgotten -/
  flag : d.marked ≠ [] → d.cycleMet = true → d'.cycleMet = true
  sound : ∀ T : Trait κ, T.Shown e → T.Reached g id
  due : S.on id → ∀ T : Trait κ, T.Due g d d' id → T.Shown e
  /-- inside of a walk, a rule that waits is on record as a cut -/
  waits : d.marked ≠ [] → S.on id → S.waits id → d'.cycleMet = true

/-- The account of the walk over a body. -/
structure JoinsFor {g : Grammar κ} (S : Reliance g) (b : Body κ) (d : Derivation κ) (e : Expectation κ)
    (d' : Derivation κ) : Prop where
  flag : d.cycleMet = true → d'.cycleMet = true
  sound : ∀ T : Trait κ, T.Shown e → T.Borne b ∨ T.Passes b ∧ ∃ q ∈ b.entries, T.Reached g q
  borne : ∀ T : Trait κ, T.Borne b → T.Shown e
  due : ∀ T : Trait κ, T.Passes b → ∀ q ∈ b.entries, S.on q → T.Due g d d' q → T.Shown e
  waits : ∀ q ∈ b.entries, S.on q → S.waits q → d'.cycleMet = true

/-! ## 1. Bodies -/

section Body

variable {b : Body κ} {e : Expectation κ} {id : RuleId}

theorem Body.own?_eq_some (h : b.own? = some e) :
    e.prefixes = b.leaves ∧ e.ambient = false ∧ b.entries = [] ∧ ∀ inner, b ≠ .skipping inner := by
  cases b with
  | sequence parts =>
    cases parts with
    | nil => cases h; exact ⟨rfl, rfl, rfl, nofun⟩
    | cons first parts => cases h
  | token m f => cases h; exact ⟨rfl, rfl, rfl, nofun⟩
  | capture m => cases h; exact ⟨rfl, rfl, rfl, nofun⟩
  | oneOf ms => cases h; exact ⟨rfl, rfl, rfl, nofun⟩
  | _ => cases h

theorem Body.passes?_eq_some (h : b.passes? = some id) :
    b.entries = [id] ∧ b.leaves = [] ∧ (∀ inner, b ≠ .skipping inner) ∧ ∀ inner policy, b ≠ .within inner policy := by
  cases b with
  | sequence parts =>
    cases parts with
    | nil => cases h
    | cons first parts => cases h; exact ⟨rfl, rfl, nofun, nofun⟩
  | optional inner default => cases h; exact ⟨rfl, rfl, nofun, nofun⟩
  | repeated first minimum attempt => cases h; exact ⟨rfl, rfl, nofun, nofun⟩
  | map inner f => cases h; exact ⟨rfl, rfl, nofun, nofun⟩
  | skippingAfter inner => cases h; exact ⟨rfl, rfl, nofun, nofun⟩
  | _ => cases h

variable {T : Trait κ}

theorem Trait.not_borne (hleaves : b.leaves = []) (hskip : ∀ inner, b ≠ .skipping inner) : ¬ T.Borne b := by
  cases T with
  | matcher m => exact fun h => by simp [Trait.Borne, hleaves] at h
  | ambient => rintro ⟨inner, rfl⟩; exact hskip inner rfl

theorem Trait.passes_of_ne_within (h : ∀ inner policy, b ≠ .within inner policy) : T.Passes b := by
  cases T with
  | matcher m => trivial
  | ambient => exact h

theorem Trait.not_shown_empty : ¬ T.Shown (.empty : Expectation κ) := by
  cases T <;> simp [Trait.Shown, Expectation.empty]

variable [DecidableEq κ]

/-- Only a hand-written rule and a placeholder have no derivation of their own. -/
theorem Body.derived?_ne_none {g : Grammar κ} {read : RuleId → Derive κ (Expectation κ)} (hb : b.IsLibrary)
    (hp : ∀ target, b ≠ .placeholder target) : b.derived? g read ≠ none := by
  cases b with
  | sequence parts => cases parts <;> simp [Body.derived?]
  | placeholder target => exact absurd rfl (hp target)
  | handWritten answer derivative => exact hb.elim
  | _ => simp [Body.derived?]

variable {e' : Expectation κ}

theorem Trait.shown_union : T.Shown (e.union e') ↔ T.Shown e ∨ T.Shown e' := by
  cases T with
  | matcher m => exact mem_orderedUnion
  | ambient => exact Bool.or_eq_true _ _ ▸ Iff.rfl

theorem Expectation.prefixes_withWhitespace (ms : List (Matcher κ)) : (e.withWhitespace ms).prefixes = e.prefixes := by
  rw [Expectation.withWhitespace]
  split <;> rfl

theorem Expectation.ambient_withWhitespace (ms : List (Matcher κ)) : (e.withWhitespace ms).ambient = false := by
  rw [Expectation.withWhitespace]
  split
  · rfl
  next h => exact Bool.eq_false_iff.mpr h

end Body

section Joins

variable [DecidableEq κ] {g : Grammar κ} {S : Reliance g}

/-- Adding up the expectations of some rules: what is due of any of them is shown. -/
theorem Account.Adds.joins {ids : List RuleId} {e e' : Expectation κ} {d d' : Derivation κ}
    (h : Account.Adds (ReadsFor S) ids e d e' d') (hd : d.marked ≠ []) :
    (d.cycleMet = true → d'.cycleMet = true) ∧ (∀ q ∈ ids, S.on q → S.waits q → d'.cycleMet = true) ∧
      ∀ T : Trait κ, (T.Shown e → T.Shown e') ∧ (T.Shown e' → T.Shown e ∨ ∃ q ∈ ids, T.Reached g q) ∧
        ∀ q ∈ ids, S.on q → T.Due g d d' q → T.Shown e' := by
  induction h with
  | nil => exact ⟨id, nofun, fun T => ⟨id, Or.inl, nofun⟩⟩
  | @cons q qs e e₁ e' d d₁ d' head tail ih =>
    obtain ⟨flag, waits, ih⟩ := ih (by rw [head.marked]; exact hd)
    refine ⟨fun h => flag (head.flag hd h), fun q' hq' hon hwaits => ?_, fun T => ?_⟩
    · rcases List.mem_cons.mp hq' with rfl | hq'
      · exact flag (head.waits hd hon hwaits)
      · exact waits q' hq' hon hwaits
    obtain ⟨mono, sound, due⟩ := ih T
    refine ⟨fun h => mono (Trait.shown_union.mpr (Or.inl h)), fun h => ?_, fun q' hq' hon h => ?_⟩
    · rcases sound h with h | ⟨q', hq', h⟩
      · rcases Trait.shown_union.mp h with h | h
        · exact Or.inl h
        · exact Or.inr ⟨q, List.mem_cons_self, head.sound T h⟩
      · exact Or.inr ⟨q', List.mem_cons_of_mem _ hq', h⟩
    · rcases List.mem_cons.mp hq' with rfl | hq'
      · refine mono (Trait.shown_union.mpr (Or.inr (head.due hon T ?_)))
        rcases h with h | ⟨hflag, h⟩
        · exact Or.inl h
        · -- a cut that was met here would still be on record at the end
          refine Or.inr ⟨Bool.eq_false_iff.mpr fun hcut => ?_, h⟩
          rw [flag hcut] at hflag
          cases hflag
      · refine due q' hq' hon ?_
        rw [Trait.Due, head.marked]
        exact h

/-- A rule under a policy of its own shows the matchers of the inner rule, and no ambient whitespace. -/
theorem ReadsFor.joins_within {inner : RuleId} {policy : Option RuleId} {e : Expectation κ} {d d₁ d' : Derivation κ}
    {ms : List (Matcher κ)} (h : ReadsFor S inner d₁ e d') (hd : d.marked ≠ []) (hmarked : d₁.marked = d.marked)
    (hflag : d.cycleMet = true → d₁.cycleMet = true) :
    JoinsFor S (.within inner policy) d (e.withWhitespace ms) d' := by
  refine ⟨fun hcut => h.flag (hmarked ▸ hd) (hflag hcut), fun T hT => ?_,
    fun T hT => absurd hT (Trait.not_borne rfl nofun), fun T hp q hq hon hdue => ?_, fun q hq hon hwaits => ?_⟩
  · -- the policy adds whitespace to the answer, which is no trait, and takes the ambient mark away
    cases T with
    | matcher m =>
      rw [Trait.Shown, Expectation.prefixes_withWhitespace] at hT
      exact Or.inr ⟨trivial, inner, List.mem_cons_self, h.sound (.matcher m) hT⟩
    | ambient => exact absurd hT (by simp [Trait.Shown, Expectation.ambient_withWhitespace])
  · cases List.mem_singleton.mp hq
    cases T with
    | matcher m =>
      rw [Trait.Shown, Expectation.prefixes_withWhitespace]
      refine h.due hon (.matcher m) ?_
      rw [Trait.Due, hmarked]
      exact hdue
    | ambient => exact absurd rfl (hp inner policy)
  · cases List.mem_singleton.mp hq
    exact h.waits (hmarked ▸ hd) hon hwaits

/-- **Bodies join the accounts of the rules that they read.** -/
theorem Body.Derives.joins {b : Body κ} {e : Expectation κ} {d d' : Derivation κ}
    (h : b.Derives (ReadsFor S) d e d') (hb : b.IsLibrary) (hd : d.marked ≠ []) : JoinsFor S b d e d' := by
  cases h with
  | own h =>
    obtain ⟨hprefixes, hambient, hentries, hskip⟩ := Body.own?_eq_some h
    refine ⟨id, fun T hT => Or.inl ?_, fun T hT => ?_, fun T _ q hq => by simp [hentries] at hq,
      fun q hq => by simp [hentries] at hq⟩
    · cases T with
      | matcher m =>
        show m ∈ b.leaves
        rw [← hprefixes]
        exact hT
      | ambient => exact absurd hT (by simp [Trait.Shown, hambient])
    · cases T with
      | matcher m =>
        show m ∈ e.prefixes
        rw [hprefixes]
        exact hT
      | ambient =>
        obtain ⟨inner, rfl⟩ := hT
        exact absurd rfl (hskip inner)
  | passed h hread =>
    obtain ⟨hentries, hleaves, hskip, hwithin⟩ := Body.passes?_eq_some h
    refine ⟨hread.flag hd, fun T hT => ?_, fun T hT => absurd hT (Trait.not_borne hleaves hskip),
      fun T _ q hq hon hdue => ?_, fun q hq hon hwaits => ?_⟩
    · exact Or.inr ⟨Trait.passes_of_ne_within hwithin, _, by simp [hentries], hread.sound T hT⟩
    · rw [hentries, List.mem_singleton] at hq
      subst hq
      exact hread.due hon T hdue
    · rw [hentries, List.mem_singleton] at hq
      subst hq
      exact hread.waits hd hon hwaits
  | either hadds =>
    obtain ⟨flag, waits, hadds⟩ := hadds.joins hd
    refine ⟨flag, fun T hT => ?_, fun T hT => absurd hT (Trait.not_borne rfl nofun), fun T _ => (hadds T).2.2, waits⟩
    exact Or.inr ⟨Trait.passes_of_ne_within nofun, ((hadds T).2.1 hT).resolve_left Trait.not_shown_empty⟩
  | skipping hread =>
    -- ambient whitespace is shown whatever the inner rule shows
    refine ⟨hread.flag hd, fun T hT => ?_, fun T hT => ?_, fun T _ q hq hon hdue => ?_, fun q hq hon hwaits => ?_⟩
    · cases T with
      | matcher m => exact Or.inr ⟨trivial, _, List.mem_cons_self, hread.sound (.matcher m) hT⟩
      | ambient => exact Or.inl ⟨_, rfl⟩
    · cases T with
      | matcher m => cases hT
      | ambient => rfl
    · cases List.mem_singleton.mp hq
      cases T with
      | matcher m => exact hread.due hon (.matcher m) hdue
      | ambient => rfl
    · cases List.mem_singleton.mp hq
      exact hread.waits hd hon hwaits
  | without hread => exact hread.joins_within hd rfl id
  | under hpolicy hread => exact hread.joins_within hd hpolicy.marked (hpolicy.flag hd)
  | handWritten => exact hb.elim

end Joins

/-! ## 2. Rules -/

namespace Derivation

variable {d outer inner : Derivation κ} {g : Grammar κ} {id : RuleId} {e : Expectation κ}

theorem known?_keep (id' : RuleId) : (d.keep id e).known? id' = if id = id' then some e else d.known? id' := by
  by_cases h : id = id'
  · simp [known?, keep, h]
  · simp [known?, keep, h]

/-- What is kept after a walk was kept before it, or is the answer of the walk, which is then the start of all or has
met no cut. -/
theorem known?_conclude {id' : RuleId} {e' : Expectation κ} (h : (outer.conclude inner id e).known? id' = some e') :
    inner.known? id' = some e' ∨ id' = id ∧ e' = e ∧ (outer.depth = 0 ∨ inner.cycleMet = false) := by
  rw [conclude] at h
  split at h
  next hkept =>
    rw [known?_keep] at h
    split at h
    next hid =>
      cases h
      refine Or.inr ⟨hid.symm, rfl, ?_⟩
      simpa using hkept
    next => exact Or.inl h
  next => exact Or.inl h

theorem Reliable.enter {S : Reliance g} (h : d.Reliable S) (id : RuleId) : (d.enter id).Reliable S where
  depth_eq := by
    show d.depth + 1 = (id :: d.marked).length
    rw [h.depth_eq, List.length_cons]
  sound := h.sound
  full := h.full

end Derivation

section Rule

variable {g : Grammar κ} {S : Reliance g} {id : RuleId} {rule : Rule κ} {e : Expectation κ} {d inner : Derivation κ}

/-- **A marked rule reads as its body joins**: the mark comes off, and an answer that is kept is right. At the start of
all, where it is kept in any case, the rule must not wait. -/
theorem JoinsFor.reads (h : JoinsFor S rule.body (d.enter id) e inner) (hr : g.rule? id = some rule)
    (hp : ∀ target, rule.body ≠ .placeholder target) (hstart : d.marked = [] → S.on id → ¬ S.waits id)
    (hd : d.Reliable S) (hinner : inner.Reliable S) (hmarked : inner.marked = id :: d.marked) :
    ReadsFor S id d e (d.conclude inner id e) := by
  have enters {q : RuleId} (hon : S.on id) (hq : q ∈ rule.body.entries) : S.on q := S.on_entry hon ⟨rule, hr, hq⟩
  have none_iff : d.depth = 0 ↔ d.marked = [] := by rw [hd.depth_eq, List.length_eq_zero_iff]
  have sound (T : Trait κ) (hT : T.Shown e) : T.Reached g id := by
    rcases h.sound T hT with hb | ⟨hp, q, hq, hreach⟩
    · exact .of_borne hr hb
    · exact .of_entry hr hp hq hreach
  -- three ways for the answer to be complete: past the marks, without a cut, and from the start of all
  have avoids (hon : S.on id) (T : Trait κ) (hT : T.Avoids g d.marked id) : T.Shown e := by
    rcases hT.next hr with hb | ⟨hp, q, hq, hq'⟩
    · exact h.borne T hb
    · exact h.due T hp q hq (enters hon hq) (Or.inl hq')
  have uncut (hon : S.on id) (hcut : inner.cycleMet = false) (T : Trait κ) (hT : T.Reached g id) : T.Shown e := by
    rcases hT.next hr with hb | ⟨hp, q, hq, hq'⟩
    · exact h.borne T hb
    · exact h.due T hp q hq (enters hon hq) (Or.inr ⟨hcut, hq'⟩)
  have start (hon : S.on id) (hdepth : d.depth = 0) (T : Trait κ) (hT : T.Reached g id) : T.Shown e :=
    -- nothing is marked yet, so every path goes past the marks
    avoids hon T (none_iff.mp hdepth ▸ hT.avoids)
  have waits (hon : S.on id) (hwaits : S.waits id) : inner.cycleMet = true := by
    rcases S.waits_next hr hwaits with hb | ⟨q, hq, hq'⟩
    · exact absurd hb (hp none)
    · exact h.waits q hq (enters hon hq) hq'
  have marked : (d.conclude inner id e).marked = d.marked := by
    rw [Derivation.marked_conclude, hmarked, List.erase_cons_head]
  have cycleMet (hne : d.marked ≠ []) : (d.conclude inner id e).cycleMet = (d.cycleMet || inner.cycleMet) := by
    rw [Derivation.cycleMet_conclude, if_neg (mt none_iff.mp hne)]
  refine ⟨⟨?_, fun id' e' hknown => ?_, fun id' e' hknown hon => ?_⟩, marked, fun hne hcut => ?_, sound,
    fun hon T hdue => ?_, fun hne hon hwaits => ?_⟩
  · rw [Derivation.depth_conclude, marked, hinner.depth_eq, hmarked, List.length_cons, Nat.add_sub_cancel]
  · rcases Derivation.known?_conclude hknown with hknown | ⟨rfl, rfl, -⟩
    · exact hinner.sound id' e' hknown
    · exact sound
  · rcases Derivation.known?_conclude hknown with hknown | ⟨rfl, rfl, hdepth | hcut⟩
    · exact hinner.full id' e' hknown hon
    · exact ⟨hstart (none_iff.mp hdepth) hon, start hon hdepth⟩
    · refine ⟨fun hwaits => ?_, uncut hon hcut⟩
      rw [waits hon hwaits] at hcut
      cases hcut
  · rw [cycleMet hne, hcut, Bool.true_or]
  · rcases hdue with hT | ⟨hcut, hT⟩
    · exact avoids hon T hT
    · by_cases hne : d.marked = []
      · exact start hon (none_iff.mpr hne) T hT
      · rw [cycleMet hne, Bool.or_eq_false_iff] at hcut
        exact uncut hon hcut.2 T hT
  · rw [cycleMet hne, waits hon hwaits, Bool.or_true]

/-- A placeholder reads as its target. -/
theorem ReadsFor.placeholder {label : Option String} {target : RuleId} {d' : Derivation κ}
    (h : ReadsFor S target d e d') (hr : g.rule? id = some ⟨label, .placeholder (some target)⟩) :
    ReadsFor S id d e d' := by
  have passes (T : Trait κ) : T.Passes (.placeholder (some target)) := Trait.passes_of_ne_within nofun
  have enters (hon : S.on id) : S.on target := S.on_entry hon ⟨_, hr, List.mem_cons_self⟩
  refine ⟨h.reliable, h.marked, h.flag, fun T hT => ?_, fun hon T hdue => h.due (enters hon) T ?_,
    fun hne hon hwaits => ?_⟩
  · exact .of_entry hr (passes T) List.mem_cons_self (h.sound T hT)
  · rcases hdue with hT | ⟨hcut, hT⟩
    · exact Or.inl (hT.target hr)
    · rcases hT.next hr with hb | ⟨-, q, hq, hq'⟩
      · exact absurd hb (Trait.not_borne rfl nofun)
      · exact Or.inr ⟨hcut, List.mem_singleton.mp hq ▸ hq'⟩
  · rcases S.waits_next hr hwaits with hb | ⟨q, hq, hq'⟩
    · cases hb
    · cases List.mem_singleton.mp hq
      exact h.waits hne (enters hon) hq'

/-- Nothing is reached from a placeholder without a target. -/
theorem Trait.not_reached_of_unresolved {T : Trait κ} {label : Option String}
    (hr : g.rule? id = some ⟨label, .placeholder none⟩) : ¬ T.Reached g id := by
  intro h
  rcases h.next hr with hb | ⟨-, q, hq, -⟩
  · exact absurd hb (Trait.not_borne rfl nofun)
  · cases hq

/-- A cut reads as nothing, and is on record. -/
theorem ReadsFor.cut (hd : d.Reliable S) (h : ∀ T : Trait κ, ¬ T.Avoids g d.marked id) :
    ReadsFor S id d .empty { d with cycleMet := true } := by
  refine ⟨⟨hd.depth_eq, hd.sound, hd.full⟩, rfl, fun _ _ => rfl, fun T hT => absurd hT Trait.not_shown_empty,
    fun _ T hdue => ?_, fun _ _ _ => rfl⟩
  rcases hdue with hT | ⟨hcut, -⟩
  · exact absurd hT (h T)
  · cases hcut

variable [DecidableEq κ]

/-- **Reading an expectation keeps its account**, by induction on fuel. The one condition is on the start of a walk: the
rule that it starts from, which the rule that is asked for is or hands on to, does not wait if it is relied on. -/
theorem Grammar.expectationWithin_reliable (hg : g.IsLibrary) (fuel : Nat) (id : RuleId) (d : Derivation κ)
    (hd : d.Reliable S) (hstart : d.marked = [] → ∀ q rule, Relation.ReflTransGen g.HandsOn id q →
      g.rule? q = some rule → (∀ target, rule.body ≠ .placeholder target) → S.on q → ¬ S.waits q) :
    Ensures (g.expectationWithin fuel id) d (fun e d' => ReadsFor S id d e d') fun _ _ => True := by
  induction fuel generalizing id d with
  | zero => exact trivial
  | succ fuel ih =>
    apply Grammar.expectationWithin_ensures
    case absent => exact fun _ => trivial
    case unresolved =>
      exact fun label hr => .cut hd fun T hT => Trait.not_reached_of_unresolved hr hT.reached
    case target =>
      intro label target hr
      refine (ih target d hd fun hnone q rule hpath => ?_).imp_ok fun e d' h => h.placeholder hr
      exact hstart hnone q rule (.head ⟨label, hr⟩ hpath)
    case known =>
      -- what is kept shows all that can be reached, which is more than is due
      intro rule e hr hp hknown
      exact ⟨hd, rfl, fun _ h => h, hd.sound id e hknown, fun hon T hdue => (hd.full id e hknown hon).2 T hdue.reached,
        fun _ hon hwaits => absurd hwaits (hd.full id e hknown hon).1⟩
    case mute =>
      intro rule hr hp hnone _
      exact absurd hnone (Body.derived?_ne_none (hg id rule hr) hp)
    case cut =>
      -- every path from a marked rule passes a mark at once
      exact fun _ _ _ _ hm => .cut hd fun T hT => hT.1 hm
    case walk =>
      intro rule walk hr hwalk _ hm
      have hp : ∀ target, rule.body ≠ .placeholder target := by
        intro target hb
        rw [hb] at hwalk
        cases hwalk
      have hread : ∀ q ∈ rule.body.reads g, ∀ d' : Derivation κ, d'.Reliable S ∧ d'.marked = id :: d.marked →
          Ensures (g.expectationWithin fuel q) d' (fun e d'' => ReadsFor S q d' e d'' ∧
            d''.Reliable S ∧ d''.marked = id :: d.marked) fun _ _ => True := by
        intro q _ d' hd'
        refine (ih q d' hd'.1 fun hnone => ?_).imp_ok fun e d'' h => ⟨h, h.reliable, h.marked.trans hd'.2⟩
        exact absurd (hd'.2.symm.trans hnone) (List.cons_ne_nil _ _)
      refine (Body.derived?_ensures hwalk hread ?_ ⟨hd.enter id, rfl⟩).imp ?_ fun _ _ _ => trivial
      · exact fun _ _ _ _ _ => ⟨fun _ => trivial, fun _ _ _ => trivial⟩
      · rintro e inner ⟨hderives, hinner, hmarked⟩
        exact (hderives.joins (hg id rule hr) (List.cons_ne_nil id d.marked)).reads hr hp
          (fun hnone => hstart hnone id rule .refl hr hp) hd hinner hmarked

end Rule

end Descent
