import Descent.Proofs.Body
import Descent.Proofs.Ensures
import Descent.Proofs.Run.Fuel
import Descent.Proofs.Run.Success
import Descent.Session

/-!
# The anchor of a whole input

A parse of a whole input runs a rule that was made for it: ambient whitespace and the rule, ambient whitespace and the
end of the input, one after the other, of which the first has the value. What is *meant* is plainer and needs no rules:
skip, run the rule, skip again, and see whether anything is left (`Parse.ReadsWhole`). The two agree for every rule and
policy, **value by value and state by state** (`IsAnchor.parsed_iff`).

That the rules are there when they are run is a matter of building. A grammar only ever grows, and what was a rule of it
is the same rule afterwards (`Grammar.IsPartOf`), so a rule that was added with a body keeps it.
-/

namespace Descent

variable {κ : Type}

/-! ## 1. Grammars that grow -/

/-- The rules of a grammar are the same rules of another. -/
def Grammar.IsPartOf (g g' : Grammar κ) : Prop := ∀ id rule, g.rule? id = some rule → g'.rule? id = some rule

/-- What can stand for a rule. -/
def Operand.IsRule : Operand κ → Prop
  | .rule _ | .matcher _ | .text _ => True
  | _ => False

/-- What can stand for a whitespace policy. -/
def Operand.IsPolicy (o : Operand κ) : Prop := o = .absent ∨ o.IsRule

/-- A rule with a body, whatever its label. -/
def Grammar.HasBody (g : Grammar κ) (id : RuleId) (body : Body κ) : Prop := ∃ label, g.rule? id = some ⟨label, body⟩

theorem Grammar.HasBody.lt_size {g : Grammar κ} {id : RuleId} {body : Body κ} (h : g.HasBody id body) :
    id < g.rules.size := by
  obtain ⟨label, hr⟩ := h
  exact Grammar.lt_size_of_rule? hr

namespace Grammar.IsPartOf

variable {g g' g'' : Grammar κ}

@[refl] theorem refl (g : Grammar κ) : g.IsPartOf g := fun _ _ h => h

theorem trans (h : g.IsPartOf g') (h' : g'.IsPartOf g'') : g.IsPartOf g'' :=
  fun id rule hr => h' id rule (h id rule hr)

theorem lt_size (h : g.IsPartOf g') {id : RuleId} (hid : id < g.rules.size) : id < g'.rules.size := by
  obtain ⟨rule, hr⟩ := Option.ne_none_iff_exists'.mp (Grammar.rule?_ne_none hid)
  exact Grammar.lt_size_of_rule? (h id rule hr)

theorem hasBody (h : g.IsPartOf g') {id : RuleId} {body : Body κ} (hb : g.HasBody id body) : g'.HasBody id body := by
  obtain ⟨label, hr⟩ := hb
  exact ⟨label, h id _ hr⟩

end Grammar.IsPartOf

/-- A grammar with one more rule. -/
def Grammar.push (g : Grammar κ) (label : Option String) (body : Body κ) : Grammar κ :=
  { g with rules := g.rules.push ⟨label, body⟩ }

theorem Grammar.isPartOf_push {g : Grammar κ} {label : Option String} {body : Body κ} :
    g.IsPartOf (g.push label body) := by
  intro id rule hr
  rw [rule?] at hr ⊢
  obtain ⟨hlt, rfl⟩ := Array.getElem?_eq_some_iff.mp hr
  exact Array.getElem?_push_lt hlt

theorem Grammar.rule?_push_size {g : Grammar κ} {label : Option String} {body : Body κ} :
    (g.push label body).rule? g.rules.size = some ⟨label, body⟩ :=
  Array.getElem?_push_size

theorem Grammar.size_push {g : Grammar κ} {label : Option String} {body : Body κ} :
    (g.push label body).rules.size = g.rules.size + 1 := Array.size_push _

/-- A rule of a grammar with one more rule is one of its own or the new one. -/
theorem Grammar.rule?_push_cases {g : Grammar κ} {label : Option String} {body : Body κ} {id : RuleId} {rule : Rule κ}
    (hr : (g.push label body).rule? id = some rule) :
    g.rule? id = some rule ∨ id = g.rules.size ∧ rule = ⟨label, body⟩ := by
  rcases Nat.lt_trichotomy id g.rules.size with hlt | rfl | hgt
  · obtain ⟨rule', hr'⟩ := Option.ne_none_iff_exists'.mp (rule?_ne_none hlt)
    cases (isPartOf_push id rule' hr').symm.trans hr
    exact Or.inl hr'
  · cases rule?_push_size.symm.trans hr
    exact Or.inr ⟨rfl, rfl⟩
  · have hlt := lt_size_of_rule? hr
    rw [size_push] at hlt
    exact absurd (Nat.le_of_lt_succ hlt) (Nat.not_le_of_gt hgt)

/-- A body of which a rule can be added to a grammar: one of the library, no placeholder, and with rules to refer to. -/
structure Body.Fits (g : Grammar κ) (b : Body κ) : Prop where
  library : b.IsLibrary
  refs : ∀ q ∈ b.refs, q < g.rules.size
  placeholder : ∀ target, b ≠ .placeholder target

namespace Body.Fits

variable {g : Grammar κ}

theorem token (m : Matcher κ) (f : Option (Transform κ)) : (Body.token m f).Fits g := ⟨trivial, nofun, nofun⟩

theorem skipping {inner : RuleId} (h : inner < g.rules.size) : (Body.skipping inner).Fits g :=
  ⟨trivial, List.forall_mem_singleton.mpr h, nofun⟩

theorem sequence {parts : List RuleId} (h : ∀ q ∈ parts, q < g.rules.size) : (Body.sequence parts).Fits g :=
  ⟨trivial, h, nofun⟩

theorem either {branches : List RuleId} (h : ∀ q ∈ branches, q < g.rules.size) : (Body.either branches).Fits g :=
  ⟨trivial, h, nofun⟩

theorem repeated {first attempt : RuleId} (minimum : Int) (h : first < g.rules.size) (h' : attempt < g.rules.size) :
    (Body.repeated first minimum attempt).Fits g :=
  ⟨trivial, List.forall_mem_cons.mpr ⟨h, List.forall_mem_singleton.mpr h'⟩, nofun⟩

theorem map {inner : RuleId} (h : inner < g.rules.size) (f : Transform κ) : (Body.map inner f).Fits g :=
  ⟨trivial, List.forall_mem_singleton.mpr h, nofun⟩

end Body.Fits

section Push

variable {g : Grammar κ} {body : Body κ}

theorem Grammar.IsLibrary.push (hg : g.IsLibrary) (hbody : body.IsLibrary) (label : Option String) :
    (g.push label body).IsLibrary := by
  intro id rule hr
  rcases rule?_push_cases hr with hr | ⟨-, rfl⟩
  · exact hg id rule hr
  · exact hbody

theorem Grammar.IsClosed.push (hg : g.IsClosed) (hrefs : ∀ q ∈ body.refs, q < g.rules.size) (label : Option String) :
    (g.push label body).IsClosed := by
  intro id rule hr q hq
  rw [size_push]
  rcases rule?_push_cases hr with hr | ⟨-, rfl⟩
  · exact Nat.lt_succ_of_lt (hg id rule hr q hq)
  · exact Nat.lt_succ_of_lt (hrefs q hq)

/-- A rule that is no placeholder stands for no other. -/
theorem Grammar.IsGuarded.push (hg : g.IsGuarded) (hbody : ∀ target, body ≠ .placeholder target)
    (label : Option String) : (g.push label body).IsGuarded := by
  have handsOn : ∀ p q, (g.push label body).HandsOn p q → g.HandsOn p q := by
    rintro p q ⟨label', hr⟩
    rcases rule?_push_cases hr with hr | ⟨-, hrule⟩
    · exact ⟨label', hr⟩
    · exact absurd (congrArg Rule.body hrule).symm (hbody (some q))
  exact fun id hcircle => hg id (Relation.TransGen.mono handsOn id id hcircle)

/-- A grammar to which such rules have been added. -/
structure Grammar.Extends (g g' : Grammar κ) : Prop where
  part : g.IsPartOf g'
  library : g.IsLibrary → g'.IsLibrary
  closed : g.IsClosed → g'.IsClosed
  guarded : g.IsGuarded → g'.IsGuarded

theorem Grammar.Extends.trans {g' g'' : Grammar κ} (h : g.Extends g') (h' : g'.Extends g'') : g.Extends g'' where
  part := h.part.trans h'.part
  library hg := h'.library (h.library hg)
  closed hg := h'.closed (h.closed hg)
  guarded hg := h'.guarded (h.guarded hg)

theorem Body.Fits.extends_push (h : body.Fits g) (label : Option String) : g.Extends (g.push label body) where
  part := Grammar.isPartOf_push
  library hg := hg.push h.library label
  closed hg := hg.push h.refs label
  guarded hg := hg.push h.placeholder label

end Push

namespace Build

variable {g : Grammar κ} {E : Fault → Grammar κ → Prop}

/-- A rule that is added is there, and so are those before it. -/
theorem ensures_add {label : Option String} {body : Body κ} {Q : RuleId → Grammar κ → Prop}
    (h : ∀ id g', g.IsPartOf g' → g'.HasBody id body → Q id g') : Ensures (add label body) g Q E :=
  h g.rules.size (g.push label body) Grammar.isPartOf_push ⟨label, Grammar.rule?_push_size⟩

/-- A rule that wraps another one takes over its label, whatever that is. -/
theorem ensures_map {inner : RuleId} {f : Transform κ} {Q : RuleId → Grammar κ → Prop}
    (h : ∀ id g', g.IsPartOf g' → g'.HasBody id (.map inner f) → Q id g') : Ensures (map inner f) g Q E :=
  show Ensures (add (g.label inner) (.map inner f)) g Q E from ensures_add h

variable [CustomMatcher κ]

theorem ensures_skipping {inner : RuleId} {Q : RuleId → Grammar κ → Prop}
    (h : ∀ id g', g.IsPartOf g' → g'.HasBody id (.skipping inner) → Q id g') :
    Ensures (skipping (.rule inner)) g Q E :=
  show Ensures (add (g.label inner) (.skipping inner)) g Q E from ensures_add h

/-- A rule is made of whatever can stand for one. -/
theorem asRule_ensures (o : Operand κ) (g : Grammar κ) :
    Ensures (asRule o) g (fun top g' => g.IsPartOf g' ∧ ∀ id, o = .rule id → top = id) fun _ _ => ¬ o.IsRule := by
  cases o with
  | rule id => exact ⟨.refl g, fun _ h => Operand.rule.inj h⟩
  | matcher m => exact ensures_add fun _ _ hg' _ => ⟨hg', fun _ h => nomatch h⟩
  | text text => exact ensures_add fun _ _ hg' _ => ⟨hg', fun _ h => nomatch h⟩
  | _ => exact id

/-- A policy is made of whatever can stand for one. -/
theorem policy_ensures (o : Operand κ) (g : Grammar κ) :
    Ensures (policy o) g (fun policy g' => g.IsPartOf g' ∧ ∀ id, o = .rule id → policy = some id)
      fun _ _ => ¬ o.IsPolicy := by
  have ignored {m : Matcher κ} : Ensures (do return some (← ignore (.matcher m))) g
      (fun _ g' => g.IsPartOf g') fun _ _ => False := by
    rw [ensures_bind]
    exact ensures_add fun _ _ hg' _ => hg'
  cases o with
  | absent => exact ⟨.refl g, fun _ h => nomatch h⟩
  | rule id => exact ⟨.refl g, fun _ h => congrArg some (Operand.rule.inj h)⟩
  | matcher m => cases m <;> exact ignored.imp (fun _ _ h => ⟨h, fun _ h => nomatch h⟩) fun _ _ h => h.elim
  | text text =>
    exact (ignored (m := .literal text true)).imp (fun _ _ h => ⟨h, fun _ h => nomatch h⟩) fun _ _ h => h.elim
  | other kind => exact fun h => h.elim (fun h => nomatch h) id

end Build

variable [CustomMatcher κ]

/-- A rule that runs another one between ambient whitespace and the end of the input, and has its value. -/
def Grammar.IsAnchor (g : Grammar κ) (top anchor : RuleId) : Prop :=
  ∃ body token last all, g.HasBody body (.skipping top) ∧ g.HasBody token (.token .endOfInput none) ∧
    g.HasBody last (.skipping token) ∧ g.HasBody all (.sequence [body, last]) ∧
    g.HasBody anchor (.map all (Value.element 0))

/-- Anchoring a rule builds an anchor for it, and changes no rule. -/
theorem Session.anchored_ensures (top : RuleId) (g : Grammar κ) {E : Fault → Grammar κ → Prop} :
    Ensures (Session.anchored top) g (fun anchor g' => g.IsPartOf g' ∧ g'.IsAnchor top anchor) E := by
  rw [Session.anchored, ensures_bind]
  refine Build.ensures_skipping fun body g₁ h₁ hbody => ?_
  rw [ensures_bind]
  refine Build.ensures_add fun token g₂ h₂ htoken => ?_
  rw [ensures_bind]
  refine Build.ensures_skipping fun last g₃ h₃ hlast => ?_
  rw [ensures_bind]
  refine Build.ensures_add fun all g₄ h₄ hall => ?_
  refine Build.ensures_map fun anchor g₅ h₅ hanchor => ?_
  refine ⟨h₁.trans (h₂.trans (h₃.trans (h₄.trans h₅))), body, token, last, all, ?_, ?_, ?_, h₅.hasBody hall, hanchor⟩
  · exact (h₂.trans (h₃.trans (h₄.trans h₅))).hasBody hbody
  · exact (h₃.trans (h₄.trans h₅)).hasBody htoken
  · exact (h₄.trans h₅).hasBody hlast

/-! ## 2. What an anchor reads -/

/-- Ambient whitespace, a rule that succeeds, ambient whitespace, and nothing left. -/
def Parse.ReadsWhole (run : Runner κ) (top : RuleId) (v : View) (s : ParseState κ) (x : Value κ) (t : ParseState κ) :
    Prop :=
  ∃ start s₁ rest s₂ last, Parse.skip run v s = .ok start s₁ ∧ run top start s₁ = .ok (.parsed x rest) s₂ ∧
    Parse.skip run rest s₂ = .ok last t ∧ last.isEmpty = true

section Run

variable [DecidableEq κ] {g : Grammar κ} {fuel : Nat} {v w : View} {x : Value κ} {s t : ParseState κ}

theorem Grammar.HasBody.parsed_iff {id : RuleId} {body : Body κ} (h : g.HasBody id body)
    (hp : ∀ target, body ≠ .placeholder target) :
    g.parse (fuel + 1) id v s = .ok (.parsed x w) t ↔ body.run g (g.parse fuel) v s = .ok (.parsed x w) t := by
  obtain ⟨label, hr⟩ := h
  exact Grammar.parse_parsed_iff hr hp

/-- The token of the end of the input succeeds where nothing is left, and changes nothing. -/
theorem Grammar.HasBody.endOfInput_parsed_iff {token : RuleId} (h : g.HasBody token (.token .endOfInput none)) :
    (∃ x w, g.parse (fuel + 1) token v s = .ok (.parsed x w) t) ↔ v.isEmpty = true ∧ s = t := by
  simp only [h.parsed_iff (by simp), Body.run, Matcher.take_parsed_iff, Matcher.endOfInput_split_iff, pure_eq_ok]
  constructor
  · rintro ⟨_, _, _, ⟨hv, -⟩, -, rfl⟩
    exact ⟨hv, rfl⟩
  · rintro ⟨hv, rfl⟩
    obtain ⟨⟨matched, rest⟩, hsplit⟩ : ∃ halves, v.split v.start = .ok halves := by
      rw [View.split, dif_pos ⟨Int.le_refl _, by exact_mod_cast v.start_le_stop⟩]
      exact ⟨_, rfl⟩
    exact ⟨_, rest, matched, ⟨hv, hsplit⟩, rfl, rfl⟩

/-- **An anchor reads whole windows.** -/
theorem Grammar.IsAnchor.parsed_iff {top anchor : RuleId} (h : g.IsAnchor top anchor) :
    (∃ w, g.parse (fuel + 4) anchor v s = .ok (.parsed x w) t) ↔ Parse.ReadsWhole (g.parse (fuel + 1)) top v s x t := by
  obtain ⟨body, token, last, all, hbody, htoken, hlast, hall, hanchor⟩ := h
  have whole {w : View} : g.parse (fuel + 4) anchor v s = .ok (.parsed x w) t ↔
      ∃ y, g.parse (fuel + 3) all v s = .ok (.parsed y w) t ∧ Value.element 0 y = .ok x :=
    (hanchor.parsed_iff (by simp)).trans Body.run_map_iff
  have parts {y : Value κ} {w : View} : g.parse (fuel + 3) all v s = .ok (.parsed y w) t ↔
      ∃ a u s', g.parse (fuel + 2) body v s = .ok (.parsed a u) s' ∧
        ∃ b u' s'', g.parse (fuel + 2) last u s' = .ok (.parsed b u') s'' ∧ .tuple [a, b] = y ∧ u' = w ∧ s'' = t := by
    rw [hall.parsed_iff (by simp), Body.run]
    simp only [runSequence_cons_iff, runSequence_nil_iff, List.nil_append, List.cons_append]
  have skipped {id inner : RuleId} (hid : g.HasBody id (.skipping inner)) {y : Value κ} {v w : View}
      {s t : ParseState κ} : g.parse (fuel + 2) id v s = .ok (.parsed y w) t ↔
        ∃ u s', Parse.skip (g.parse (fuel + 1)) v s = .ok u s' ∧ g.parse (fuel + 1) inner u s' = .ok (.parsed y w) t :=
    (hid.parsed_iff (by simp)).trans Body.run_skipping_iff
  constructor
  · rintro ⟨w, hw⟩
    obtain ⟨_, hall, hx⟩ := whole.mp hw
    obtain ⟨a, u, s', ha, b, _, _, hb, rfl, rfl, rfl⟩ := parts.mp hall
    cases hx
    obtain ⟨start, s₁, hstart, htop⟩ := (skipped hbody).mp ha
    obtain ⟨rest, s₂, hrest, hend⟩ := (skipped hlast).mp hb
    obtain ⟨hempty, rfl⟩ := htoken.endOfInput_parsed_iff.mp ⟨_, _, hend⟩
    exact ⟨start, s₁, u, s', rest, hstart, htop, hrest, hempty⟩
  · rintro ⟨start, s₁, u, s', rest, hstart, htop, hrest, hempty⟩
    obtain ⟨b, w, hend⟩ := htoken.endOfInput_parsed_iff.mpr ⟨hempty, rfl⟩
    have ha := (skipped hbody).mpr ⟨start, s₁, hstart, htop⟩
    have hb := (skipped hlast).mpr ⟨rest, t, hrest, hend⟩
    exact ⟨w, whole.mpr ⟨_, parts.mpr ⟨x, u, s', ha, b, w, t, hb, rfl, rfl, rfl⟩, rfl⟩⟩

/-- What is read whole is read whole with more fuel. -/
theorem Parse.ReadsWhole.more {fuel' : Nat} {top : RuleId} (hle : fuel ≤ fuel')
    (h : Parse.ReadsWhole (g.parse fuel) top v s x t) : Parse.ReadsWhole (g.parse fuel') top v s x t := by
  obtain ⟨start, s₁, rest, s₂, last, hstart, htop, hrest, hempty⟩ := h
  have skip (v : View) : (Parse.skip (g.parse fuel) v).ExtendedBy (Parse.skip (g.parse fuel') v) := by
    rw [← exec_skip (g := g), ← exec_skip (g := g)]
    exact Plan.exec_extendedBy (fun id v => g.parse_extendedBy hle id v) _
  exact ⟨start, s₁, rest, s₂, last, (skip v).ok hstart, (g.parse_extendedBy hle top start).ok htop,
    (skip rest).ok hrest, hempty⟩

end Run

end Descent
