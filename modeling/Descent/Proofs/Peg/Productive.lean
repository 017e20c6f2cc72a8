import Descent.Proofs.Matcher.Slice
import Descent.Proofs.Peg.Inert
import Descent.Proofs.WholeInput.Anchor

/-!
# Guarded recursion ends

A rule that refers back to itself may run for ever. It does not if it has moved on by then: each use of a placeholder
stands in a sequence of its own definition, behind a part that cannot succeed without consuming something. Grammars in
which recursion is guarded in this way are *productive* (`Grammar.Productive`), and **a rule of such a grammar comes to
an end** on every window (`Grammar.guarded_recursion_ends`), no matter what is repeated in it, what may be left out and
what may succeed and stand still.

`Grammar.Productive` has two lists of placeholders: those whose definition was entered at the window where one stands,
and those whose definition was entered before something was consumed. Only the latter may be used. They change places
in a sequence, behind a part that consumes. The proof gives a placeholder its claim *later*: the rule that it stands
for may be assumed to end, but on shorter windows only, and a part behind one that consumes has a shorter window
(`Productive.endsWithin`). Repetitions need no such guard, since a round that stands still is the last one.
-/

namespace Descent

variable {κ : Type}

/-! ## 1. What cannot succeed without consuming -/

/-- A matcher that is never content with nothing, by the text that it takes. -/
def Matcher.NeverEmpty (m : Matcher κ) : Prop := ∀ chars, m.width? chars ≠ .ok (some 0)

namespace Matcher.NeverEmpty

theorem literal {text : String} (h : text ≠ "") : (Matcher.literal text true : Matcher κ).NeverEmpty := by
  intro chars hw
  simp only [width?, literalWidth?, Except.ok.injEq] at hw
  split at hw
  · exact h (by simpa using hw)
  · cases hw

theorem charClass (k : CharClass) : (Matcher.charClass k : Matcher κ).NeverEmpty := by
  intro chars hw
  cases (CharClass.singleWidth?_eq_some_iff.mp (Except.ok.inj hw)).1

theorem many {m : Matcher κ} (h : m.NeverEmpty) : (Matcher.many m).NeverEmpty := by
  have repeated {chars : List Char} : (do
      let n ← runWidth m.width? (chars.length + 1) chars
      return if n = 0 then none else some n : Except Fault (Option Nat)) ≠ .ok (some 0) := by
    intro hw
    obtain ⟨n, -, hw⟩ := except_bind_eq_ok.mp hw
    by_cases hn : n = 0
    · rw [if_pos hn] at hw
      cases hw
    · rw [if_neg hn] at hw
      cases hw
      exact hn rfl
  cases m with
  | charClass k =>
    intro chars hw
    exact absurd (CharClass.runWidth?_eq_some_iff.mp (Except.ok.inj hw)).1 (Nat.lt_irrefl 0)
  | optional inner => exact h
  | many inner => exact h
  | _ => exact fun chars => repeated

end Matcher.NeverEmpty

variable [CustomMatcher κ]

/-- A matcher that moves on wherever it matches. -/
def Matcher.IsConsuming (m : Matcher κ) : Prop :=
  ∀ v matched rest, m.split v = .ok (some (matched, rest)) → v.start < rest.start

theorem Matcher.NeverEmpty.isConsuming {m : Matcher κ} (h : m.NeverEmpty) (hm : m.custom? = none) :
    m.IsConsuming := by
  intro v matched rest hsplit
  rw [Matcher.split_eq_width hm] at hsplit
  obtain ⟨w, hw, hsplit⟩ := except_bind_eq_ok.mp hsplit
  cases w with
  | none => cases hsplit
  | some n =>
    obtain ⟨halves, hcut, hhalves⟩ := except_bind_eq_ok.mp hsplit
    obtain ⟨offset, hle, hle', hoffset, rfl⟩ := View.split_eq_ok_iff.mp hcut
    cases hhalves
    have hn : n ≠ 0 := by
      rintro rfl
      exact h _ hw
    show v.start < offset
    omega

namespace Grammar

/-- A rule that cannot succeed without consuming. -/
inductive IsConsuming (g : Grammar κ) : RuleId → Prop
  | token {id m f} (hb : g.HasBody id (.token m f)) (hm : m.IsConsuming) : IsConsuming g id
  | capture {id m} (hb : g.HasBody id (.capture m)) (hm : m.IsConsuming) : IsConsuming g id
  | oneOf {id ms} (hb : g.HasBody id (.oneOf ms)) (hms : ∀ m ∈ ms, m.IsConsuming) : IsConsuming g id
  | sequence {id parts part} (hb : g.HasBody id (.sequence parts)) (hpart : part ∈ parts) (h : IsConsuming g part) :
    IsConsuming g id
  | either {id branches} (hb : g.HasBody id (.either branches)) (h : ∀ branch ∈ branches, IsConsuming g branch) :
    IsConsuming g id
  | repeated {id first minimum attempt} (hb : g.HasBody id (.repeated first minimum attempt)) (hminimum : 0 < minimum)
      (h : IsConsuming g first) : IsConsuming g id
  | map {id inner f} (hb : g.HasBody id (.map inner f)) (h : IsConsuming g inner) : IsConsuming g id
  | skipping {id inner} (hb : g.HasBody id (.skipping inner)) (h : IsConsuming g inner) : IsConsuming g id
  | skippingAfter {id inner} (hb : g.HasBody id (.skippingAfter inner)) (h : IsConsuming g inner) : IsConsuming g id
  | within {id inner policy} (hb : g.HasBody id (.within inner policy)) (h : IsConsuming g inner) : IsConsuming g id
  | placeholder {id target} (hb : g.HandsOn id target) (h : IsConsuming g target) : IsConsuming g id

variable {g : Grammar κ} {P : Option RuleId} {v w : View} {x : Value κ}

/-- Where a rule ends without a fault, its body does. -/
theorem HasBody.gives {id : RuleId} {b : Body κ} (hb : g.HasBody id b) {o : Ending κ}
    (h : g.Gives P (.rule id) v (.ok o)) : g.Gives P (.body b) v (.ok o) := by
  obtain ⟨label, hr⟩ := hb
  cases h with
  | rule hr' h =>
    cases hr.symm.trans hr'
    exact h

end Grammar

theorem Matcher.IsConsuming.matched {m : Matcher κ} (hm : m.IsConsuming) {v w : View} {x : Value κ}
    {value : View → Except Fault (Value κ)} (h : m.matched v value = .ok (.parsed x w)) : v.start < w.start := by
  obtain ⟨halves, hsplit, h⟩ := except_bind_eq_ok.mp h
  rcases halves with - | ⟨matched, rest⟩
  · cases h
  · obtain ⟨x', -, h⟩ := except_bind_eq_ok.mp h
    cases h
    exact hm v matched _ hsplit

theorem lt_of_firstMatch {ms : List (Matcher κ)} (hms : ∀ m ∈ ms, m.IsConsuming) {v w : View} {x : Value κ}
    (h : firstMatch v ms = .ok (.parsed x w)) : v.start < w.start := by
  induction ms with
  | nil => cases h
  | cons m ms ih =>
    obtain ⟨halves, hsplit, h⟩ := except_bind_eq_ok.mp h
    rcases halves with - | ⟨matched, rest⟩
    · exact ih (fun m hm => hms m (List.mem_cons_of_mem _ hm)) h
    · cases h
      exact hms m List.mem_cons_self v matched _ hsplit

namespace Grammar

variable {g : Grammar κ} {P : Option RuleId} {v w : View} {x : Value κ}

/-- Parts in a row give a tuple, and move on if one of them does. -/
theorem Gives.of_parts {ids : List RuleId} {values : List (Value κ)}
    (h : g.Gives P (.parts ids values) v (.ok (.parsed x w))) :
    (∃ values', x = .tuple values') ∧ v.start ≤ w.start ∧
      ∀ part ∈ ids, (∀ {v w x}, g.Gives P (.rule part) v (.ok (.parsed x w)) → v.start < w.start) →
        v.start < w.start := by
  induction ids generalizing values v with
  | nil =>
    cases h with
    | partsNil => exact ⟨⟨values, rfl⟩, Nat.le_refl _, fun _ hpart => nomatch hpart⟩
  | cons first ids ih =>
    cases h with
    | partsStop head hy => exact absurd ⟨_, _, rfl⟩ hy
    | @partsCons _ _ _ _ _ _ u _ head tail =>
      have hle : v.start ≤ u.start := (head.tail trivial _ rfl).2.2
      obtain ⟨htuple, hle', hlt⟩ := ih tail
      refine ⟨htuple, Nat.le_trans hle hle', fun part hpart hmoves => ?_⟩
      rcases List.mem_cons.mp hpart with rfl | hpart
      · exact Nat.lt_of_lt_of_le (hmoves head) hle'
      · exact Nat.lt_of_le_of_lt hle (hlt part hpart hmoves)

/-- What a choice gives, one of its branches gives. -/
theorem Gives.of_branches {ids : List RuleId} {last : View}
    (h : g.Gives P (.branches ids last) v (.ok (.parsed x w))) :
    ∃ branch ∈ ids, g.Gives P (.rule branch) v (.ok (.parsed x w)) := by
  induction ids generalizing last with
  | nil => cases h
  | cons branch ids ih =>
    cases h with
    | branchesStop head hy => exact ⟨branch, List.mem_cons_self, head⟩
    | branchesNext head tail =>
      obtain ⟨branch', hmem, h⟩ := ih tail
      exact ⟨branch', List.mem_cons_of_mem _ hmem, h⟩

/-- A repetition that needs a round has a first one, and goes on from where that one has moved to. -/
theorem Gives.of_rounds {attempt : RuleId} {minimum : Int} (hminimum : 0 < minimum) {latest : Ending κ}
    (h : g.Gives P (.rounds attempt minimum [] latest) v (.ok (.parsed x w))) :
    ∃ x' u, latest = .parsed x' u ∧ (v.start < u.start → u.start ≤ w.start) := by
  generalize hy : (.ok (.parsed x w) : Verdict κ) = y at h
  cases h with
  | roundsFailed =>
    rw [Ending.closing, if_pos (by simpa using hminimum)] at hy
    cases hy
  | roundsStill hu => exact ⟨_, _, rfl, fun hlt => absurd hlt (by omega)⟩
  | roundsNext hu h rounds =>
    cases hy
    exact ⟨_, _, rfl, fun _ => (rounds.tail (h.tail trivial _ rfl) _ rfl).2.2⟩
  | roundsFault hu h => cases hy

/-- **What is consuming moves on**, under any policy. -/
theorem IsConsuming.start_lt {id : RuleId} (h : g.IsConsuming id) {P : Option RuleId} {v w : View} {x : Value κ}
    (hgives : g.Gives P (.rule id) v (.ok (.parsed x w))) : v.start < w.start := by
  induction h generalizing P v w x with
  | @token _ m f hb hm =>
    cases hb.gives hgives with
    | alone ha => cases f <;> exact hm.matched (Option.some.inj ha)
  | capture hb hm =>
    cases hb.gives hgives with
    | alone ha => exact hm.matched (Option.some.inj ha)
  | oneOf hb hms =>
    cases hb.gives hgives with
    | alone ha => exact lt_of_firstMatch hms (Option.some.inj ha)
  | sequence hb hpart h ih =>
    cases hb.gives hgives with
    | sequence h => exact h.of_parts.2.2 _ hpart ih
    | alone ha => cases ha
  | @either _ branches hb h ih =>
    cases hb.gives hgives with
    | alone ha => cases ha
    | either hbranches =>
      obtain ⟨branch, hmem, hbranch⟩ := hbranches.of_branches
      exact ih branch hmem hbranch
  | @repeated _ _ minimum _ hb hminimum h ih =>
    cases hb.gives hgives with
    | alone ha => cases ha
    | repeated hfirst hrounds =>
      obtain ⟨x', u, rfl, hle⟩ := hrounds.of_rounds hminimum
      have hlt : v.start < u.start := ih hfirst
      exact Nat.lt_of_lt_of_le hlt (hle hlt)
  | map hb h ih =>
    cases hb.gives hgives with
    | map h hf => exact ih h
    | mapStop h hy => exact absurd ⟨_, _, rfl⟩ hy
    | alone ha => cases ha
  | skipping hb h ih =>
    cases hb.gives hgives with
    | skipping hs h => exact Nat.lt_of_le_of_lt (hs.tail trivial _ rfl).2.2 (ih h)
    | alone ha => cases ha
  | skippingAfter hb h ih =>
    cases hb.gives hgives with
    | skippingAfter h hs => exact Nat.lt_of_lt_of_le (ih h) (hs.tail trivial _ rfl).2.2
    | skippingAfterStop h hy => exact absurd ⟨_, _, rfl⟩ hy
    | alone ha => cases ha
  | within hb h ih =>
    cases hb.gives hgives with
    | within h => exact ih h
    | alone ha => cases ha
  | placeholder hb h ih =>
    cases HasBody.gives hb hgives with
    | target h => exact ih h
    | alone ha => cases ha

/-! ## 2. Productive rules -/

/-- A policy that is made from a matcher, or none. -/
def IsMatcherPolicy (g : Grammar κ) (policy : Option RuleId) : Prop :=
  ∀ p, policy = some p → ∃ m f, g.HasBody p (.token m f)

/-- A rule in which recursion is guarded, where the definitions of the placeholders in `pending` were entered without
anything having been consumed since, and those of the placeholders in `ready` were entered before that. -/
inductive Productive (g : Grammar κ) : List RuleId → List RuleId → RuleId → Prop
  /-- a use of a placeholder inside its own definition -/
  | use {pending ready k} (hk : k ∈ ready) : Productive g pending ready k
  /-- a use of a placeholder elsewhere, which is a use of its definition -/
  | outer {pending ready k target} (hk : g.HandsOn k target) (h : Productive g pending ready target) :
    Productive g pending ready k
  /-- the definition of a placeholder -/
  | definition {pending ready k target} (hk : g.HandsOn k target) (h : Productive g (k :: pending) ready target) :
    Productive g pending ready target
  /-- a sequence with a part that consumes: behind it all placeholders may be used -/
  | behind {pending ready id before part after} (hb : g.HasBody id (.sequence (before ++ part :: after)))
      (hpart : g.IsConsuming part) (hbefore : ∀ q ∈ before ++ [part], Productive g pending ready q)
      (hafter : ∀ q ∈ after, Productive g [] (pending ++ ready) q) : Productive g pending ready id
  /-- any other rule, whose parts are as it is -/
  | parts {pending ready id b} (hb : g.HasBody id b) (hplaceholder : ∀ target, b ≠ .placeholder target)
      (hwithin : ∀ inner policy, b = .within inner policy → g.IsMatcherPolicy policy)
      (h : ∀ q ∈ b.refs, Productive g pending ready q) : Productive g pending ready id

/-! ## 3. Tasks that end -/

/-- A transform or a matcher of the grammar meets a fault. -/
inductive Throws (g : Grammar κ) (e : Fault) : Prop
  | transform {id rule f x} (hr : g.rule? id = some rule) (hf : rule.body.transform? = some f) (h : f x = .error e) :
    Throws g e
  | matcher {id rule m v} (hr : g.rule? id = some rule) (hm : m ∈ rule.body.leaves) (h : m.split v = .error e) :
    Throws g e

/-- A task comes to a verdict; if that is a fault, then it is one of a transform or a matcher. -/
def Ends (g : Grammar κ) (P : Option RuleId) (v : View) (t : Task κ) : Prop :=
  ∃ y, g.Gives P t v y ∧ ∀ e, y = .error e → g.Throws e

/-- A rule comes to a verdict on all windows up to some length. -/
def EndsWithin (g : Grammar κ) (n : Nat) (id : RuleId) : Prop :=
  ∀ P, g.IsMatcherPolicy P → ∀ v : View, v.length ≤ n → g.Ends P v (.rule id)

theorem EndsWithin.mono {id : RuleId} {m n : Nat} (h : g.EndsWithin n id) (hle : m ≤ n) : g.EndsWithin m id :=
  fun P hP v hv => h P hP v (Nat.le_trans hv hle)

namespace Ends

variable {t : Task κ}

theorem of_ok {o : Ending κ} (h : g.Gives P t v (.ok o)) : g.Ends P v t := ⟨_, h, fun _ he => nomatch he⟩

theorem of_error {e : Fault} (h : g.Gives P t v (.error e)) (he : g.Throws e) : g.Ends P v t := by
  refine ⟨_, h, ?_⟩
  rintro _ ⟨⟩
  exact he

/-- A task that goes on as another one ends as that one does. -/
theorem imp {t' : Task κ} {P' : Option RuleId} {w : View} (h : g.Ends P' w t')
    (hgives : ∀ y, g.Gives P' t' w y → g.Gives P t v y) : g.Ends P v t := by
  obtain ⟨y, hy, hthrows⟩ := h
  exact ⟨y, hgives y hy, hthrows⟩

/-- The three ways to end. -/
theorem split (h : g.Ends P v t) : (∃ e, g.Gives P t v (.error e) ∧ g.Throws e) ∨
    (∃ w, g.Gives P t v (.ok (.failed w))) ∨ ∃ x w, g.Gives P t v (.ok (.parsed x w)) := by
  obtain ⟨y, hy, hthrows⟩ := h
  match y, hy, hthrows with
  | .error e, hy, hthrows => exact Or.inl ⟨e, hy, hthrows e rfl⟩
  | .ok (.failed w), hy, _ => exact Or.inr (Or.inl ⟨w, hy⟩)
  | .ok (.parsed x w), hy, _ => exact Or.inr (Or.inr ⟨x, w, hy⟩)

end Ends

theorem throws_of_matched {id : RuleId} {rule : Rule κ} {m : Matcher κ} (hr : g.rule? id = some rule)
    (hm : m ∈ rule.body.leaves) {value : View → Except Fault (Value κ)}
    (hvalue : ∀ text e, value text = .error e → g.Throws e) {e : Fault} (h : m.matched v value = .error e) :
    g.Throws e := by
  rcases except_bind_eq_error.mp h with hsplit | ⟨halves, -, h⟩
  · exact .matcher hr hm hsplit
  · rcases halves with - | ⟨matched, rest⟩
    · cases h
    · rcases except_bind_eq_error.mp h with hv | ⟨x, -, h⟩
      · exact hvalue matched e hv
      · cases h

theorem throws_of_firstMatch {id : RuleId} {rule : Rule κ} (hr : g.rule? id = some rule) {ms : List (Matcher κ)}
    (hms : ∀ m ∈ ms, m ∈ rule.body.leaves) {e : Fault} (h : firstMatch v ms = .error e) : g.Throws e := by
  induction ms with
  | nil => cases h
  | cons m ms ih =>
    rcases except_bind_eq_error.mp h with hsplit | ⟨halves, -, h⟩
    · exact .matcher hr (hms m List.mem_cons_self) hsplit
    · rcases halves with - | ⟨matched, rest⟩
      · exact ih (fun m hm => hms m (List.mem_cons_of_mem _ hm)) h
      · cases h

/-- A body of the library that needs no other rule ends. -/
theorem ends_of_alone {id : RuleId} {rule : Rule κ} (hr : g.rule? id = some rule) (hlib : rule.body.IsLibrary)
    {y : Verdict κ} (hy : rule.body.alone? v = some y) : g.Ends P v (.body rule.body) := by
  refine ⟨y, .alone hy, ?_⟩
  rintro e rfl
  obtain ⟨label, b⟩ := rule
  cases b with
  | token m f =>
    cases f with
    | none => exact throws_of_matched hr List.mem_cons_self (fun _ _ h => by cases h) (Option.some.inj hy)
    | some f =>
      exact throws_of_matched hr List.mem_cons_self (fun _ _ h => .transform hr rfl h) (Option.some.inj hy)
  | capture m => exact throws_of_matched hr List.mem_cons_self (fun _ _ h => by cases h) (Option.some.inj hy)
  | oneOf ms => exact throws_of_firstMatch hr (fun _ hm => hm) (Option.some.inj hy)
  | handWritten answer derivative => exact hlib.elim
  | _ => cases hy

/-- Skipping ends: a policy that is made from a matcher does not skip by itself. -/
theorem ends_skip (hg : g.IsLibrary) (hP : g.IsMatcherPolicy P) : g.Ends P v .skip := by
  cases P with
  | none => exact .of_ok .skipNothing
  | some p =>
    obtain ⟨m, f, label, hr⟩ := hP p rfl
    obtain ⟨y, hy⟩ : ∃ y, (Body.token m f).alone? v = some y := by cases f <;> exact ⟨_, rfl⟩
    have ends : g.Ends (some p) v (.rule p) := (ends_of_alone hr (hg p _ hr) hy).imp fun _ => .rule hr
    rcases ends.split with ⟨e, hp, he⟩ | ⟨w, hp⟩ | ⟨x, w, hp⟩
    · exact .of_error (.skipFault hp) he
    · exact .of_ok (.skipFailed hp)
    · exact .of_ok (.skipParsed hp)

/-- Skipping leaves a tail or meets a fault; it does not fail. -/
theorem split_skip (hg : g.IsLibrary) (hP : g.IsMatcherPolicy P) (v : View) :
    (∃ e, g.Gives P .skip v (.error e) ∧ g.Throws e) ∨ ∃ x w, g.Gives P .skip v (.ok (.parsed x w)) ∧ w.TailOf v := by
  rcases (ends_skip (v := v) hg hP).split with h | ⟨w, hs⟩ | ⟨x, w, hs⟩
  · exact Or.inl h
  · cases hs
  · exact Or.inr ⟨x, w, hs, hs.tail trivial _ rfl⟩

section Bodies

variable {n : Nat} (hP : g.IsMatcherPolicy P) (hv : v.length ≤ n)

include hP hv

theorem ends_parts {ids : List RuleId} (h : ∀ id ∈ ids, g.EndsWithin n id) (values : List (Value κ)) :
    g.Ends P v (.parts ids values) := by
  induction ids generalizing v values with
  | nil => exact .of_ok .partsNil
  | cons part ids ih =>
    rcases (h part List.mem_cons_self P hP v hv).split with ⟨e, hpart, he⟩ | ⟨w, hpart⟩ | ⟨x, w, hpart⟩
    · exact .of_error (.partsStop hpart nofun) he
    · exact .of_ok (.partsStop hpart nofun)
    · have htail : w.TailOf v := hpart.tail trivial _ rfl
      have rest := ih (Nat.le_trans htail.length_le hv) (fun id hid => h id (List.mem_cons_of_mem _ hid))
        (values ++ [x])
      exact rest.imp fun _ => .partsCons hpart

theorem ends_branches {ids : List RuleId} (h : ∀ id ∈ ids, g.EndsWithin n id) (last : View) :
    g.Ends P v (.branches ids last) := by
  induction ids generalizing last with
  | nil => exact .of_ok .branchesNil
  | cons branch ids ih =>
    rcases (h branch List.mem_cons_self P hP v hv).split with ⟨e, hbranch, he⟩ | ⟨w, hbranch⟩ | ⟨x, w, hbranch⟩
    · exact .of_error (.branchesStop hbranch nofun) he
    · exact (ih (fun id hid => h id (List.mem_cons_of_mem _ hid)) w).imp fun _ => .branchesNext hbranch
    · exact .of_ok (.branchesStop hbranch nofun)

/-- The rounds of a repetition end: each but the last one leaves a shorter window. -/
theorem ends_rounds {attempt : RuleId} (h : g.EndsWithin n attempt) (minimum : Int) (values : List (Value κ))
    {latest : Ending κ} (hlatest : latest.rest.TailOf v) : g.Ends P v (.rounds attempt minimum values latest) := by
  induction hlength : v.length using Nat.strong_induction_on generalizing v values latest with
  | _ k ih =>
    cases latest with
    | failed w => exact .of_ok .roundsFailed
    | parsed x w =>
      by_cases hw : w.start = v.start
      · exact .of_ok (.roundsStill hw)
      · have hlt : w.length < v.length := View.TailOf.length_lt hlatest hw
        have hwn : w.length ≤ n := Nat.le_trans (Nat.le_of_lt hlt) hv
        have next {o : Ending κ} (hattempt : g.Gives P (.rule attempt) w (.ok o)) :
            g.Ends P v (.rounds attempt minimum values (.parsed x w)) :=
          (ih w.length (hlength ▸ hlt) hwn (values ++ [x]) (hattempt.tail trivial o rfl) rfl).imp
            fun _ => .roundsNext hw hattempt
        rcases (h P hP w hwn).split with ⟨e, hattempt, he⟩ | ⟨u, hattempt⟩ | ⟨y, u, hattempt⟩
        · exact .of_error (.roundsFault hw hattempt) he
        · exact next hattempt
        · exact next hattempt

/-- A body of the library ends if the rules that it refers to do. -/
theorem ends_body (hg : g.IsLibrary) {id : RuleId} {rule : Rule κ} (hr : g.rule? id = some rule)
    (hplaceholder : ∀ target, rule.body ≠ .placeholder target)
    (hwithin : ∀ inner policy, rule.body = .within inner policy → g.IsMatcherPolicy policy)
    (h : ∀ q ∈ rule.body.refs, g.EndsWithin n q) : g.Ends P v (.body rule.body) := by
  have alone {y : Verdict κ} (hy : rule.body.alone? v = some y) : g.Ends P v (.body rule.body) :=
    ends_of_alone hr (hg id rule hr) hy
  obtain ⟨label, b⟩ := rule
  cases b with
  | token m f => cases f <;> exact alone rfl
  | capture m => exact alone rfl
  | oneOf ms => exact alone rfl
  | handWritten answer derivative => exact alone rfl
  | placeholder target => exact absurd rfl (hplaceholder target)
  | sequence ids => exact (ends_parts hP hv h []).imp fun _ => .sequence
  | either ids => exact (ends_branches hP hv h v).imp fun _ => .either
  | optional inner default =>
    rcases (h inner List.mem_cons_self P hP v hv).split with ⟨e, hi, he⟩ | ⟨w, hi⟩ | ⟨x, w, hi⟩
    · exact .of_error (.optionalStop hi nofun) he
    · exact .of_ok (.optionalDefault hi)
    · exact .of_ok (.optionalStop hi nofun)
  | repeated first minimum attempt =>
    have hattempt : g.EndsWithin n attempt := h attempt (List.mem_cons_of_mem _ List.mem_cons_self)
    have goes {o : Ending κ} (hf : g.Gives P (.rule first) v (.ok o)) :
        g.Ends P v (.body (.repeated first minimum attempt)) :=
      (ends_rounds hP hv hattempt minimum [] (hf.tail trivial o rfl)).imp fun _ => .repeated hf
    rcases (h first List.mem_cons_self P hP v hv).split with ⟨e, hf, he⟩ | ⟨w, hf⟩ | ⟨x, w, hf⟩
    · exact .of_error (.repeatedFault hf) he
    · exact goes hf
    · exact goes hf
  | map inner f =>
    rcases (h inner List.mem_cons_self P hP v hv).split with ⟨e, hi, he⟩ | ⟨w, hi⟩ | ⟨x, w, hi⟩
    · exact .of_error (.mapStop hi nofun) he
    · exact .of_ok (.mapStop hi nofun)
    · cases hf : f x with
      | ok x' => exact .of_ok (.map hi hf)
      | error e => exact .of_error (.mapFault hi hf) (.transform hr rfl hf)
  | skipping inner =>
    rcases split_skip hg hP v with ⟨e, hs, he⟩ | ⟨x, w, hs, htail⟩
    · exact .of_error (.skippingFault hs) he
    · exact (h inner List.mem_cons_self P hP w (Nat.le_trans htail.length_le hv)).imp fun _ => .skipping hs
  | skippingAfter inner =>
    rcases (h inner List.mem_cons_self P hP v hv).split with ⟨e, hi, he⟩ | ⟨w, hi⟩ | ⟨x, w, hi⟩
    · exact .of_error (.skippingAfterStop hi nofun) he
    · exact .of_ok (.skippingAfterStop hi nofun)
    · rcases split_skip hg hP w with ⟨e, hs, he⟩ | ⟨x', w', hs, -⟩
      · exact .of_error (.skippingAfterFault hi hs) he
      · exact .of_ok (.skippingAfter hi hs)
  | within inner policy =>
    exact (h inner List.mem_cons_self policy (hwithin inner policy rfl) v hv).imp fun _ => .within

end Bodies

/-- Parts in a row end if those up to one that consumes do, and those behind it do on shorter windows. -/
theorem ends_behind {n : Nat} (hP : g.IsMatcherPolicy P) (hv : v.length ≤ n) {before after : List RuleId}
    {part : RuleId} (hpart : g.IsConsuming part) (hbefore : ∀ q ∈ before ++ [part], g.EndsWithin n q)
    (hafter : ∀ m < n, ∀ q ∈ after, g.EndsWithin m q) (values : List (Value κ)) :
    g.Ends P v (.parts (before ++ part :: after) values) := by
  induction before generalizing v values with
  | nil =>
    rcases (hbefore part List.mem_cons_self P hP v hv).split with ⟨e, hp, he⟩ | ⟨w, hp⟩ | ⟨x, w, hp⟩
    · exact .of_error (.partsStop hp nofun) he
    · exact .of_ok (.partsStop hp nofun)
    · have hlt : w.length < v.length := (hp.tail trivial _ rfl).length_lt (Nat.ne_of_gt (hpart.start_lt hp))
      exact (ends_parts hP (Nat.le_refl _) (hafter w.length (Nat.lt_of_lt_of_le hlt hv)) (values ++ [x])).imp
        fun _ => .partsCons hp
  | cons first before ih =>
    rcases (hbefore first List.mem_cons_self P hP v hv).split with ⟨e, hp, he⟩ | ⟨w, hp⟩ | ⟨x, w, hp⟩
    · exact .of_error (.partsStop hp nofun) he
    · exact .of_ok (.partsStop hp nofun)
    · have hle := (hp.tail trivial _ rfl).length_le
      exact (ih (Nat.le_trans hle hv) (fun q hq => hbefore q (List.mem_cons_of_mem _ hq)) (values ++ [x])).imp
        fun _ => .partsCons hp

/-! ## 4. Guarded recursion -/

/-- A placeholder ends where its target does. -/
theorem EndsWithin.of_handsOn {k target : RuleId} (hk : g.HandsOn k target) {n : Nat} (h : g.EndsWithin n target) :
    g.EndsWithin n k := by
  obtain ⟨label, hr⟩ := hk
  exact fun P hP v hv => (h P hP v hv).imp fun _ ht => .rule hr (.target ht)

/-- **A productive rule ends** on windows of some length, if the placeholders that are ready do, and those that are
pending do on shorter windows. -/
theorem Productive.endsWithin (hg : g.IsLibrary) {pending ready : List RuleId} {id : RuleId}
    (h : g.Productive pending ready id) {n : Nat} (hready : ∀ k ∈ ready, g.EndsWithin n k)
    (hpending : ∀ k ∈ pending, ∀ m < n, g.EndsWithin m k) : g.EndsWithin n id := by
  induction h generalizing n with
  | use hk => exact hready _ hk
  | outer hk h ih => exact .of_handsOn hk (ih hready hpending)
  | @definition pending ready k target hk h ih =>
    induction n using Nat.strong_induction_on with
    | _ n ih' =>
      refine ih hready (List.forall_mem_cons.mpr ⟨fun m hm => ?_, hpending⟩)
      -- on shorter windows the placeholder may be assumed to end
      refine .of_handsOn hk (ih' m hm (fun k hk => (hready k hk).mono (Nat.le_of_lt hm)) fun k hk m' hm' => ?_)
      exact hpending k hk m' (Nat.lt_trans hm' hm)
  | @behind _ _ _ _ _ after hb hpart hbefore hafter ih ih' =>
    obtain ⟨label, hr⟩ := hb
    intro P hP v hv
    have behind : ∀ m < n, ∀ q ∈ after, g.EndsWithin m q := by
      intro m hm q hq
      refine ih' q hq (fun k hk => ?_) fun _ hk => nomatch hk
      rcases List.mem_append.mp hk with hk | hk
      · exact hpending k hk m hm
      · exact (hready k hk).mono (Nat.le_of_lt hm)
    exact (ends_behind hP hv hpart (fun q hq => ih q hq hready hpending) behind []).imp
      fun _ ht => .rule hr (.sequence ht)
  | parts hb hplaceholder hwithin h ih =>
    obtain ⟨label, hr⟩ := hb
    intro P hP v hv
    exact (ends_body hP hv hg hr hplaceholder hwithin fun q hq => ih q hq hready hpending).imp fun _ => .rule hr

/-- What is productive by itself ends on every window. -/
theorem Productive.ends (hg : g.IsLibrary) {id : RuleId} (h : g.Productive [] [] id) (hP : g.IsMatcherPolicy P)
    (v : View) : g.Ends P v (.rule id) :=
  h.endsWithin hg (fun _ hk => nomatch hk) (fun _ hk => nomatch hk) P hP v (Nat.le_refl _)

theorem eval_of_circular {id : RuleId} (h : Relation.TransGen g.HandsOn id id) (fuel : Nat) :
    g.eval fuel P id v = .error .unfinished := by
  induction fuel generalizing id with
  | zero => rfl
  | succ fuel ih =>
    obtain ⟨target, ⟨label, hr⟩, htarget⟩ := Relation.TransGen.head'_iff.mp h
    rw [eval_rule hr nofun]
    exact ih (.tail' htarget ⟨label, hr⟩)

/-- If all placeholders stand for productive rules, then none stand for one another in a circle. -/
theorem isGuarded_of_productive (hg : g.IsLibrary) (h : ∀ k target, g.HandsOn k target → g.Productive [] [] target) :
    g.IsGuarded := by
  intro id hcircle
  obtain ⟨target, hk, htarget⟩ := Relation.TransGen.head'_iff.mp hcircle
  obtain ⟨y, hgives, -⟩ := (h id target hk).ends hg (P := none) nofun (.ofSource ⟨0, []⟩)
  -- what is given is found in the end, but running in a circle finds nothing
  obtain ⟨fuel, hfuel⟩ := (hgives.finds trivial).exists
  have hnone : g.eval fuel none target (.ofSource ⟨0, []⟩) = .error .unfinished :=
    eval_of_circular (.tail' htarget hk) fuel
  obtain ⟨e, he, -⟩ := Verdict.eq_error (hnone.symm.trans hfuel)
  cases he

theorem Productive.lt_size (hclosed : g.IsClosed) {id : RuleId} (h : g.Productive [] [] id) : id < g.rules.size := by
  cases h with
  | use hk => cases hk
  | outer hk h =>
    obtain ⟨label, hr⟩ := hk
    exact lt_size_of_rule? hr
  | definition hk h =>
    obtain ⟨label, hr⟩ := hk
    exact hclosed _ _ hr _ List.mem_cons_self
  | behind hb hpart hbefore hafter => exact hb.lt_size
  | parts hb hplaceholder hwithin h => exact hb.lt_size

/-- Where all matchers are the library's and their engines answer, only transforms meet faults. -/
theorem Throws.transform_of_answers
    (hmatchers : ∀ id rule, g.rule? id = some rule → ∀ m ∈ rule.body.leaves, m.custom? = none ∧ m.EngineAnswers)
    {e : Fault} (h : g.Throws e) :
    ∃ id rule f x, g.rule? id = some rule ∧ rule.body.transform? = some f ∧ f x = .error e := by
  cases h with
  | transform hr hf h => exact ⟨_, _, _, _, hr, hf, h⟩
  | @matcher id rule m v hr hm h =>
    obtain ⟨hlib, hengine⟩ := hmatchers id rule hr m hm
    obtain ⟨-, halves, hsplit, -⟩ := m.keeps_slice hlib hengine v
    cases hsplit.symm.trans h

variable [DecidableEq κ]

/-- **Guarded recursion ends.** If placeholders stand for productive rules, a productive rule comes to one and the same
verdict in every run with enough fuel, whatever the state that it starts from, under no policy or one made from a
matcher. The verdict is a value, a failure, or a fault of a matcher or a transform; of a transform, if the matchers are
the library's and their engines answer. -/
theorem guarded_recursion_ends (hg : g.IsLibrary) (hclosed : g.IsClosed)
    (hplaceholders : ∀ k target, g.HandsOn k target → g.Productive [] [] target) {id : RuleId}
    (hid : g.Productive [] [] id) (hP : g.IsMatcherPolicy P) (v : View) :
    ∃ y : Verdict κ,
      (∃ n, ∀ fuel ≥ n, ∀ s, s.context.whitespace = P → Parse.verdict? (g.parse fuel id v s) = some y) ∧
      ∀ e, y = .error e → g.Throws e ∧
        ((∀ id rule, g.rule? id = some rule → ∀ m ∈ rule.body.leaves, m.custom? = none ∧ m.EngineAnswers) →
          ∃ id rule f x, g.rule? id = some rule ∧ rule.body.transform? = some f ∧ f x = .error e) := by
  have hHas : g.Has P := by
    intro p hp
    obtain ⟨_, _, hb⟩ := hP p hp
    exact hb.lt_size
  obtain ⟨y, hgives, hthrows⟩ := hid.ends hg hP v
  obtain ⟨-, hfound, -⟩ := diagnostics_inert hg hclosed hHas (hid.lt_size hclosed) v
  obtain ⟨-, n, hn⟩ := hfound y hgives
  refine ⟨y, ⟨n, fun fuel hfuel s hs => ?_⟩, fun e he => ⟨hthrows e he, (hthrows e he).transform_of_answers⟩⟩
  rcases hn fuel hfuel s hs with h | ⟨e, hend, -⟩
  · exact h
  · -- a derivation that does not end would need placeholders in a circle
    exact absurd (isGuarded_of_productive hg hplaceholders) hend.1

end Grammar

/-- Brackets around any number of brackets, or a run of blanks. What is repeated between brackets may be left out, and
so may succeed and stand still. -/
def nestings : Grammar FixedMatcher where
  rules := #[⟨none, .token (.literal "(" true) none⟩, ⟨none, .token (.literal ")" true) none⟩,
    ⟨none, .placeholder (some 7)⟩, ⟨none, .optional 2 .none⟩, ⟨none, .repeated 3 0 3⟩, ⟨none, .sequence [0, 4, 1]⟩,
    ⟨none, .token (.many (.charClass ⟨.set (.between ' ' ' '), " ", false⟩)) none⟩, ⟨none, .either [5, 6]⟩]
  names := []
  customs := 0

theorem nestings_productive : nestings.Productive [] [] 7 := by
  have leaf {pending ready : List RuleId} {id : RuleId} {m : Matcher FixedMatcher}
      (hb : nestings.HasBody id (.token m none)) : nestings.Productive pending ready id :=
    .parts hb nofun nofun fun _ hq => nomatch hq
  have inner : nestings.Productive [] [2] 4 := by
    refine .parts ⟨none, rfl⟩ nofun nofun (List.forall_mem_cons.mpr ⟨?_, List.forall_mem_cons.mpr ⟨?_, nofun⟩⟩)
    all_goals
      refine .parts ⟨none, rfl⟩ nofun nofun (List.forall_mem_cons.mpr ⟨.use List.mem_cons_self, nofun⟩)
  have bracketed : nestings.Productive [2] [] 5 := by
    have hb : nestings.HasBody 5 (.sequence ([] ++ 0 :: [4, 1])) := ⟨none, rfl⟩
    refine .behind hb ?_ ?_ ?_
    · exact .token ⟨none, rfl⟩ ((Matcher.NeverEmpty.literal (by decide)).isConsuming rfl)
    · exact List.forall_mem_cons.mpr ⟨leaf ⟨none, rfl⟩, nofun⟩
    · exact List.forall_mem_cons.mpr ⟨inner, List.forall_mem_cons.mpr ⟨leaf ⟨none, rfl⟩, nofun⟩⟩
  refine .definition (k := 2) ⟨none, rfl⟩ (.parts ⟨none, rfl⟩ nofun nofun ?_)
  exact List.forall_mem_cons.mpr ⟨bracketed, List.forall_mem_cons.mpr ⟨leaf ⟨none, rfl⟩, nofun⟩⟩

/-- Brackets that are not closed: every run comes to an end. -/
theorem guarded_recursion_ends_nestings :
    let v := View.ofSource ⟨0, ['(', '(', ')', ' ']⟩
    nestings.IsLibrary ∧ nestings.IsClosed ∧
      (∀ k target, nestings.HandsOn k target → nestings.Productive [] [] target) ∧
      nestings.Productive [] [] 7 ∧ nestings.IsMatcherPolicy (some 6) ∧
      ∃ y : Verdict FixedMatcher, ∃ n, ∀ fuel ≥ n, ∀ s, s.context.whitespace = some 6 →
        Parse.verdict? (nestings.parse fuel 7 v s) = some y := by
  intro v
  have hg : nestings.IsLibrary := by decide
  have hclosed : nestings.IsClosed := by decide
  have hplaceholders : ∀ k target, nestings.HandsOn k target → nestings.Productive [] [] target := by
    have only : ∀ k rule, nestings.rule? k = some rule →
        ∀ target, rule.body = .placeholder (some target) → target = 7 := by
      rw [Grammar.forall_rule?_iff]
      simp [nestings]
    rintro k target ⟨label, hr⟩
    rw [only k _ hr target rfl]
    exact nestings_productive
  have hP : nestings.IsMatcherPolicy (some 6) := by
    rintro p ⟨⟩
    exact ⟨_, _, none, rfl⟩
  obtain ⟨y, hends, -⟩ := Grammar.guarded_recursion_ends hg hclosed hplaceholders nestings_productive hP v
  exact ⟨hg, hclosed, hplaceholders, nestings_productive, hP, y, hends⟩

end Descent
