import Descent.Matcher.Fixed
import Descent.Proofs.Peg.Simulation

/-!
# No input is lost

Tokens give the text that they take and captures the window, a sequence its parts in order, an option nothing in the
place of what it did not find, a repetition its rounds. A grammar made of these keeps what it reads: **the text in a
value is the text that was consumed for it** (`Grammar.input_conserved`), neither less nor more, whatever branches were
tried and given up before. Ambient whitespace would be read and dropped, so it is left to such grammars only where no
policy is active, and nothing is skipped.

This is a law of what a grammar gives, so it needs no run. The induction is on the derivation, and what it carries is
the text of the values that a sequence or a repetition has so far (`Task.Before`): each further part adds what it
consumes, and what is consumed part by part is consumed in one piece (`View.consumed_append`). The last round of a
repetition may stand still, and then adds nothing.
-/

namespace Descent

variable {κ : Type}

/-! ## 1. Consumed text and the text in values -/

/-- The text of a window before one of its tails. -/
def View.consumed (v w : View) : List Char := (v.source.chars.drop v.start).take (w.start - v.start)

theorem View.consumed_of_start_eq {v w : View} (h : w.start = v.start) : v.consumed w = [] := by
  rw [consumed, h, Nat.sub_self, List.take_zero]

/-- What is consumed in two pieces is consumed in one. -/
theorem View.consumed_append {u v w : View} (hw : w.TailOf v) (hu : u.TailOf w) :
    v.consumed w ++ w.consumed u = v.consumed u := by
  have first := hw.2.2
  have second := hu.2.2
  have start : v.start + (w.start - v.start) = w.start := by omega
  have length : u.start - v.start = (w.start - v.start) + (u.start - w.start) := by omega
  rw [consumed, consumed, consumed, length, List.take_add, List.drop_drop, start, hw.1]

/-- A match is what it consumes. -/
theorem Matcher.chars_of_split [CustomMatcher κ] {m : Matcher κ} {v matched rest : View}
    (h : m.split v = .ok (some (matched, rest))) : matched.chars = v.consumed rest := by
  obtain ⟨offset, hc⟩ := Matcher.exists_split h
  obtain ⟨n, hn, hn', -, hcut⟩ := View.split_eq_ok_iff.mp hc
  cases hcut
  rfl

mutual

/-- All text in a value, one piece after another: tuples and lists in order, nothing for the empty value, windows by
their text. A number, a truth value or a matcher is no text. -/
def Value.flattened? : Value κ → Option (List Char)
  | .none => some []
  | .str s => some s.toList
  | .view v => some v.chars
  | .tuple xs => Value.flattenedAll? xs
  | .list xs => Value.flattenedAll? xs
  | .bool _ | .int _ | .matcher _ => Option.none

def Value.flattenedAll? : List (Value κ) → Option (List Char)
  | [] => some []
  | x :: xs =>
    match x.flattened?, Value.flattenedAll? xs with
    | some cs, some ds => some (cs ++ ds)
    | _, _ => Option.none

end

theorem Value.flattenedAll?_concat {xs : List (Value κ)} {x : Value κ} {cs ds : List Char}
    (hxs : flattenedAll? xs = some cs) (hx : x.flattened? = some ds) : flattenedAll? (xs ++ [x]) = some (cs ++ ds) := by
  induction xs generalizing cs with
  | nil =>
    cases hxs
    simp [flattenedAll?, hx]
  | cons y ys ih =>
    rw [flattenedAll?] at hxs
    split at hxs
    next as bs hy hys =>
      cases hxs
      rw [List.cons_append, flattenedAll?, hy, ih hys, List.append_assoc]
    next => cases hxs

/-- If there is a value, it holds the given text and then what was consumed of the window. -/
def Verdict.Holds (y : Verdict κ) (cs : List Char) (v : View) : Prop :=
  ∀ x w, y = .ok (.parsed x w) → w.TailOf v ∧ x.flattened? = some (cs ++ v.consumed w)

namespace Verdict.Holds

variable {y : Verdict κ} {cs : List Char} {v w : View}

/-- Text that was consumed before is text that is there already. -/
theorem after (hw : w.TailOf v) (h : y.Holds (cs ++ v.consumed w) w) : y.Holds cs v := by
  intro x u hu
  obtain ⟨htail, htext⟩ := h x u hu
  exact ⟨htail.trans hw, by rw [htext, List.append_assoc, View.consumed_append hw htail]⟩

theorem of_not_parsed (h : ¬ y.IsParsed) : y.Holds cs v := fun x w hy => absurd ⟨x, w, hy⟩ h

/-- A value that stays where it is holds the given text. -/
theorem still {x : Value κ} (h : x.flattened? = some cs) : Verdict.Holds (.ok (.parsed x v)) cs v := by
  rintro _ _ ⟨⟩
  exact ⟨.refl v, by rw [h, View.consumed_of_start_eq rfl, List.append_nil]⟩

end Verdict.Holds

/-! ## 2. Grammars that keep what they read -/

/-- A body that keeps what it reads, under a policy: a plain token, a capture, a sequence or a choice, an option with
the empty value in its place, a repetition of at least nothing or one, a placeholder; and skipping where there is
nothing to be skipped. -/
def Body.IsLossless (P : Option RuleId) : Body κ → Prop
  | .token _ none => True
  | .capture _ => True
  | .sequence _ => True
  | .either _ => True
  | .optional _ .none => True
  | .repeated _ minimum _ => minimum ≤ 1
  | .skipping _ => P = none
  | .skippingAfter _ => P = none
  | .placeholder _ => True
  | _ => False

/-- A rule that is made of such bodies throughout. -/
def Grammar.IsLossless (g : Grammar κ) (P : Option RuleId) (id : RuleId) : Prop :=
  ∀ p rule, Relation.ReflTransGen g.Refers id p → g.rule? p = some rule → rule.body.IsLossless P

/-- A task that is made of such bodies throughout. -/
def Task.IsLossless (g : Grammar κ) (P : Option RuleId) : Task κ → Prop
  | .rule id => g.IsLossless P id
  | .body b => b.IsLossless P ∧ ∀ q ∈ b.refs, g.IsLossless P q
  | .skip => P = none
  | .parts ids _ => ∀ id ∈ ids, g.IsLossless P id
  | .branches ids _ => ∀ id ∈ ids, g.IsLossless P id
  | .rounds attempt minimum _ _ => g.IsLossless P attempt ∧ minimum ≤ 1

theorem Grammar.IsLossless.task {g : Grammar κ} {P : Option RuleId} {id : RuleId} {rule : Rule κ}
    (h : g.IsLossless P id) (hr : g.rule? id = some rule) : (Task.body rule.body).IsLossless g P :=
  ⟨h id rule .refl hr, fun _ hq p rule' hp => h p rule' (.head ⟨rule, hr, hq⟩ hp)⟩

/-- The text that a task at a window has before it: that of the values so far. The attempt before a round holds what it
consumed of the window. -/
def Task.Before (v : View) (cs : List Char) : Task κ → Prop
  | .parts _ values => Value.flattenedAll? values = some cs
  | .rounds _ _ values latest => Value.flattenedAll? values = some cs ∧ Verdict.Holds (.ok latest) [] v
  | _ => cs = []

/-- A repetition of at least nothing or one that has failed at once has no value, and any other has that of its
rounds. -/
theorem Ending.closing_holds {minimum : Int} {values : List (Value κ)} {cs : List Char} {v : View} {latest : Ending κ}
    (hminimum : minimum ≤ 1) (hvalues : Value.flattenedAll? values = some cs)
    (hlatest : values ≠ [] ∨ ∃ w, latest = .failed w) : Verdict.Holds (.ok (closing minimum values v latest)) cs v := by
  rw [closing]
  split
  next hless =>
    have none : values = [] := List.length_eq_zero_iff.mp (by omega)
    obtain ⟨w, rfl⟩ := hlatest.resolve_left (not_not_intro none)
    intro _ _ h
    cases h
  next => exact .still hvalues

section Gives

variable [CustomMatcher κ] {g : Grammar κ} {P : Option RuleId} {v : View}

/-- Without a policy nothing is skipped. -/
theorem Grammar.Gives.eq_of_skip {y : Verdict κ} (h : g.Gives none .skip v y) : y = .ok (.parsed .none v) := by
  cases h
  rfl

/-- A single match holds what it consumes. -/
theorem Matcher.matched_holds {m : Matcher κ} {value : View → Except Fault (Value κ)}
    (h : ∀ w x, value w = .ok x → x.flattened? = some w.chars) : Verdict.Holds (m.matched v value) [] v := by
  intro x w hy
  obtain ⟨halves, hsplit, hy⟩ := except_bind_eq_ok.mp hy
  rcases halves with - | ⟨matched, rest⟩
  · cases hy
  · obtain ⟨x', hx', hy⟩ := except_bind_eq_ok.mp hy
    cases hy
    exact ⟨Matcher.tailOf_of_split hsplit, by rw [h _ _ hx', Matcher.chars_of_split hsplit, List.nil_append]⟩

theorem Body.alone_holds {b : Body κ} {y : Verdict κ} (hb : b.IsLossless P) (h : b.alone? v = some y) :
    y.Holds [] v := by
  cases b with
  | token m f =>
    cases f with
    | none =>
      cases h
      refine Matcher.matched_holds fun w x hx => ?_
      cases hx
      exact congrArg some String.toList_ofList
    | some f => exact hb.elim
  | capture m =>
    cases h
    refine Matcher.matched_holds fun w x hx => ?_
    cases hx
    rfl
  | oneOf ms => exact hb.elim
  | handWritten answer derivative => exact hb.elim
  | _ => cases h

/-- **What a lossless grammar gives holds what it consumed**, after the text that was there before. -/
theorem Grammar.Gives.holds {t : Task κ} {y : Verdict κ} (h : g.Gives P t v y) :
    ∀ cs, t.IsLossless g P → t.Before v cs → y.Holds cs v := by
  induction h with
  | rule hr h ih => exact fun cs hg hcs => ih cs (hg.task hr) hcs
  | absent hr => exact fun _ _ _ _ _ hy => nomatch hy
  | unresolved hr => exact fun _ _ _ _ _ hy => nomatch hy
  | target h ih => exact fun cs hg hcs => ih cs (hg.2 _ List.mem_cons_self) hcs
  | alone hb =>
    rintro cs hg rfl
    exact Body.alone_holds hg.1 hb
  | sequence h ih =>
    rintro cs hg rfl
    exact ih [] hg.2 rfl
  | partsNil => exact fun cs _ hcs => .still hcs
  | partsCons head tail ih ih' =>
    intro cs hg hcs
    obtain ⟨hpart, hparts⟩ := List.forall_mem_cons.mp hg
    obtain ⟨htail, htext⟩ := ih [] hpart rfl _ _ rfl
    exact .after htail (ih' _ hparts (Value.flattenedAll?_concat hcs htext))
  | partsStop head hy ih => exact fun cs _ _ => .of_not_parsed hy
  | either h ih => exact fun cs hg hcs => ih cs hg.2 hcs
  | branchesNil => exact fun _ _ _ _ _ hy => nomatch hy
  | branchesNext head tail ih ih' => exact fun cs hg hcs => ih' cs (List.forall_mem_cons.mp hg).2 hcs
  | branchesStop head hy ih => exact fun cs hg hcs => ih cs (List.forall_mem_cons.mp hg).1 hcs
  | @optionalDefault _ _ default _ _ h ih =>
    rintro cs hg rfl
    have empty : default.flattened? = some [] := by
      cases default with
      | none => rfl
      | _ => exact hg.1.elim
    exact .still empty
  | optionalStop h hy ih => exact fun cs hg hcs => ih cs (hg.2 _ List.mem_cons_self) hcs
  | repeated h rounds ih ih' =>
    rintro cs hg rfl
    have first := ih [] (hg.2 _ List.mem_cons_self) rfl
    exact ih' [] ⟨hg.2 _ (List.mem_cons_of_mem _ List.mem_cons_self), hg.1⟩ ⟨rfl, first⟩
  | repeatedFault h ih => exact fun _ _ _ _ _ hy => nomatch hy
  | roundsFailed => exact fun cs hg hcs => Ending.closing_holds hg.2 hcs.1 (Or.inr ⟨_, rfl⟩)
  | @roundsStill _ _ _ values x v w hw =>
    -- the last round consumed nothing, and its value holds nothing
    intro cs hg hcs
    obtain ⟨-, htext⟩ := hcs.2 _ _ rfl
    rw [View.consumed_of_start_eq hw] at htext
    have all : Value.flattenedAll? (values ++ [x]) = some cs := by
      simpa using Value.flattenedAll?_concat hcs.1 htext
    exact Ending.closing_holds hg.2 all (Or.inl (by simp))
  | roundsNext hw h rounds ih ih' =>
    intro cs hg hcs
    obtain ⟨htail, htext⟩ := hcs.2 _ _ rfl
    exact .after htail (ih' _ hg ⟨Value.flattenedAll?_concat hcs.1 htext, ih [] hg.1 rfl⟩)
  | roundsFault hw h ih => exact fun _ _ _ _ _ hy => nomatch hy
  | map h hf ih => exact fun _ hg => hg.1.elim
  | mapFault h hf ih => exact fun _ hg => hg.1.elim
  | mapStop h hy ih => exact fun _ hg => hg.1.elim
  | skipNothing =>
    rintro cs - rfl
    exact .still rfl
  | skipParsed h ih => exact fun _ hg => nomatch hg
  | skipFailed h ih => exact fun _ hg => nomatch hg
  | skipFault h ih => exact fun _ hg => nomatch hg
  | skipping hs h ih ih' =>
    intro cs hg hcs
    obtain rfl : _ = none := hg.1
    cases hs.eq_of_skip
    exact ih' cs (hg.2 _ List.mem_cons_self) hcs
  | skippingFault hs ih => exact fun _ _ _ _ _ hy => nomatch hy
  | skippingAfter h hs ih ih' =>
    intro cs hg hcs
    obtain rfl : _ = none := hg.1
    cases hs.eq_of_skip
    exact ih cs (hg.2 _ List.mem_cons_self) hcs
  | skippingAfterFault h hs ih ih' => exact fun _ _ _ _ _ hy => nomatch hy
  | skippingAfterStop h hy ih => exact fun _ _ _ => .of_not_parsed hy
  | within h ih => exact fun _ hg => hg.1.elim

end Gives

/-! ## 3. Runs -/

section Run

variable [DecidableEq κ] [CustomMatcher κ] {g : Grammar κ} {P : Option RuleId} {id : RuleId}

/-- A run that comes to a result comes to what the grammar gives, whatever derivations meet. -/
theorem Grammar.gives_of_parse (hclosed : g.IsClosed) (hP : g.Has P) (hid : id < g.rules.size) {fuel : Nat} {v : View}
    {s t : ParseState κ} (hs : s.context.whitespace = P) {r : Result κ} (h : g.parse fuel id v s = .ok r t) :
    g.Gives P (.rule id) v (.ok r.ending) := by
  have derived (id : RuleId) (d : Derivation κ) :
      Ensures (g.expectation id) d (fun _ _ => True) fun e _ => True :=
    (ensures_self _ _).imp (fun _ _ _ => trivial) fun _ _ _ => trivial
  have follows := (parse_follows hclosed (fun id _ => derived id) fuel P id v s hP hid hs).ok h
  exact g.eval_sound fuel follows.1

/-- **No input is lost or duplicated.** A run of a grammar that keeps what it reads, from any state, leaves a tail of
its window if it succeeds, and the text in its value is the text before that tail. Skipping is among what such a
grammar may be made of where no policy is active. -/
theorem Grammar.input_conserved (hclosed : g.IsClosed) (hP : g.Has P) (hid : id < g.rules.size)
    (hg : g.IsLossless P id) (fuel : Nat) (v : View) (s : ParseState κ) (hs : s.context.whitespace = P)
    (x : Value κ) (w : View) (t : ParseState κ) (h : g.parse fuel id v s = .ok (.parsed x w) t) :
    w.TailOf v ∧ x.flattened? = some ((v.source.chars.drop v.start).take (w.start - v.start)) :=
  (gives_of_parse hclosed hP hid hs h).holds [] hg rfl x w rfl

end Run

/-- Brackets in brackets around letters, which are captured, or around nothing; there may be whitespace before the
letters. -/
def brackets : Grammar FixedMatcher where
  rules := #[⟨none, .token (.literal "(" true) none⟩, ⟨none, .token (.literal ")" true) none⟩,
    ⟨none, .capture (.charClass ⟨.set (.between 'b' 'b'), "b", false⟩)⟩, ⟨none, .repeated 2 1 2⟩,
    ⟨none, .placeholder (some 8)⟩, ⟨none, .sequence [0, 4, 1]⟩, ⟨none, .optional 3 .none⟩, ⟨none, .skipping 6⟩,
    ⟨none, .either [5, 7]⟩]
  names := []
  customs := 0

/-- Whether a result leaves a certain window can be decided. -/
instance (r : Result FixedMatcher) (w : View) : Decidable (∃ x, r = .parsed x w) :=
  match r with
  | .parsed x w' => decidable_of_iff (w' = w) (by simp)
  | .failed f => isFalse (by simp)

/-- Of a window with something before and behind it, the brackets and the letters in them are consumed and held. -/
theorem input_conserved_brackets :
    let v : View := ⟨⟨0, ['c', '(', '(', 'b', 'b', ')', ')', 'b', 'c']⟩, 1, 8, by decide, by decide⟩
    let s : ParseState FixedMatcher := ⟨.fresh, .fresh none 0⟩
    brackets.IsClosed ∧ brackets.Has none ∧ 8 < brackets.rules.size ∧ brackets.IsLossless none 8 ∧
      ∃ x t, brackets.parse 12 8 v s = .ok (.parsed x ⟨v.source, 7, 8, by decide, by decide⟩) t ∧
        x.flattened? = some ['(', '(', 'b', 'b', ')', ')'] := by
  intro v s
  have hclosed : brackets.IsClosed := by decide
  have hP : brackets.Has none := fun _ h => nomatch h
  have lossless : ∀ p rule, brackets.rule? p = some rule → rule.body.IsLossless none :=
    Grammar.forall_rule?_iff.mpr (by simp [brackets, Body.IsLossless])
  have hg : brackets.IsLossless none 8 := fun p rule _ hr => lossless p rule hr
  obtain ⟨_, t, hrun, x, rfl⟩ := Ensures.exists_ok (x := brackets.parse 12 8 v) (s := s)
    (Q := fun r _ => ∃ x, r = .parsed x ⟨v.source, 7, 8, by decide, by decide⟩) (by decide +kernel)
  obtain ⟨-, htext⟩ := Grammar.input_conserved hclosed hP (by decide) hg 12 v s rfl _ _ _ hrun
  exact ⟨hclosed, hP, by decide, hg, x, t, hrun, htext⟩

end Descent
