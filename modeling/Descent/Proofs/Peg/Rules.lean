import Descent.Proofs.Body
import Descent.Proofs.Run.Tail

/-!
# What a grammar gives

The meaning of a grammar as an ordered-choice recogniser, without a run: no context, no record of failures, no
expectations, no fuel. `Grammar.Gives` relates a policy, something to be done at a window, and how it ends. A sequence
is its parts one after another, a choice is the first branch that does not fail, a repetition goes on until an attempt
fails or stands still, and ambient whitespace is whatever the policy takes. A fault ends everything around it.

The policy is an argument of the relation and changes in one rule only, the one for a rule with a policy of its own; a
failure is nothing but the window at which it happened. What else a run of a grammar keeps track of has no place here,
so to show that a run agrees with this relation is to show that it does not matter.

Every way of ending leaves a tail of the window (`Gives.tail`), by induction on the derivation.
-/

namespace Descent

/-- How a parse ends, as far as the grammar is concerned. -/
inductive Ending (κ : Type) where
  | parsed (value : Value κ) (rest : View)
  | failed (rest : View)

/-- An ending, or the fault that ended the parse. -/
abbrev Verdict (κ : Type) := Except Fault (Ending κ)

variable {κ : Type}

/-- What is left, or where it failed. -/
def Ending.rest : Ending κ → View
  | .parsed _ rest => rest
  | .failed rest => rest

/-- The ending that a result tells of. -/
def Result.ending : Result κ → Ending κ
  | .parsed value rest => .parsed value rest
  | .failed f => .failed f.rest

theorem Result.rest_ending (r : Result κ) : r.ending.rest = r.view := by
  cases r <;> rfl

namespace Verdict

def IsParsed (y : Verdict κ) : Prop := ∃ x w, y = .ok (.parsed x w)

def IsFailed (y : Verdict κ) : Prop := ∃ w, y = .ok (.failed w)

end Verdict

/-! ## 1. Single matches -/

theorem Answer.ending_placed (answer : View → Except Fault (Answer κ)) (v : View) :
    Result.ending <$> (do (← answer v).placed v : Except Fault (Result κ)) =
      (do return (← (← answer v).placed v).ending) := by
  cases answer v with
  | error e => rfl
  | ok a =>
    show Result.ending <$> a.placed v = (do return (← a.placed v).ending)
    cases a.placed v <;> rfl

section Single

variable [CustomMatcher κ]

def Matcher.matched (m : Matcher κ) (v : View) (value : View → Except Fault (Value κ)) :
    Except Fault (Ending κ) := do
  match ← m.split v with
  | none => return .failed v
  | some (text, rest) => return .parsed (← value text) rest

/-- The first of some matchers that matches. -/
def firstMatch (v : View) : List (Matcher κ) → Except Fault (Ending κ)
  | [] => .ok (.failed v)
  | m :: ms => do
    match ← m.split v with
    | some (_, rest) => return .parsed (.matcher m) rest
    | none => firstMatch v ms

/-- How a body ends that needs no other rule. -/
def Body.alone? (v : View) : Body κ → Option (Except Fault (Ending κ))
  | .token m none => some (m.matched v fun text => .ok (.str text.text))
  | .token m (some f) => some (m.matched v fun text => f (.str text.text))
  | .capture m => some (m.matched v fun text => .ok (.view text))
  | .oneOf ms => some (firstMatch v ms)
  | .handWritten answer _ => some do return (← (← answer v).placed v).ending
  | _ => none

theorem Matcher.ending_taken (m : Matcher κ) (v : View) (value : View → Except Fault (Value κ)) :
    Result.ending <$> m.taken v value = m.matched v value := by
  rw [Matcher.taken, Matcher.matched]
  cases m.split v with
  | error e => rfl
  | ok halves =>
    rcases halves with - | ⟨text, rest⟩
    · rfl
    · show Result.ending <$> (do return .parsed (← value text) rest : Except Fault (Result κ)) =
        (do return .parsed (← value text) rest)
      cases value text <;> rfl

theorem ending_chosen (all ms : List (Matcher κ)) (v : View) :
    Result.ending <$> chosen all v ms = firstMatch v ms := by
  induction ms with
  | nil => rfl
  | cons m ms ih =>
    rw [chosen, firstMatch]
    cases m.split v with
    | error e => rfl
    | ok halves =>
      rcases halves with - | ⟨text, rest⟩
      · exact ih
      · rfl

theorem Matcher.tail_of_matched {m : Matcher κ} {v : View} {value : View → Except Fault (Value κ)} {o : Ending κ}
    (h : m.matched v value = .ok o) : o.rest.TailOf v := by
  rw [← Matcher.ending_taken] at h
  obtain ⟨r, hr, rfl⟩ := except_map_eq_ok.mp h
  rcases Matcher.taken_ok hr with rfl | ⟨x, rest, rfl, hrest⟩
  · exact .refl v
  · exact hrest

theorem tail_of_firstMatch {ms : List (Matcher κ)} {v : View} {o : Ending κ} (h : firstMatch v ms = .ok o) :
    o.rest.TailOf v := by
  rw [← ending_chosen ms] at h
  obtain ⟨r, hr, rfl⟩ := except_map_eq_ok.mp h
  rcases chosen_ok hr with rfl | ⟨x, rest, rfl, hrest⟩
  · exact .refl v
  · exact hrest

theorem Body.tail_of_alone {b : Body κ} {v : View} {o : Ending κ} (h : b.alone? v = some (.ok o)) :
    o.rest.TailOf v := by
  cases b with
  | token m f => cases f <;> exact Matcher.tail_of_matched (Option.some.inj h)
  | capture m => exact Matcher.tail_of_matched (Option.some.inj h)
  | oneOf ms => exact tail_of_firstMatch (Option.some.inj h)
  | handWritten answer derivative =>
    obtain ⟨r, hr, ho⟩ := except_bind_eq_ok.mp (Option.some.inj h)
    obtain ⟨r', hr', ho⟩ := except_bind_eq_ok.mp ho
    cases ho
    rw [Result.rest_ending]
    exact Answer.placed_ok hr'
  | _ => cases h

end Single

/-! ## 2. The rules -/

/-- Something to be done at a window. -/
inductive Task (κ : Type) where
  | rule (id : RuleId)
  | body (b : Body κ)
  /-- to skip what the policy takes -/
  | skip
  /-- to go on with a sequence that has these values so far -/
  | parts (ids : List RuleId) (values : List (Value κ))
  /-- to go on with a choice; the branch before failed at the given window -/
  | branches (ids : List RuleId) (last : View)
  /-- to go on with a repetition that has these values so far, after an attempt that ended in the given ending -/
  | rounds (attempt : RuleId) (minimum : Int) (values : List (Value κ)) (latest : Ending κ)

/-- How a repetition ends that got these values, the last of them before `rest`, and whose last attempt ended as
given. -/
def Ending.closing (minimum : Int) (values : List (Value κ)) (rest : View) (latest : Ending κ) : Ending κ :=
  if (values.length : Int) < minimum then latest else .parsed (.list values) rest

/-- **What a grammar gives**: under a policy, a task at a window ends in a verdict. -/
inductive Grammar.Gives [CustomMatcher κ] (g : Grammar κ) : Option RuleId → Task κ → View → Verdict κ → Prop
  | rule {P id rule v y} (hr : g.rule? id = some rule) (h : Gives g P (.body rule.body) v y) :
    Gives g P (.rule id) v y
  | absent {P id v} (hr : g.rule? id = none) : Gives g P (.rule id) v (.error (.unresolved none))
  | unresolved {P id label v} (hr : g.rule? id = some ⟨label, .placeholder none⟩) :
    Gives g P (.rule id) v (.error (.unresolved label))
  | target {P target v y} (h : Gives g P (.rule target) v y) : Gives g P (.body (.placeholder (some target))) v y
  | alone {P b v y} (hb : b.alone? v = some y) : Gives g P (.body b) v y
  -- sequences
  | sequence {P parts v y} (h : Gives g P (.parts parts []) v y) : Gives g P (.body (.sequence parts)) v y
  | partsNil {P values v} : Gives g P (.parts [] values) v (.ok (.parsed (.tuple values) v))
  | partsCons {P part parts values x v w y} (head : Gives g P (.rule part) v (.ok (.parsed x w)))
      (tail : Gives g P (.parts parts (values ++ [x])) w y) : Gives g P (.parts (part :: parts) values) v y
  | partsStop {P part parts values v y} (head : Gives g P (.rule part) v y) (hy : ¬ y.IsParsed) :
    Gives g P (.parts (part :: parts) values) v y
  -- choices
  | either {P branches v y} (h : Gives g P (.branches branches v) v y) : Gives g P (.body (.either branches)) v y
  | branchesNil {P last v} : Gives g P (.branches [] last) v (.ok (.failed last))
  | branchesNext {P branch branches last v w y} (head : Gives g P (.rule branch) v (.ok (.failed w)))
      (tail : Gives g P (.branches branches w) v y) : Gives g P (.branches (branch :: branches) last) v y
  | branchesStop {P branch branches last v y} (head : Gives g P (.rule branch) v y) (hy : ¬ y.IsFailed) :
    Gives g P (.branches (branch :: branches) last) v y
  -- a rule or nothing
  | optionalDefault {P inner default v w} (h : Gives g P (.rule inner) v (.ok (.failed w))) :
    Gives g P (.body (.optional inner default)) v (.ok (.parsed default v))
  | optionalStop {P inner default v y} (h : Gives g P (.rule inner) v y) (hy : ¬ y.IsFailed) :
    Gives g P (.body (.optional inner default)) v y
  -- repetitions
  | repeated {P first minimum attempt v o y} (h : Gives g P (.rule first) v (.ok o))
      (rounds : Gives g P (.rounds attempt minimum [] o) v y) :
    Gives g P (.body (.repeated first minimum attempt)) v y
  | repeatedFault {P first minimum attempt v e} (h : Gives g P (.rule first) v (.error e)) :
    Gives g P (.body (.repeated first minimum attempt)) v (.error e)
  | roundsFailed {P attempt minimum values v w} :
    Gives g P (.rounds attempt minimum values (.failed w)) v (.ok (.closing minimum values v (.failed w)))
  | roundsStill {P attempt minimum values x v w} (hw : w.start = v.start) :
    Gives g P (.rounds attempt minimum values (.parsed x w)) v
      (.ok (.closing minimum (values ++ [x]) v (.parsed x w)))
  | roundsNext {P attempt minimum values x v w o y} (hw : w.start ≠ v.start)
      (h : Gives g P (.rule attempt) w (.ok o)) (rounds : Gives g P (.rounds attempt minimum (values ++ [x]) o) w y) :
    Gives g P (.rounds attempt minimum values (.parsed x w)) v y
  | roundsFault {P attempt minimum values x v w e} (hw : w.start ≠ v.start)
      (h : Gives g P (.rule attempt) w (.error e)) :
    Gives g P (.rounds attempt minimum values (.parsed x w)) v (.error e)
  -- transforms
  | map {P inner f x x' v w} (h : Gives g P (.rule inner) v (.ok (.parsed x w))) (hf : f x = .ok x') :
    Gives g P (.body (.map inner f)) v (.ok (.parsed x' w))
  | mapFault {P inner f x v w e} (h : Gives g P (.rule inner) v (.ok (.parsed x w))) (hf : f x = .error e) :
    Gives g P (.body (.map inner f)) v (.error e)
  | mapStop {P inner f v y} (h : Gives g P (.rule inner) v y) (hy : ¬ y.IsParsed) :
    Gives g P (.body (.map inner f)) v y
  -- ambient whitespace
  | skipNothing {v} : Gives g none .skip v (.ok (.parsed .none v))
  | skipParsed {p x v w} (h : Gives g (some p) (.rule p) v (.ok (.parsed x w))) :
    Gives g (some p) .skip v (.ok (.parsed .none w))
  | skipFailed {p v w} (h : Gives g (some p) (.rule p) v (.ok (.failed w))) :
    Gives g (some p) .skip v (.ok (.parsed .none v))
  | skipFault {p v e} (h : Gives g (some p) (.rule p) v (.error e)) : Gives g (some p) .skip v (.error e)
  | skipping {P inner x v w y} (hs : Gives g P .skip v (.ok (.parsed x w))) (h : Gives g P (.rule inner) w y) :
    Gives g P (.body (.skipping inner)) v y
  | skippingFault {P inner v e} (hs : Gives g P .skip v (.error e)) : Gives g P (.body (.skipping inner)) v (.error e)
  | skippingAfter {P inner x x' v w w'} (h : Gives g P (.rule inner) v (.ok (.parsed x w)))
      (hs : Gives g P .skip w (.ok (.parsed x' w'))) :
    Gives g P (.body (.skippingAfter inner)) v (.ok (.parsed x w'))
  | skippingAfterFault {P inner x v w e} (h : Gives g P (.rule inner) v (.ok (.parsed x w)))
      (hs : Gives g P .skip w (.error e)) : Gives g P (.body (.skippingAfter inner)) v (.error e)
  | skippingAfterStop {P inner v y} (h : Gives g P (.rule inner) v y) (hy : ¬ y.IsParsed) :
    Gives g P (.body (.skippingAfter inner)) v y
  -- another policy
  | within {P inner policy v y} (h : Gives g policy (.rule inner) v y) : Gives g P (.body (.within inner policy)) v y

/-! ## 3. What is left is a tail -/

/-- A task that goes on from another place goes on from a tail of the window. -/
def Task.Placed (v : View) : Task κ → Prop
  | .branches _ last => last.TailOf v
  | .rounds _ _ _ latest => latest.rest.TailOf v
  | _ => True

theorem Ending.rest_closing {minimum : Int} {values : List (Value κ)} {v : View} {latest : Ending κ}
    (h : latest.rest.TailOf v) : (closing minimum values v latest).rest.TailOf v := by
  rw [closing]
  split
  · exact h
  · exact .refl v

/-- **Whatever a grammar gives leaves a tail of the window.** -/
theorem Grammar.Gives.tail [CustomMatcher κ] {g : Grammar κ} {P : Option RuleId} {t : Task κ} {v : View}
    {y : Verdict κ} (h : g.Gives P t v y) : t.Placed v → ∀ o, y = .ok o → o.rest.TailOf v := by
  induction h with
  | rule hr h ih => exact fun _ => ih trivial
  | absent hr => exact fun _ _ ho => nomatch ho
  | unresolved hr => exact fun _ _ ho => nomatch ho
  | target h ih => exact fun _ => ih trivial
  | alone hb =>
    rintro - o rfl
    exact Body.tail_of_alone hb
  | sequence h ih => exact fun _ => ih trivial
  | partsNil => rintro - o ⟨⟩; exact .refl _
  | partsCons head tail ih ih' => exact fun _ o ho => (ih' trivial o ho).trans (ih trivial _ rfl)
  | partsStop head hy ih => exact fun _ => ih trivial
  | either h ih => exact fun _ => ih (.refl _)
  | branchesNil => rintro hlast o ⟨⟩; exact hlast
  | branchesNext head tail ih ih' => exact fun _ => ih' (ih trivial _ rfl)
  | branchesStop head hy ih => exact fun _ => ih trivial
  | optionalDefault h ih => rintro - o ⟨⟩; exact .refl _
  | optionalStop h hy ih => exact fun _ => ih trivial
  | repeated h rounds ih ih' => exact fun _ => ih' (ih trivial _ rfl)
  | repeatedFault h ih => exact fun _ _ ho => nomatch ho
  | roundsFailed => rintro hlatest o ⟨⟩; exact Ending.rest_closing hlatest
  | roundsStill hw => rintro hlatest o ⟨⟩; exact Ending.rest_closing hlatest
  | roundsNext hw h rounds ih ih' => exact fun hlatest o ho => (ih' (ih trivial _ rfl) o ho).trans hlatest
  | roundsFault hw h ih => exact fun _ _ ho => nomatch ho
  | map h hf ih => rintro - o ⟨⟩; exact (ih trivial _ rfl :)
  | mapFault h hf ih => exact fun _ _ ho => nomatch ho
  | mapStop h hy ih => exact fun _ => ih trivial
  | skipNothing => rintro - o ⟨⟩; exact .refl _
  | skipParsed h ih => rintro - o ⟨⟩; exact (ih trivial _ rfl :)
  | skipFailed h ih => rintro - o ⟨⟩; exact .refl _
  | skipFault h ih => exact fun _ _ ho => nomatch ho
  | skipping hs h ih ih' => exact fun _ o ho => (ih' trivial o ho).trans (ih trivial _ rfl)
  | skippingFault hs ih => exact fun _ _ ho => nomatch ho
  | skippingAfter h hs ih ih' =>
    rintro - o ⟨⟩
    exact (ih' trivial _ rfl).trans (ih trivial _ rfl)
  | skippingAfterFault h hs ih ih' => exact fun _ _ ho => nomatch ho
  | skippingAfterStop h hy ih => exact fun _ => ih trivial
  | within h ih => exact fun _ => ih trivial

end Descent
