import Descent.Fault
import Descent.Pattern.Syntax

/-!
# Matching a pattern at the start of a text

Matching is by backtracking: `Pattern.run` tries the ways in which a pattern can consume input from a place, in
order of preference, and ends with the first after which what follows succeeds.

Two things are kept through a match and outlive a try that fails. The *marks* say where each group last began
and ended. The *bookmark* is the place that was set aside last: by a choice and by a loop before each of their
tries, and by a part that ends on its own, such as the body of an assertion, at its end. An assertion, an atomic
group and a possessive loop go by the bookmark where their body has succeeded. A possessive loop goes by it also
where a round has failed: it goes on from the place that this round set aside last, which need not be the one
where the round began. Engines for this notation differ in this point. Some take the bookmark back when a round
fails, so that the loop ends with its last good round; the one that is described here does not.

A failed try takes the marks back. Inside of a loop they become what they were; elsewhere the groups that were
marked for the first time become unmarked, and those that were marked again keep the later mark.

A loop asks two questions at the head of each round: is the minimum reached, and has the last round moved on?
A round that would start where the last one started is not tried, which bounds the rounds by the minimum and
the length of the text; the loops below take that bound as their fuel. A loop over a single test counts how far
the test holds, and then tries the ends one by one.
-/

namespace Descent

/-! ## 1. Marks and the bookmark -/

/-- What a match keeps through failed tries. -/
structure Trail where
  /-- the place that was set aside last -/
  bookmark : Nat
  /-- where each group last began (even keys) and ended (odd keys); later keys have not been marked -/
  marks : List (Option Nat)

namespace Trail

def start : Trail := ⟨0, []⟩

def setAside (t : Trail) (place : Nat) : Trail := { t with bookmark := place }

/-- Marks a place under a key. Keys that are passed over are unmarked. -/
def mark (t : Trail) (key place : Nat) : Trail :=
  { t with marks :=
      if key < t.marks.length then t.marks.set key (some place)
      else t.marks ++ List.replicate (key - t.marks.length) none ++ [some place] }

/-- Takes the marks back to what they were, in a loop; elsewhere only the keys that came after them go. -/
def restored (t : Trail) (inLoop : Bool) (marks : List (Option Nat)) : Trail :=
  { t with marks := if inLoop then marks else t.marks.take marks.length }

/-- Where a group has begun and ended, if it has, in this order. -/
def captured? (t : Trail) (index : Nat) : Option (Nat × Nat) :=
  match t.marks[2 * index - 2]?, t.marks[2 * index - 1]? with
  | some (some first), some (some last) => if first ≤ last then some (first, last) else none
  | _, _ => none

/-- Whether every group that has begun and ended has done so in this order. -/
def isOrdered : List (Option Nat) → Bool
  | some first :: some last :: marks => first ≤ last && isOrdered marks
  | _ :: _ :: marks => isOrdered marks
  | _ => true

end Trail

/-- How a try ends. -/
structure Outcome where
  succeeds : Bool
  trail : Trail

namespace Outcome

/-- After a failure, another outcome from the same trail. -/
def orElse (o : Outcome) (other : Trail → Outcome) : Outcome := if o.succeeds then o else other o.trail

/-- After a success, another outcome from the same trail. -/
def andThen (o : Outcome) (other : Trail → Outcome) : Outcome := if o.succeeds then other o.trail else o

/-- After a failure, the given place is set aside. -/
def elseAside (o : Outcome) (place : Nat) : Outcome := o.orElse fun t => ⟨false, t.setAside place⟩

end Outcome

/-- A way to go on from a place. -/
abbrev Try := Nat → Trail → Outcome

namespace Try

/-- The end of a part that ends on its own. -/
def stop : Try := fun here t => ⟨true, t.setAside here⟩

/-- Sets the place aside before the try, and takes the marks back after a failure. -/
def revocable (go : Try) (inLoop : Bool) : Try := fun here t =>
  (go here (t.setAside here)).orElse fun failed => ⟨false, failed.restored inLoop t.marks⟩

end Try

/-- What follows a pattern: how to go on, and the test of one character with which this begins, if it does. -/
structure Next where
  go : Try
  lead : Option CharTest

/-! ## 2. Looking at the text -/

section Text

variable (text : Array Char)

def charBefore? (here : Nat) : Option Char := if here = 0 then none else text[here - 1]?

/-- Whether a word begins or ends at a place. -/
def atWordEdge (asciiOnly : Bool) (here : Nat) : Bool :=
  let isWord (c : Option Char) : Bool := (c.map fun c => isWordCode asciiOnly c.toNat).getD false
  isWord (charBefore? text here) != isWord text[here]?

/-- Whether a place is one that the anchor asks for. An empty text has neither word edges nor places inside or
outside a word. -/
def Anchor.isAt (here : Nat) : Anchor → Bool
  | .textStart => here == 0
  | .lineStart => here == 0 || charBefore? text here == some '\n'
  | .textEnd => here == text.size || (here + 1 == text.size && text[here]? == some '\n')
  | .lineEnd => here == text.size || text[here]? == some '\n'
  | .absoluteEnd => here == text.size
  | .wordEdge asciiOnly => !text.isEmpty && atWordEdge text asciiOnly here
  | .insideOrOutside asciiOnly => !text.isEmpty && !atWordEdge text asciiOnly here

def CharTest.isAt (test : CharTest) (here : Nat) : Bool :=
  match text[here]? with
  | some c => test.accepts c
  | none => false

/-- How many characters from a place on pass a test, if no more than a number of them are looked at. -/
def CharTest.sweep (test : CharTest) : (limit here : Nat) → Nat
  | 0, _ => 0
  | limit + 1, here => if test.isAt text here then sweep test limit (here + 1) + 1 else 0

/-- How many characters a loop with a maximum may look at from a place. -/
def reach (maximum : Option Nat) (here : Nat) : Nat :=
  match maximum with
  | some m => min m (text.size - here)
  | none => text.size - here

/-- Whether so many characters from one place on come again at another, up to the case rule. -/
def comesAgain (rule : CaseRule) : (count first here : Nat) → Bool
  | 0, _, _ => true
  | count + 1, first, here =>
    match text[first]?, text[here]? with
    | some c, some d =>
      rule.lowered c.toNat == rule.lowered d.toNat && comesAgain rule count (first + 1) (here + 1)
    | _, _ => false

end Text

namespace Pattern

/-- The test of one character with which a pattern begins, if it begins with one; an empty pattern leaves this
to what follows. -/
def lead : Pattern → Option CharTest → Option CharTest
  | .empty, next => next
  | .one test, _ => some test
  | .seq first second, next => first.lead (second.lead next)
  | _, _ => none

def isChoice : Pattern → Bool
  | .choice _ _ => true
  | _ => false

/-! ## 3. Loops over one test -/

section One

variable (text : Array Char) (test : CharTest) (minimum : Nat) (maximum : Option Nat) (inLoop : Bool) (next : Next)

/-- Counts how far the test holds from a place, up to a number of characters, and goes on with this count if it
is not below the minimum. -/
def counted (limit : Nat) (go : Nat → Trail → Outcome) : Try := fun here t =>
  if text.size < here + minimum then ⟨false, t⟩
  else
    let count := test.sweep text limit here
    let t := t.setAside (if test.isStepwise then here + count else here)
    if count < minimum then ⟨false, t⟩ else go count t

/-- Tries the ends of a loop from the furthest to the nearest, `spare` characters before it. An end is passed
over if what follows begins with a certain character and this is not there. -/
def nearerEnds (nearest : Nat) : (spare : Nat) → Trail → Outcome
  | spare, t =>
    let here := nearest + spare
    let isHopeless :=
      match next.lead.bind CharTest.literal? with
      | some code => text[here]?.map Char.toNat != some code
      | none => false
    let tried := if isHopeless then ⟨false, t⟩ else next.go.revocable inLoop here t
    match spare with
    | 0 => tried
    | spare + 1 => tried.orElse (nearerEnds nearest spare)

/-- Tries the ends of a loop from the nearest on, as far as the test holds for `ahead` characters. -/
def furtherEnds : (ahead count here : Nat) → Trail → Outcome
  | ahead, count, here, t =>
    (next.go.revocable inLoop here t).orElse fun t =>
      let t := t.setAside here
      match ahead with
      | 0 => ⟨false, t⟩
      | ahead + 1 =>
        let t := if test.isStepwise then t.setAside (here + 1) else t
        if maximum.all fun m => decide (count < m) then furtherEnds ahead (count + 1) (here + 1) t
        else ⟨false, t⟩

/-- A loop over one test. -/
def runOneLoop (greed : Greed) : Try := fun here t =>
  match greed with
  | .greedy =>
    counted text test minimum (reach text maximum here)
      (fun count t => nearerEnds text inLoop next (here + minimum) (count - minimum) t) here t
  | .lazy =>
    counted text test minimum minimum
      (fun _ t =>
        let nearest := here + minimum
        furtherEnds test maximum inLoop next (test.sweep text (text.size - nearest) nearest) minimum nearest t)
      here t
  | .possessive =>
    counted text test minimum (reach text maximum here) (fun count t => next.go (here + count) t) here t

end One

/-! ## 4. Loops over any body -/

/-- Whether one more round may start: the maximum is not reached, and the last counted round did not start
here as well. -/
def mayRepeat (maximum : Option Nat) (count : Nat) (last : Option Nat) (here : Nat) : Bool :=
  (maximum.all fun m => decide (count < m)) && last != some here

section Rounds

variable (body : Try → Try) (minimum : Nat) (maximum : Option Nat) (inLoop : Bool) (next : Next)

/-- As many rounds as possible first, then fewer. -/
def greedyRounds : (fuel count : Nat) → (last : Option Nat) → Try
  | 0, _, _, _, t => ⟨false, t⟩
  | fuel + 1, count, last, here, t =>
    let round (last : Option Nat) : Try := body (greedyRounds fuel (count + 1) last)
    let enough (t : Trail) : Outcome := next.go here (t.setAside here)
    Outcome.elseAside
      (if count < minimum then round last here (t.setAside here)
      else if mayRepeat maximum count last here then
        ((round (some here)).revocable true here t).orElse enough
      else enough t)
      here

/-- As few rounds as possible first, then more. -/
def lazyRounds : (fuel count : Nat) → (last : Option Nat) → Try
  | 0, _, _, _, t => ⟨false, t⟩
  | fuel + 1, count, last, here, t =>
    let round (last : Option Nat) (t : Trail) : Outcome :=
      body (lazyRounds fuel (count + 1) last) here (t.setAside here)
    Outcome.elseAside
      (if count < minimum then round last t
      else
        (next.go.revocable inLoop here t).orElse fun t =>
          if mayRepeat maximum count last here then round (some here) t else ⟨false, t⟩)
      here

/-- The rounds that a possessive loop needs, each taken in its first way. -/
def neededRounds (start : Nat) : (left : Nat) → Trail → Outcome
  | 0, t => ⟨true, t⟩
  | left + 1, t =>
    ((body .stop t.bookmark t).andThen (neededRounds start left)).elseAside start

/-- Further rounds of a possessive loop, each taken in its first way. The place where they end is the bookmark, and
after a round that failed this is the place that the round set aside last: of such a round the marks are taken back,
and the bookmark is not. -/
def furtherRounds : (fuel count : Nat) → (last : Option Nat) → Trail → Trail
  | 0, _, _, t => t
  | fuel + 1, count, last, t =>
    if mayRepeat maximum count last t.bookmark then
      match body .stop t.bookmark t with
      | ⟨true, t'⟩ => furtherRounds fuel (count + 1) (some t.bookmark) t'
      | ⟨false, t'⟩ => t'.restored true t.marks
    else t

/-- A loop over a body that is more than a test. -/
def runLoop (text : Array Char) (greed : Greed) : Try := fun here t =>
  let fuel := minimum + text.size + 3
  let t := t.setAside here
  match greed with
  | .greedy => greedyRounds body minimum maximum next fuel 0 none here t
  | .lazy => lazyRounds body minimum maximum inLoop next fuel 0 none here t
  | .possessive =>
    (neededRounds body here minimum t).andThen fun t =>
      let t := furtherRounds body maximum fuel minimum none t
      next.go t.bookmark t

end Rounds

/-! ## 5. All patterns -/

/-- The first way, in order of preference, to consume input from a place so that what follows succeeds. -/
def run (text : Array Char) : Pattern → (inLoop : Bool) → Next → Try
  | .empty, _, next => next.go
  | .one test, _, next => fun here t => if test.isAt text here then next.go (here + 1) t else ⟨false, t⟩
  | .anchor place, _, next => fun here t => if place.isAt text here then next.go here t else ⟨false, t⟩
  | .seq first second, inLoop, next => run text first inLoop ⟨run text second inLoop next, second.lead next.lead⟩
  | .choice first second, inLoop, next => fun here t =>
    let branch (p : Pattern) (go : Try) (t : Trail) : Outcome :=
      let isHopeless :=
        match p.lead none with
        | some test => test.isForeseen && !test.isAt text here
        | none => false
      if isHopeless then ⟨false, t⟩ else go.revocable inLoop here t
    let next : Next := ⟨next.go, none⟩
    (branch first (run text first inLoop next) t).orElse fun t =>
      if second.isChoice then run text second inLoop next here t
      else branch second (run text second inLoop next) t
  | .group index body, inLoop, next => fun here t =>
    run text body inLoop ⟨fun there t => next.go there (t.mark (2 * index - 1) there), none⟩ here
      (t.mark (2 * index - 2) here)
  | .loop greed minimum maximum body, inLoop, next =>
    match body with
    | .one test => runOneLoop text test minimum maximum inLoop next greed
    | _ =>
      let inBody := greed != .possessive || inLoop
      runLoop (fun go => run text body inBody ⟨go, none⟩) minimum maximum inLoop next text greed
  | .look behind wanted body, inLoop, next => fun here t =>
    if here < behind then if wanted then ⟨false, t⟩ else next.go here t
    else
      let seen := run text body inLoop ⟨.stop, none⟩ (here - behind) (t.setAside (here - behind))
      if wanted then seen.andThen (next.go here)
      else if seen.succeeds then ⟨false, seen.trail⟩
      else next.go here (seen.trail.restored inLoop t.marks)
  | .atomic body, inLoop, next => fun here t =>
    ((run text body inLoop ⟨.stop, none⟩ here (t.setAside here)).elseAside here).andThen fun t =>
      next.go t.bookmark t
  | .again index rule, _, next => fun here t =>
    match t.captured? index with
    | none => ⟨false, t⟩
    | some (first, last) =>
      let count := last - first
      if comesAgain text rule count first here then next.go (here + count) t else ⟨false, t⟩
  | .given index thenBody elseBody, inLoop, next => fun here t =>
    if (t.captured? index).isSome then
      let next : Next := match elseBody with
        | .empty => next
        | _ => ⟨next.go, none⟩
      run text thenBody inLoop next here t
    else run text elseBody inLoop next here t

end Pattern

/-! ## 6. Whole patterns -/

/-- A pattern that has been read as a whole. -/
structure Program where
  body : Pattern
  /-- the least number of characters that it consumes -/
  least : Nat

/-- The number of characters that the pattern consumes at the start of a text, if it matches there. A match in
which a group has ended before it began cannot be told. -/
def Program.width? (p : Program) (text : List Char) : Except Fault (Option Nat) :=
  if text.length < p.least then .ok none
  else
    match p.body.run text.toArray false ⟨.stop, none⟩ 0 .start with
    | ⟨false, _⟩ => .ok none
    | ⟨true, t⟩ => if Trail.isOrdered t.marks then .ok (some t.bookmark) else .error .crossedGroup

end Descent
