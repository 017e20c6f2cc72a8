import Descent.Text.Blank
import Descent.Text.Case
import Descent.Text.Letter
import Descent.Text.Numeral

/-!
# Patterns

A `Pattern` is a regular expression after its notation has been read: tests of single characters, anchors,
sequences, ordered choices, loops, groups and assertions. Two things are settled when a pattern is built and
are no longer state of a match: which options (ignoring case, lines, ASCII classes) apply at each place, and
how far a look-behind steps back.

The tests of a single character are sets. A plain character is a set of one, "any character" is the complement
of a set, so the matcher has one way to consume input.
-/

namespace Descent

/-! ## 1. Tests of one character -/

/-- How a test compares letters: as they are, or after lowering the input character, in the ASCII range or in
all of Unicode. -/
inductive CaseRule where
  | exact
  | ascii
  | full
  deriving DecidableEq

/-- The lower case form of an ASCII letter; all else stays as it is. -/
def lowerAscii (code : Nat) : Nat :=
  if 65 ≤ code && code ≤ 90 then code + 32 else code

/-- Whether the rule says of a character more than that it equals itself. -/
def CaseRule.matters : CaseRule → Nat → Bool
  | .exact, _ => false
  | .ascii, code => (65 ≤ code && code ≤ 90) || (97 ≤ code && code ≤ 122)
  | .full, code => Text.changesCase code

/-- What a test sees of an input character. -/
def CaseRule.lowered : CaseRule → Nat → Nat
  | .exact, code => code
  | .ascii, code => lowerAscii code
  | .full, code => Text.lower code

/-- The classes that a pattern can name by an escape. -/
inductive CharCategory where
  | digit
  | blank
  | word
  deriving DecidableEq

/-- An underscore, a letter or a numeral: what a word is made of. -/
def isWordCode (asciiOnly : Bool) (code : Nat) : Bool :=
  if asciiOnly then
    (48 ≤ code && code ≤ 57) || (65 ≤ code && code ≤ 90) || (97 ≤ code && code ≤ 122) || code == 95
  else
    Text.isLetter code || Text.isNumeral code || code == 95

/-- Membership in a named class; with `asciiOnly` the class keeps its ASCII part alone. -/
def CharCategory.contains (asciiOnly : Bool) : CharCategory → Nat → Bool
  | .digit, code => if asciiOnly then 48 ≤ code && code ≤ 57 else Text.isDecimalDigit code
  | .blank, code => if asciiOnly then (9 ≤ code && code ≤ 13) || code == 32 else Text.isBlank code
  | .word, code => isWordCode asciiOnly code

/-- A member of a character set as it is written. -/
inductive CharItem where
  | code (code : Nat)
  | range (low high : Nat)
  | category (named : CharCategory) (negated : Bool)
  deriving DecidableEq

/-- The largest code point of the basic plane. Caseless sets treat members beyond it apart. -/
def lastBasicCode : Nat := 0xFFFF

/-- The code points whose lower case form is `code`. -/
def lowerSources (code : Nat) : List Nat :=
  (if Text.lower code == code then [code] else []) ++
    Text.lowerShifts.filterMap fun s =>
      let source := ((code : Int) - s.distance).toNat
      if s.moved.contains source && Text.lower source == code then some source else none

/-- Whether a lowered input character equals one member of a set. Up to the end of the basic plane a member
stands for its lower case form and the variants of that; beyond it, for itself. -/
def CaseRule.equals : CaseRule → Nat → Nat → Bool
  | .exact, member, seen => seen == member
  | .ascii, member, seen => seen == if member ≤ lastBasicCode then lowerAscii member else member
  | .full, member, seen =>
    if member ≤ lastBasicCode then
      seen == Text.lower member || (Text.lowerVariants (Text.lower member)).contains seen
    else seen == member

/-- Whether a lowered input character lies in a range. In the basic plane it does if it equals some member of
the range; a range that reaches further also holds what lies between its ends, itself or in upper case. -/
def CaseRule.within (rule : CaseRule) (low high seen : Nat) : Bool :=
  let beyond := lastBasicCode < high &&
    ((low ≤ seen && seen ≤ high) || (low ≤ Text.upper seen && Text.upper seen ≤ high))
  let basic (source : Nat) : Bool := low ≤ source && source ≤ high && source ≤ lastBasicCode
  match rule with
  | .exact => low ≤ seen && seen ≤ high
  | .ascii =>
    (lowerAscii seen == seen && basic seen) ||
      (97 ≤ seen && seen ≤ 122 && basic (seen - 32)) || beyond
  | .full => (seen :: Text.lowerVariants seen).any (fun code => (lowerSources code).any basic) || beyond

/-- Whether the rule matters for some member that an item describes. Members beyond the basic plane always count
as such. -/
def CharItem.mindsCase (rule : CaseRule) : CharItem → Bool
  | .code member => lastBasicCode < member || rule.matters member
  | .range low high =>
    lastBasicCode < high ||
      match rule with
      | .exact => false
      | .ascii => (low ≤ 90 && 65 ≤ high) || (low ≤ 122 && 97 ≤ high)
      | .full => Text.someChangesCase low high
  | .category _ _ => false

/-- A test of one character: membership in a set, or in its complement. -/
structure CharTest where
  negated : Bool
  items : List CharItem
  caseRule : CaseRule
  asciiOnly : Bool
  deriving DecidableEq

/-- Whether a lowered input character is what one item of a set describes. -/
def CharItem.holds (rule : CaseRule) (asciiOnly : Bool) (seen : Nat) : CharItem → Bool
  | .code member => rule.equals member seen
  | .range low high => rule.within low high seen
  | .category named negated => named.contains asciiOnly seen != negated

namespace CharTest

/-- One given character, or any other. A letter is compared up to case if the rule matters for it, and then in
its lower case form. -/
def ofCode (negated : Bool) (code : Nat) (rule : CaseRule) (asciiOnly : Bool) : CharTest :=
  let rule := if rule.matters code then rule else .exact
  ⟨negated, [.code (rule.lowered code)], rule, asciiOnly⟩

/-- A set or its complement. Its members are compared up to case if the rule matters for one of them. -/
def ofItems (negated : Bool) (items : List CharItem) (rule : CaseRule) (asciiOnly : Bool) : CharTest :=
  ⟨negated, items, if rule != .exact && items.any (·.mindsCase rule) then rule else .exact, asciiOnly⟩

/-- Any character, or any but a line feed. -/
def anyChar (lineFeedToo : Bool) : CharTest := ⟨true, if lineFeedToo then [] else [.code 10], .exact, false⟩

def accepts (t : CharTest) (c : Char) : Bool :=
  t.items.any (·.holds t.caseRule t.asciiOnly (t.caseRule.lowered c.toNat)) != t.negated

/-- The one character that passes, if the test asks for one as it is. -/
def literal? (t : CharTest) : Option Nat :=
  match t.caseRule, t.negated, t.items with
  | .exact, false, [.code code] => some code
  | _, _, _ => none

/-- Whether a choice puts the test to the next character before it enters a branch that begins with it. It does
so for a character and for a set, both as they are, and neither for "any character" nor for "any but this". -/
def isForeseen (t : CharTest) : Bool :=
  t.caseRule == .exact &&
    match t.items, t.negated with
    | [], _ => false
    | [.code _], true => false
    | _, _ => true

/-- Whether a loop over the test takes its rounds as tries of their own, and not in one sweep: sets up to case
are tested so, and letters that have more than two forms. -/
def isStepwise (t : CharTest) : Bool :=
  match t.caseRule, t.items with
  | .exact, _ => false
  | .ascii, [.code _] => false
  | .full, [.code code] => !(Text.lowerVariants code).isEmpty
  | _, _ => true

end CharTest

/-! ## 2. The tree -/

/-- Places of a text that a pattern can ask for without consuming anything. -/
inductive Anchor where
  /-- before the first character -/
  | textStart
  /-- before the first character, or after a line feed -/
  | lineStart
  /-- at the end, or before a line feed that is the last character -/
  | textEnd
  /-- at the end, or before a line feed -/
  | lineEnd
  /-- at the end -/
  | absoluteEnd
  /-- between a word character and another or the edge of the text -/
  | wordEdge (asciiOnly : Bool)
  /-- anywhere in a text that is not empty but at a word's edge -/
  | insideOrOutside (asciiOnly : Bool)
  deriving DecidableEq

/-- Which number of rounds a loop tries first, and whether it takes fewer or more on demand. -/
inductive Greed where
  | greedy
  | lazy
  | possessive
  deriving DecidableEq

/-- A regular expression with every option resolved. -/
inductive Pattern where
  | empty
  | one (test : CharTest)
  | anchor (place : Anchor)
  | seq (first second : Pattern)
  | choice (first second : Pattern)
  /-- remembers what its body consumed, under a number from 1 -/
  | group (index : Nat) (body : Pattern)
  | loop (greed : Greed) (minimum : Nat) (maximum : Option Nat) (body : Pattern)
  /-- looks at what follows after stepping back `behind` characters -/
  | look (behind : Nat) (wanted : Bool) (body : Pattern)
  /-- its body, without a second try once it has matched -/
  | atomic (body : Pattern)
  /-- the text that a group consumed last -/
  | again (index : Nat) (caseRule : CaseRule)
  /-- one of two bodies, by whether a group has matched -/
  | given (index : Nat) (thenBody elseBody : Pattern)

end Descent
