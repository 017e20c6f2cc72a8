import Descent.Text.Quoted

/-!
# Faults

A parse that does not match is no fault: it is a result (`Failure`). A `Fault` is what stops an operation
altogether, be it a misuse of the library, a defect of a matcher or grammar that a user supplied, or a
transform that cannot be applied. The causes are apart here, and each has one wording.
-/

namespace Descent

/-- The combinators that need an operand. -/
inductive Combinator where
  | sequence
  | sequenceSkipping
  | either
  | oneOf
  deriving DecidableEq

def Combinator.name : Combinator → String
  | .sequence => "sequence"
  | .sequenceSkipping => "sequence_skipping"
  | .either => "either"
  | .oneOf => "one_of"

/-- What a combinator takes. -/
def Combinator.operand : Combinator → String
  | .oneOf => "matcher"
  | _ => "parser"

/-- What is wrong with the notation of a pattern. -/
inductive PatternFlaw where
  | malformed
  /-- a count that is too large to be one -/
  | countTooLarge
  /-- options for the whole pattern that exclude each other -/
  | contradictoryOptions
  deriving DecidableEq

def PatternFlaw.message : PatternFlaw → String
  | .malformed => "The pattern cannot be read"
  | .countTooLarge => "the repetition number is too large"
  | .contradictoryOptions => "ASCII and UNICODE flags are incompatible"

/-- Why an operation did not end in a result. -/
inductive Fault where
  /-- a window that does not lie inside its source -/
  | viewBounds (start stop : Int) (length : Nat)
  /-- a cut outside the window -/
  | splitOffset (offset : Int) (start stop : Nat)
  | noOperands (combinator : Combinator)
  /-- a character range whose ends are not single characters -/
  | rangeEnds
  | emptyRange (low high : Char)
  /-- a derivation that the author of a rule refuses, in his words -/
  | refused (reason : String)
  | notAMatcher (kind : String)
  | notASequence
  | noSuchElement
  /-- the complement of a matcher that is not a character class -/
  | notAClass
  /-- a placeholder that was run before it stood for a rule -/
  | unresolved (label : Option String)
  /-- a placeholder that was given a second rule -/
  | resolvedTwice (label : Option String)
  /-- a remainder, shown in quotes, that is no tail of the source -/
  | foreignBuffer (remainder : String) (length : Nat)
  /-- a matcher that matched elsewhere than at the start of the window -/
  | awayFromStart (description : String)
  | badPattern (flaw : PatternFlaw)
  /-- a match in which a group ended before it began -/
  | crossedGroup
  /-- a transform that cannot be applied to its value -/
  | transform
  | notAPlaceholder
  | unknownName (name : String)
  /-- a run of a matcher that comes back to a place where it was -/
  | endlessRun
  /-- placeholders that stand for one another -/
  | endlessDerivation
  deriving DecidableEq

/-- How a rule shows itself: by its label, if it has one that is not empty. -/
def shownRule (label : Option String) : String :=
  match label with
  | none => "<Parser>"
  | some label => if label = "" then "<Parser>" else s!"<Parser {label}>"

def Fault.message : Fault → String
  | .viewBounds start stop length => s!"View bounds [{start}, {stop}) outside source of length {length}"
  | .splitOffset offset start stop => s!"Split offset {offset} outside view [{start}, {stop})"
  | .noOperands combinator =>
    s!"{combinator.name}() needs at least one {combinator.operand}"
  | .rangeEnds => "CharacterClass.range() bounds must be single characters"
  | .emptyRange low high => s!"Empty character range {Text.quoted [low]}-{Text.quoted [high]}"
  | .refused reason => reason
  | .notAMatcher kind => s!"Expected a PrefixMatcher or str, got {kind}"
  | .notASequence => "The value has no elements"
  | .noSuchElement => "The value has too few elements"
  | .notAClass => "Only a character class has a complement"
  | .unresolved label => s!"{shownRule label} was used before it was resolved"
  | .resolvedTwice label => s!"{shownRule label} is already resolved"
  | .foreignBuffer remainder length =>
    s!"Remainder {remainder} is not a suffix view of the {length}-character source"
  | .awayFromStart description => s!"{description} matched away from the view start"
  | .badPattern flaw => flaw.message
  | .crossedGroup => "A group of the pattern ended before it began"
  | .transform => "The transform cannot be applied"
  | .notAPlaceholder => "Only a placeholder has a target"
  | .unknownName name => s!"The name {name} means no rule"
  | .endlessRun => "The matcher goes round in circles"
  | .endlessDerivation => "The placeholders stand for one another"

end Descent
