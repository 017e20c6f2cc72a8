import Descent.Grammar.Build
import Descent.Matcher.Fixed
import Descent.Transform

/-!
# Grammars as data

A `Blueprint` describes a matcher, a rule or anything else that may stand where an operand is wanted, so that a
grammar can be stored and sent. Building one runs the combinators in the order in which the description lists
its parts, so the first part that cannot be built decides the fault. Where a description asks for a rule by
name, it gets that very rule.
-/

namespace Descent

/-- A description of an operand. -/
inductive Blueprint where
  -- operands
  | text (text : String)
  | absent
  | other (kind : String)
  -- matchers
  | literal (text : String) (caseSensitive : Bool)
  | regex (text : String) (caseSensitive : Bool)
  | charsOf (chars : String) (label : Option String)
  | charRange (low high : String) (label : Option String)
  | charProperty (property : CharProperty) (label : String) (negated : Bool)
  | charClass (members : CharClass)
  | endOfInput
  | complement (inner : Blueprint)
  | optionalMatch (inner : Blueprint)
  | manyMatches (inner : Blueprint)
  | zeroOrMoreMatches (inner : Blueprint)
  | fixed (start stop : Int)
  -- rules of one match
  | token (inner : Blueprint) (transform : Option NamedTransform)
  | capture (inner : Blueprint)
  | ignore (inner : Blueprint)
  | value (inner : Blueprint) (constant : Value FixedMatcher)
  | oneOf (matchers : List Blueprint)
  -- combinations; `chained` says that the first operand is coerced before the others are looked at
  | rule (inner : Blueprint)
  | sequence (parts : List Blueprint)
  | sequenceSkipping (parts : List Blueprint) (chained : Bool)
  | either (branches : List Blueprint)
  | optional (inner : Blueprint) (default : Value FixedMatcher)
  | repeated (inner : Blueprint) (minimum : Int) (attempt : Option Blueprint)
  | repeatedSkipping (inner : Blueprint) (minimum : Int)
  | separated (inner separator : Blueprint)
  | skipping (inner : Blueprint)
  | skippingAfter (inner : Blueprint)
  | within (inner policy : Blueprint) (chained : Bool)
  | map (inner : Blueprint) (transform : NamedTransform)
  | element (inner : Blueprint) (index : Nat)
  | labelled (inner : Blueprint) (label : Option String)
  | policy (inner : Blueprint)
  -- references
  | named (name : String)
  | placeholder (label : Option String)
  | recursive (name : String) (body : Blueprint)
  /-- a hand-written rule that always succeeds or always fails -/
  | handWritten (succeeds : Bool) (advance : Int) (value : Value FixedMatcher)
      (expected whitespace : List Blueprint) (label : Option String)
  /-- the same with a derivation: it reads the expectations of some names, and then refuses or answers -/
  | handDerived (succeeds : Bool) (advance : Int) (value : Value FixedMatcher)
      (expected whitespace : List Blueprint) (label : Option String)
      (prefixes skipped : List Blueprint) (ambient : Bool) (reads : List String) (refusal : Option String)

namespace Blueprint

/-- What the rules built from blueprints match with. -/
abbrev Building := Build FixedMatcher

def ofExcept {α : Type} : Except Fault α → Building α
  | .ok a => pure a
  | .error fault => throw fault

/-- A hand-written parse function that does not look at the input. -/
def constantAnswer (succeeds : Bool) (advance : Int) (v : Value FixedMatcher)
    (expected whitespace : List (Matcher FixedMatcher)) : View → Except Fault (Answer FixedMatcher) := fun _ =>
  .ok (if succeeds then .parsed advance v else .failed advance expected whitespace)

mutual

/-- Builds what a blueprint describes. -/
def build : Blueprint → Building (Operand FixedMatcher)
  | .text s => return .text s
  | .absent => return .absent
  | .other kind => return .other kind
  | .literal s caseSensitive => return .matcher (.literal s caseSensitive)
  | .regex s caseSensitive => do return .matcher (.regex (← ofExcept (Regex.ofText s caseSensitive)))
  | .charsOf chars label => return .matcher (.charClass (.ofText chars label))
  | .charRange low high label => do return .matcher (.charClass (← ofExcept (CharClass.range low high label)))
  | .charProperty property label negated =>
    return .matcher (.charClass (.ofProperty property label negated))
  | .charClass members => return .matcher (.charClass members)
  | .endOfInput => return .matcher .endOfInput
  | .complement inner => do
    let m ← Build.asMatcher (← build inner)
    return .matcher (← ofExcept m.complement)
  | .optionalMatch inner => do return .matcher (.optional (← Build.asMatcher (← build inner)))
  | .manyMatches inner => do return .matcher (.many (← Build.asMatcher (← build inner)))
  | .zeroOrMoreMatches inner => do return .matcher (.zeroOrMore (← Build.asMatcher (← build inner)))
  | .fixed start stop => do return .matcher (.custom ⟨← Build.freshCustom, start, stop⟩)
  | .token inner transform => do
    return .rule (← Build.token (← build inner) (transform.map NamedTransform.transform))
  | .capture inner => do return .rule (← Build.capture (← build inner))
  | .ignore inner => do return .rule (← Build.ignore (← build inner))
  | .value inner constant => do return .rule (← Build.value (← build inner) constant)
  | .oneOf matchers => do return .rule (← Build.oneOf (← buildAll matchers))
  | .rule inner => do return .rule (← Build.asRule (← build inner))
  | .sequence parts => do return .rule (← Build.sequence (← buildAll parts))
  | .sequenceSkipping parts chained => do
    match ← buildAll parts with
    | head :: tail =>
      let head ← if chained then pure (.rule (← Build.asRule head)) else pure head
      return .rule (← Build.sequenceSkipping (head :: tail))
    | [] => return .rule (← Build.sequenceSkipping [])
  | .either branches => do return .rule (← Build.either (← buildAll branches))
  | .optional inner default => do return .rule (← Build.optional (← build inner) default)
  | .repeated inner minimum none => do return .rule (← Build.repeated (← build inner) minimum none)
  | .repeated inner minimum (some attempt) => do
    let attempt ← Build.asRule (← build attempt)
    return .rule (← Build.repeated (← build inner) minimum (some attempt))
  | .repeatedSkipping inner minimum => do
    return .rule (← Build.repeatedSkipping (← build inner) minimum)
  | .separated inner separator => do
    let inner ← build inner
    return .rule (← Build.separated inner (← build separator))
  | .skipping inner => do return .rule (← Build.skipping (← build inner))
  | .skippingAfter inner => do return .rule (← Build.skippingAfter (← build inner))
  | .within inner skipped chained => do
    let inner ← build inner
    let inner ← if chained then pure (.rule (← Build.asRule inner)) else pure inner
    return .rule (← Build.within inner (← build skipped))
  | .map inner transform => do
    return .rule (← Build.map (← Build.asRule (← build inner)) transform.transform)
  | .element inner index => do
    return .rule (← Build.map (← Build.asRule (← build inner)) (Value.element index))
  | .labelled inner label => do
    let id ← Build.asRule (← build inner)
    Build.relabel id label
    return .rule id
  | .policy inner => do
    match ← Build.policy (← build inner) with
    | some id => return .rule id
    | none => return .absent
  | .named name => Build.named name
  | .placeholder label => do return .rule (← Build.placeholder label)
  | .recursive name body => do
    return .rule (← Build.recursive fun this => do
      Build.bind name (.rule this)
      build body)
  | .handWritten succeeds advance v expected whitespace label => do
    let expected ← (← buildAll expected).mapM Build.asMatcher
    let whitespace ← (← buildAll whitespace).mapM Build.asMatcher
    return .rule (← Build.add label
      (.handWritten (constantAnswer succeeds advance v expected whitespace) none))
  | .handDerived succeeds advance v expected whitespace label prefixes skipped ambient reads refusal => do
    let expected ← (← buildAll expected).mapM Build.asMatcher
    let whitespace ← (← buildAll whitespace).mapM Build.asMatcher
    let prefixes ← (← buildAll prefixes).mapM Build.asMatcher
    let skipped ← (← buildAll skipped).mapM Build.asMatcher
    let conclude : List (Expectation FixedMatcher) → Except Fault (Expectation FixedMatcher) := fun _ =>
      match refusal with
      | some reason => .error (.refused reason)
      | none => .ok ⟨prefixes, skipped, ambient⟩
    return .rule (← Build.add label
      (.handWritten (constantAnswer succeeds advance v expected whitespace) (some ⟨reads, conclude⟩)))

def buildAll : List Blueprint → Building (List (Operand FixedMatcher))
  | [] => return []
  | b :: bs => do
    let o ← build b
    return o :: (← buildAll bs)

end

def buildMatcher (b : Blueprint) : Building (Matcher FixedMatcher) := do
  Build.asMatcher (← b.build)

def buildMatchers (bs : List Blueprint) : Building (List (Matcher FixedMatcher)) := bs.mapM buildMatcher

def buildRule (b : Blueprint) : Building RuleId := do Build.asRule (← b.build)

def buildPolicy (b : Blueprint) : Building (Option RuleId) := do Build.policy (← b.build)

/-- Builds what is described and gives it a name. -/
def define (name : String) (b : Blueprint) : Building Unit := do Build.bind name (← b.build)

end Blueprint

end Descent
