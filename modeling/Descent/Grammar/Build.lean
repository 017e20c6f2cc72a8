import Descent.Grammar.Basic

/-!
# Building grammars

Each combinator adds a rule to a grammar and answers with its place. Operands are coerced on the way: a matcher
or a text where a rule is needed becomes a token. A combinator that cannot take its operands ends in a fault; what
it has added until then stays in the grammar, where nothing refers to it.

A rule that stands for one match is labelled by the matcher's description, and a rule that only wraps another one
takes over the label which that has at the time.
-/

namespace Descent

variable {κ : Type} [CustomMatcher κ]

/-- A step of building a grammar. -/
abbrev Build (κ : Type) := EStateM Fault (Grammar κ)

namespace Build

def add (label : Option String) (body : Body κ) : Build κ RuleId :=
  modifyGet fun g => (g.rules.size, { g with rules := g.rules.push ⟨label, body⟩ })

def labelOf (id : RuleId) : Build κ (Option String) := do return (← get).label id

/-- What messages call the kind of an operand. -/
def kindOf (o : Operand κ) : Build κ String := do
  match o with
  | .rule id =>
    match (← get).rule? id with
    | some ⟨_, .placeholder _⟩ => return "Deferred"
    | _ => return "Parser"
  | .matcher m => return m.description
  | .text _ => return "str"
  | .absent => return "NoneType"
  | .other kind => return kind

/-! ## 1. Coercions -/

/-- A matcher, or the literal of a text. -/
def asMatcher (o : Operand κ) : Build κ (Matcher κ) := do
  match o with
  | .matcher m => return m
  | .text text => return .literal text true
  | _ => throw (.notAMatcher (← kindOf o))

/-- The text of one match, transformed if asked. -/
def token (o : Operand κ) (transform : Option (Transform κ)) : Build κ RuleId := do
  let m ← asMatcher o
  add (some m.description) (.token m transform)

/-- A rule, or the token of a matcher or text. -/
def asRule (o : Operand κ) : Build κ RuleId := do
  match o with
  | .rule id => return id
  | o => token o none

/-! ## 2. Single matches -/

def capture (o : Operand κ) : Build κ RuleId := do
  let m ← asMatcher o
  add (some m.description) (.capture m)

def value (o : Operand κ) (constant : Value κ) : Build κ RuleId :=
  token o (some fun _ => .ok constant)

def ignore (o : Operand κ) : Build κ RuleId := value o .none

def oneOf (os : List (Operand κ)) : Build κ RuleId := do
  if os.isEmpty then throw (.noOperands .oneOf)
  let ms ← os.mapM asMatcher
  add none (.oneOf ms)

/-! ## 3. Combinations -/

def sequence (os : List (Operand κ)) : Build κ RuleId := do
  if os.isEmpty then throw (.noOperands .sequence)
  let parts ← os.mapM asRule
  add none (.sequence parts)

def either (os : List (Operand κ)) : Build κ RuleId := do
  if os.isEmpty then throw (.noOperands .either)
  let branches ← os.mapM asRule
  add none (.either branches)

def optional (o : Operand κ) (default : Value κ) : Build κ RuleId := do
  let inner ← asRule o
  add none (.optional inner default)

/-- The operand, and then another rule, or the operand itself, as long as that succeeds and moves on. -/
def repeated (o : Operand κ) (minimum : Int) (attempt : Option RuleId) : Build κ RuleId := do
  let first ← asRule o
  add none (.repeated first minimum (attempt.getD first))

def zeroOrMore (o : Operand κ) : Build κ RuleId := repeated o 0 none

def oneOrMore (o : Operand κ) : Build κ RuleId := repeated o 1 none

def map (inner : RuleId) (transform : Transform κ) : Build κ RuleId := do
  add (← labelOf inner) (.map inner transform)

def first (inner : RuleId) : Build κ RuleId := map inner (Value.element 0)

def second (inner : RuleId) : Build κ RuleId := map inner (Value.element 1)

/-! ## 4. Whitespace -/

/-- What stands for a whitespace policy: a rule as it is, nothing for no skipping, and a matcher or text as a
match without a value. A matcher that can take a whole run of itself takes the run. -/
def policy (o : Operand κ) : Build κ (Option RuleId) := do
  match o with
  | .absent => return none
  | .rule id => return some id
  | .matcher (.many m) => return some (← ignore (.matcher (.many m)))
  | .matcher m =>
    return some (← ignore (.matcher (if m.supportsMany then .many m else m)))
  | o => return some (← ignore o)

def skipping (o : Operand κ) : Build κ RuleId := do
  let inner ← asRule o
  add (← labelOf inner) (.skipping inner)

def skippingAfter (o : Operand κ) : Build κ RuleId := do
  let inner ← asRule o
  add (← labelOf inner) (.skippingAfter inner)

def within (o : Operand κ) (skipped : Operand κ) : Build κ RuleId := do
  let inner ← asRule o
  let skipped ← policy skipped
  add (← labelOf inner) (.within inner skipped)

/-- All operands in a row, with ambient whitespace between them. -/
def sequenceSkipping (os : List (Operand κ)) : Build κ RuleId := do
  match os with
  | [] => throw (.noOperands .sequenceSkipping)
  | head :: tail =>
    let tail ← tail.mapM skipping
    sequence (head :: tail.map .rule)

/-- A repetition with ambient whitespace before every attempt but the first. -/
def repeatedSkipping (o : Operand κ) (minimum : Int) : Build κ RuleId := do
  let first ← asRule o
  let attempt ← skipping (.rule first)
  repeated (.rule first) minimum (some attempt)

/-- One or more operands with separators between them, and ambient whitespace around those. -/
def separated (o separator : Operand κ) : Build κ RuleId := do
  let item ← asRule o
  let next ← second (← sequenceSkipping [separator, .rule item])
  let tail ← zeroOrMore (.rule (← skipping (.rule next)))
  map (← sequence [.rule item, .rule tail]) Value.consed

/-! ## 5. References -/

def relabel (id : RuleId) (label : Option String) : Build κ Unit :=
  modify fun g => { g with rules := g.rules.modify id fun rule => { rule with label } }

/-- A rule that stands for one that is not known yet. -/
def placeholder (label : Option String) : Build κ RuleId := add label (.placeholder none)

/-- Gives a placeholder its target. That is done once. -/
def resolve (id target : RuleId) : Build κ Unit := do
  match (← get).rule? id with
  | some ⟨label, .placeholder (some _)⟩ => throw (.resolvedTwice label)
  | some ⟨_, .placeholder none⟩ =>
    modify fun g =>
      { g with rules := g.rules.modify id fun rule => { rule with body := .placeholder (some target) } }
  | _ => throw .notAPlaceholder

def bind (name : String) (o : Operand κ) : Build κ Unit :=
  modify fun g => { g with names := (name, o) :: g.names }

def named (name : String) : Build κ (Operand κ) := do
  match (← get).named? name with
  | some o => return o
  | none => throw (.unknownName name)

/-- A rule that may refer to itself: `body` builds it from a placeholder for it. The placeholder takes over the
label of the rule, unless it has one. -/
def recursive (body : RuleId → Build κ (Operand κ)) : Build κ RuleId := do
  let this ← placeholder none
  let target ← asRule (← body this)
  resolve this target
  match ← labelOf target with
  | none => pure ()
  | some label =>
    if label ≠ "" && (← labelOf this).isNone then relabel this (some label)
  return target

/-- A number that no user-supplied matcher has had. -/
def freshCustom : Build κ Nat :=
  modifyGet fun g => (g.customs, { g with customs := g.customs + 1 })

end Build

end Descent
