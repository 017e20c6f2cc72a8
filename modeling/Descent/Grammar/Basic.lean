import Descent.Failure

/-!
# Grammars

A grammar is a table of rules that refer to one another by number, together with names for some of them. A
table, not a tree, because rules are shared, refer back to themselves through placeholders, and have an identity
that their cached expectations belong to. Rules are only ever added; what may change about a rule afterwards is
its label, and a placeholder may be given its target once.

A hand-written rule brings its own function on windows. Such a function moves through the window by an offset
that is checked here, so it cannot leave the window. Its expectation, if it has one, may ask for those of named
rules first.
-/

namespace Descent

/-- A rule's place in its grammar. -/
abbrev RuleId := Nat

/-- What a hand-written parse function answers. It moves by a number of characters first, and then either
produces a value or says what it expected where it stands. -/
inductive Answer (κ : Type) where
  | parsed (advance : Int) (value : Value κ)
  | failed (advance : Int) (expected whitespace : List (Matcher κ))

/-- How the expectation of a hand-written rule is derived: from those of some named rules, read in order. -/
structure Derivative (κ : Type) where
  reads : List String
  conclude : List (Expectation κ) → Except Fault (Expectation κ)

/-- What a rule does. -/
inductive Body (κ : Type) where
  /-- the text of one match, transformed -/
  | token (matcher : Matcher κ) (transform : Option (Transform κ))
  /-- the window of one match -/
  | capture (matcher : Matcher κ)
  /-- all parts in a row; a tuple of their values -/
  | sequence (parts : List RuleId)
  /-- the first branch that succeeds -/
  | either (branches : List RuleId)
  /-- the first matcher that applies -/
  | oneOf (matchers : List (Matcher κ))
  /-- the inner rule, or a value in its place -/
  | optional (inner : RuleId) (default : Value κ)
  /-- one rule, then another as long as it succeeds and moves on; a list of the values -/
  | repeated (first : RuleId) (minimum : Int) (attempt : RuleId)
  | map (inner : RuleId) (transform : Transform κ)
  /-- ambient whitespace, then the inner rule -/
  | skipping (inner : RuleId)
  /-- the inner rule, then ambient whitespace -/
  | skippingAfter (inner : RuleId)
  /-- the inner rule under another whitespace policy -/
  | within (inner : RuleId) (policy : Option RuleId)
  /-- another rule, once it is known -/
  | placeholder (target : Option RuleId)
  | handWritten (run : View → Except Fault (Answer κ)) (derivative : Option (Derivative κ))

/-- A rule and the label that it shows. -/
structure Rule (κ : Type) where
  label : Option String
  body : Body κ

/-- What a combinator may be given: a rule, or something that a rule is made of, or something it cannot take. -/
inductive Operand (κ : Type) where
  | rule (id : RuleId)
  | matcher (matcher : Matcher κ)
  | text (text : String)
  /-- nothing, which is a whitespace policy but no rule -/
  | absent
  /-- a value of a kind that is no operand -/
  | other (kind : String)

/-- A table of rules, with names. -/
structure Grammar (κ : Type) where
  rules : Array (Rule κ)
  /-- the latest meaning of a name comes first -/
  names : List (String × Operand κ)
  /-- how many user-supplied matchers have been made; each is equal only to itself -/
  customs : Nat

namespace Grammar

variable {κ : Type}

def empty : Grammar κ := ⟨#[], [], 0⟩

def rule? (g : Grammar κ) (id : RuleId) : Option (Rule κ) := g.rules[id]?

def label (g : Grammar κ) (id : RuleId) : Option String := (g.rule? id).bind (·.label)

def shown (g : Grammar κ) (id : RuleId) : String := shownRule (g.label id)

def named? (g : Grammar κ) (name : String) : Option (Operand κ) :=
  (g.names.find? (·.1 == name)).map (·.2)

def namedRule? (g : Grammar κ) (name : String) : Option RuleId :=
  match g.named? name with
  | some (.rule id) => some id
  | _ => none

end Grammar

end Descent
