import Descent.Context
import Descent.Grammar.Derivation

/-!
# Running a grammar

Rules run against a window by recursive descent with ordered choice. Windows are values, so backtracking needs
no undoing: every alternative starts from the window it was given. What a run changes is kept apart from it: the
context, with the active whitespace policy and the furthest failure, and the bookkeeping of derivations, which
diagnostics consult. Both survive a fault.

A grammar may describe a run that does not end. So a run has fuel, one unit for each rule that it is inside of,
and running out of it is an outcome of its own, neither a result nor a fault: `Stop.unfinished`. Nothing in a run
depends on how much fuel is left.

`Grammar.step` says what one rule does, given how rules are run; `Grammar.parse` ties the knot.
-/

namespace Descent

variable {κ : Type} [DecidableEq κ] [CustomMatcher κ]

/-- Why a run ended without a result. -/
inductive Stop where
  | fault (fault : Fault)
  | unfinished
  deriving DecidableEq

/-- What a run changes. -/
structure ParseState (κ : Type) where
  derivation : Derivation κ
  context : Context κ

/-- A part of a run. Its state outlives a fault. -/
abbrev Parse (κ : Type) := EStateM Stop (ParseState κ)

/-- How a rule is run against a window. -/
abbrev Runner (κ : Type) := RuleId → View → Parse κ (Result κ)

namespace Parse

def ofExcept {α : Type} : Except Fault α → Parse κ α
  | .ok a => pure a
  | .error fault => throw (.fault fault)

/-- Reads expectations within a run. -/
def ofDerive {α : Type} (x : Derive κ α) : Parse κ α := fun s =>
  match x s.derivation with
  | .ok a d => .ok a { s with derivation := d }
  | .error fault d => .error (.fault fault) { s with derivation := d }

def context : Parse κ (Context κ) := do return (← get).context

def modifyContext (f : Context κ → Context κ) : Parse κ Unit :=
  modify fun s => { s with context := f s.context }

/-- Changes the context for a part of the run and changes it back however that part ends. -/
def bracketed {α : Type} (enter : Context κ → Context κ) (leave : Context κ → Context κ → Context κ)
    (x : Parse κ α) : Parse κ α := fun s =>
  match x { s with context := enter s.context } with
  | .ok a t => .ok a { t with context := leave s.context t.context }
  | .error e t => .error e { t with context := leave s.context t.context }

def underPolicy {α : Type} (policy : Option RuleId) : Parse κ α → Parse κ α :=
  bracketed (fun c => { c with whitespace := policy }) (fun c c' => { c' with whitespace := c.whitespace })

def suspended {α : Type} : Parse κ α → Parse κ α :=
  bracketed (fun c => { c with suspended := c.suspended + 1 })
    (fun _ c' => { c' with suspended := c'.suspended - 1 })

/-- The matchers of the active whitespace policy. -/
def policyPrefixes (g : Grammar κ) : Parse κ (List (Matcher κ)) := do
  match (← context).whitespace with
  | none => return []
  | some policy => return (← ofDerive (g.expectation policy)).prefixes

/-- What is left of a window after the active policy has skipped what it can. -/
def skip (run : Runner κ) (v : View) : Parse κ View := do
  match (← context).whitespace with
  | none => return v
  | some policy =>
    match ← suspended (run policy v) with
    | .parsed _ rest => return rest
    | .failed _ => return v

def record (f : Failure κ) : Parse κ Unit := modifyContext (·.record f)

end Parse

open Parse

/-! ## 1. What bodies do -/

/-- One match, with what it leaves. -/
def Matcher.take (m : Matcher κ) (v : View) (value : View → Parse κ (Value κ)) : Parse κ (Result κ) := do
  match ← ofExcept (m.split v) with
  | none => return .failed ⟨v, [m], []⟩
  | some (matched, rest) => return .parsed (← value matched) rest

def Transform.apply (f : Transform κ) (v : Value κ) : Parse κ (Value κ) := ofExcept (f v)

/-- Runs parts one after another; `values` are those so far. -/
def runSequence (run : Runner κ) : List RuleId → List (Value κ) → View → Parse κ (Result κ)
  | [], values, rest => return .parsed (.tuple values) rest
  | part :: parts, values, rest => do
    match ← run part rest with
    | .failed f => return .failed f
    | .parsed value rest => runSequence run parts (values ++ [value]) rest

/-- Tries branches in turn; `last` is how the branch before them ended. -/
def runEither (run : Runner κ) (v : View) : List RuleId → Result κ → Parse κ (Result κ)
  | [], last => return last
  | branch :: branches, _ => do
    match ← run branch v with
    | .parsed value rest => return .parsed value rest
    | .failed f => runEither run v branches (.failed f)

/-- Tries matchers in turn. -/
def runOneOf (all : List (Matcher κ)) (v : View) : List (Matcher κ) → Parse κ (Result κ)
  | [] => return .failed ⟨v, all, []⟩
  | m :: ms => do
    match ← ofExcept (m.split v) with
    | some (_, rest) => return .parsed (.matcher m) rest
    | none => runOneOf all v ms

/-- Goes on with a repetition whose last attempt, made at `rest`, ended in `result`. Gives the values, the
window after the last of them, and how the last attempt ended. An attempt that does not move on is the last one;
every other one shortens the window. -/
def runRepeated (attempt : View → Parse κ (Result κ)) :
    Nat → List (Value κ) → View → Result κ → Parse κ (List (Value κ) × View × Result κ)
  | 0, _, _, _ => throw .unfinished
  | _ + 1, values, rest, .failed f => return (values, rest, .failed f)
  | fuel + 1, values, rest, .parsed value next => do
    if next.start = rest.start then return (values ++ [value], rest, .parsed value next)
    else runRepeated attempt fuel (values ++ [value]) next (← attempt next)

/-- Moves a window as a hand-written rule asks. -/
def Answer.place (v : View) : Answer κ → Parse κ (Result κ)
  | .parsed advance value => do
    return .parsed value (← ofExcept (v.advanceTo (v.start + advance)))
  | .failed advance expected whitespace => do
    return .failed ⟨← ofExcept (v.advanceTo (v.start + advance)), expected, whitespace⟩

/-- What a body that is no placeholder does. -/
def Body.run (g : Grammar κ) (run : Runner κ) (v : View) : Body κ → Parse κ (Result κ)
  | .token m none => m.take v fun matched => return .str matched.text
  | .token m (some f) => m.take v fun matched => f.apply (.str matched.text)
  | .capture m => m.take v fun matched => return .view matched
  | .sequence parts => runSequence run parts [] v
  | .either branches => runEither run v branches (.failed ⟨v, [], []⟩)
  | .oneOf ms => runOneOf ms v ms
  | .optional inner default => do
    match ← run inner v with
    | .parsed value rest => return .parsed value rest
    | .failed _ => return .parsed default v
  | .repeated first minimum attempt => do
    let result ← run first v
    let (values, rest, last) ← runRepeated (run attempt) (v.length + 1) [] v result
    if (values.length : Int) < minimum then return last
    else return .parsed (.list values) rest
  | .map inner f => do
    match ← run inner v with
    | .parsed value rest => return .parsed (← f.apply value) rest
    | .failed f => return .failed f
  | .skipping inner => do
    let start ← skip run v
    match ← run inner start with
    | .parsed value rest => return .parsed value rest
    | .failed f =>
      if f.offset = start.start && (← context).whitespace.isSome then
        return .failed ⟨f.rest, f.expected, orderedUnion f.whitespace (← policyPrefixes g)⟩
      else return .failed f
  | .skippingAfter inner => do
    match ← run inner v with
    | .parsed value rest => return .parsed value (← skip run rest)
    | .failed f => return .failed f
  | .within inner policy => underPolicy policy (run inner v)
  | .placeholder _ => throw (.fault (.unresolved none))
  | .handWritten answer _ => do (← ofExcept (answer v)).place v

/-! ## 2. What rules do -/

namespace Grammar

/-- A failure as a rule reports it: one where the rule began says first what the rule expects there. -/
def stamped (g : Grammar κ) (id : RuleId) (v : View) (f : Failure κ) : Parse κ (Failure κ) := do
  if f.offset = v.start then
    let e ← ofDerive (g.expectation id)
    let whitespace ←
      if e.ambient then pure (orderedUnion e.whitespace (← policyPrefixes g)) else pure e.whitespace
    return ⟨f.rest, orderedUnion e.prefixes f.expected, orderedUnion whitespace f.whitespace⟩
  else return f

/-- What a rule does: its body runs, and a failure is stamped and offered to the context. A placeholder is its
target, and no rule of its own. -/
def step (g : Grammar κ) (run : Runner κ) (id : RuleId) (v : View) : Parse κ (Result κ) := do
  match g.rule? id with
  | none => throw (.fault (.unresolved none))
  | some ⟨label, .placeholder none⟩ => throw (.fault (.unresolved label))
  | some ⟨_, .placeholder (some target)⟩ => run target v
  | some rule =>
    match ← rule.body.run g run v with
    | .parsed value rest => return .parsed value rest
    | .failed f =>
      let f ← g.stamped id v f
      record f
      return .failed f

/-- Runs a rule against a window. -/
def parse (g : Grammar κ) : Nat → Runner κ
  | 0, _, _ => throw .unfinished
  | fuel + 1, id, v => g.step (g.parse fuel) id v

end Grammar

end Descent
