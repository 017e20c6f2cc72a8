import Descent.Blueprint
import Descent.Grammar.Parse
import Descent.Journal
import Descent.Report

/-!
# Requests

A session holds what outlives a parse: a grammar that may still grow, the expectations derived from it, a
context, and the messages logged. `Session.parseToEnd` is the library's main request, a parse of a whole input:
it anchors a rule to the end of the input, runs it under a policy, and turns a failure into a report. The other
requests use the parts of the library one by one.

A request that ends in a problem leaves the session as it was when the problem arose; the next one goes on from
there.
-/

namespace Descent

/-- Why a request was not answered. -/
inductive Problem where
  | fault (fault : Fault)
  /-- the input does not match in full -/
  | rejected (error : ParseError)
  | unfinished
  deriving DecidableEq

/-- What outlives a parse. -/
structure Session (κ : Type) where
  grammar : Grammar κ
  derivation : Derivation κ
  context : Context κ
  /-- messages, in the order in which they were logged -/
  journal : List String

/-- A request to a session. -/
abbrev Request (κ : Type) := EStateM Problem (Session κ)

/-- How deep a run may go before it counts as one without end. -/
def runDepth : Nat := 1000000

namespace Session

variable {κ : Type} [DecidableEq κ] [CustomMatcher κ]

def fresh : Session κ := ⟨.empty, .fresh, .fresh none 0, []⟩

def building {α : Type} (x : Build κ α) : Request κ α := fun s =>
  match x s.grammar with
  | .ok a g => .ok a { s with grammar := g }
  | .error fault g => .error (.fault fault) { s with grammar := g }

def parsing {α : Type} (x : Parse κ α) : Request κ α := fun s =>
  match x ⟨s.derivation, s.context⟩ with
  | .ok a t => .ok a { s with derivation := t.derivation, context := t.context }
  | .error (.fault fault) t =>
    .error (.fault fault) { s with derivation := t.derivation, context := t.context }
  | .error .unfinished t => .error .unfinished { s with derivation := t.derivation, context := t.context }

def ofExcept {α : Type} : Except Fault α → Request κ α
  | .ok a => pure a
  | .error fault => throw (.fault fault)

def modifyContext (f : Context κ → Context κ) : Request κ Unit :=
  modify fun s => { s with context := f s.context }

/-- Logs a message, if the context's verbosity reaches its level. -/
def log (level : Int) (message : String) : Request κ Unit :=
  modify fun s =>
    if Journal.admits (some s.context.verbosity) level then { s with journal := s.journal ++ [message] } else s

/-- A request after which another one is made however it ends. -/
def afterwards {α : Type} (x : Request κ α) (last : Request κ Unit) : Request κ α := fun s =>
  match x s with
  | .ok a s =>
    match last s with
    | .ok _ s => .ok a s
    | .error e s => .error e s
  | .error e s =>
    match last s with
    | .ok _ s => .error e s
    | .error e s => .error e s

/-! ## 1. Whole inputs -/

/-- A rule between ambient whitespace and the end of the input; its value is that of the rule. -/
def anchored (top : RuleId) : Build κ RuleId := do
  let body ← Build.skipping (.rule top)
  let last ← Build.skipping (.rule (← Build.token (.matcher .endOfInput) none))
  Build.first (← Build.sequence [.rule body, .rule last])

/-- Parses the whole of a source with a rule, under a policy. The context has its own policy again afterwards. -/
def parseUnder (settings : Settings) (top : RuleId) (policy : Option RuleId) (source : Source) :
    Request κ (Value κ) := do
  let anchor ← building (anchored top)
  log 2 s!"Parsing {source.length} characters with {(← get).grammar.shown top}"
  let g := (← get).grammar
  let result ← afterwards
    (parsing (Parse.underPolicy policy (g.parse runDepth anchor (.ofSource source))))
    (if settings.logTiming then log 2 "Time to parse" else pure ())
  match result with
  | .parsed value _ => return value
  | .failed f =>
    let error ← ofExcept (source.report settings f (← get).context.furthest)
    log 1 s!"Parse failed\n{error.message}"
    throw (.rejected error)

/-- Parses the whole of a source. The context's record of failures is cleared first. Without a policy of its own
the parse has the context's. -/
def parseToEnd (settings : Settings) (o : Operand κ) (source : Source) (whitespace : Operand κ) :
    Request κ (Value κ) := do
  let top ← building (Build.asRule o)
  modifyContext Context.reset
  let policy ←
    match whitespace with
    | .absent => do pure (← get).context.whitespace
    | whitespace => building (Build.policy whitespace)
  parseUnder settings top policy source

/-! ## 2. Single steps -/

/-- Runs a rule against a window. -/
def parse (id : RuleId) (v : View) : Request κ (Result κ) := do
  let g := (← get).grammar
  parsing (g.parse runDepth id v)

/-- What the context's policy leaves of a window. -/
def skip (v : View) : Request κ View := do
  let g := (← get).grammar
  parsing (Parse.skip (g.parse runDepth) v)

/-- What can be told of a rule without running it. -/
structure Inspection (κ : Type) where
  label : Option String
  shown : String
  expectation : Expectation κ

def inspect (id : RuleId) : Request κ (Inspection κ) := do
  let g := (← get).grammar
  let expectation ← parsing (Parse.ofDerive (g.expectation id))
  return ⟨g.label id, g.shown id, expectation⟩

/-- What can be told of the context: the matchers of its policy, if it has one, the furthest failure, and how
deep recording is suspended. -/
structure ContextSummary (κ : Type) where
  whitespace : Option (List (Matcher κ))
  furthest : Option (Failure κ)
  suspended : Int

def summary : Request κ (ContextSummary κ) := do
  let g := (← get).grammar
  let c := (← get).context
  let whitespace ←
    match c.whitespace with
    | none => pure none
    | some _ => do pure (some (← parsing (Parse.policyPrefixes g)))
  return ⟨whitespace, c.furthest, c.suspended⟩

end Session

/-! ## 3. Scripts -/

/-- A window of a source that a step asks for; to the end of the source unless it says otherwise. -/
structure Window where
  source : Source
  start : Int
  stop : Option Int

def Window.view (w : Window) : Except Fault View :=
  View.ofBounds w.source w.start (w.stop.getD w.source.length)

/-- A step of a script: a request, or a part of the script under a changed context. -/
inductive Step where
  | parseToEnd (settings : Settings) (grammar : Blueprint) (source : Source) (whitespace : Blueprint)
  | parse (grammar : Blueprint) (window : Window)
  | skip (window : Window)
  | record (window : Window) (expected whitespace : List Blueprint)
  | reset
  /-- a part in which failures are not recorded; `raises` says that an exception ends it -/
  | suspend (steps : List Step) (raises : Bool)
  /-- a part under another whitespace policy -/
  | overridePolicy (policy : Blueprint) (steps : List Step) (raises : Bool)
  | inspect (grammar : Blueprint)
  | define (name : String) (grammar : Blueprint)
  | resolve (name : String) (grammar : Blueprint)

/-- The answer to a step. -/
inductive Reply where
  | value (value : Value FixedMatcher) (log : List String)
  | unparsed (problem : Problem) (log : List String)
  | problem (problem : Problem)
  | result (result : Result FixedMatcher)
  | view (view : View)
  | done
  | inspection (inspection : Option (Session.Inspection FixedMatcher))
  /-- the answers to the steps of a part, each with the state after it -/
  | part (replies : List (Reply × Session.ContextSummary FixedMatcher)) (raised : Bool)

/-- An answer with the state of the context after it. -/
abbrev StepReply := Reply × Session.ContextSummary FixedMatcher

/-- The answer to a part: those to its steps, or the problem that ended it. -/
def Reply.ofPart (replies : Except Problem (List StepReply)) (raises : Bool) : Reply :=
  match replies with
  | .ok replies => .part replies raises
  | .error p => .problem p

namespace Step

/-- The sessions that scripts run in. -/
abbrev Script := StateM (Session FixedMatcher)

/-- Makes a request; a problem is its answer. -/
def attempt {α : Type} (x : Request FixedMatcher α) : Script (Except Problem α) := fun s =>
  match x s with
  | .ok a s => (.ok a, s)
  | .error p s => (.error p, s)

/-- Makes a request and words its answer. -/
def answered {α : Type} (x : Request FixedMatcher α) (word : α → Reply) : Script Reply := do
  match ← attempt x with
  | .ok a => return word a
  | .error p => return .problem p

/-- Makes a request and words its answer with the messages that were logged meanwhile. -/
def logged (x : Request FixedMatcher (Value FixedMatcher)) : Script Reply := do
  modify fun s => { s with journal := [] }
  match ← attempt x with
  | .ok v => return .value v (← get).journal
  | .error p => return .unparsed p (← get).journal

/-- Builds a whole-input parse and makes it. The description is built before anything else happens. -/
def wholeInput (settings : Settings) (grammar : Blueprint) (source : Source) (whitespace : Blueprint) :
    Request FixedMatcher (Value FixedMatcher) := do
  let grammar ← Session.building grammar.build
  let whitespace ← Session.building whitespace.build
  Session.parseToEnd settings grammar source whitespace

/-- Builds a rule and runs it against a window. -/
def single (grammar : Blueprint) (window : Window) : Request FixedMatcher (Result FixedMatcher) := do
  let id ← Session.building grammar.buildRule
  Session.parse id (← Session.ofExcept window.view)

/-- Tells about what is described; nothing can be told of an absent policy. -/
def inspected (grammar : Blueprint) :
    Request FixedMatcher (Option (Session.Inspection FixedMatcher)) := do
  match ← Session.building grammar.build with
  | .absent => return none
  | o =>
    let id ← Session.building (Build.asRule o)
    return some (← Session.inspect id)

/-- Gives the placeholder of a name its target. -/
def resolved (name : String) (grammar : Blueprint) : Request FixedMatcher Unit := do
  match ← Session.building (Build.named name) with
  | .rule id =>
    let target ← Session.building grammar.buildRule
    Session.building (Build.resolve id target)
  | _ => throw (.fault .notAPlaceholder)

mutual

/-- Runs one step. -/
def run : Step → Script Reply
  | .parseToEnd settings grammar source whitespace =>
    logged (wholeInput settings grammar source whitespace)
  | .parse grammar window => answered (single grammar window) .result
  | .skip window => answered (do Session.skip (← Session.ofExcept window.view)) .view
  | .record window expected whitespace =>
    answered (do
      let v ← Session.ofExcept window.view
      let expected ← Session.building (Blueprint.buildMatchers expected)
      let whitespace ← Session.building (Blueprint.buildMatchers whitespace)
      Session.modifyContext (·.record ⟨v, expected, whitespace⟩)) fun _ => .done
  | .reset => answered (Session.modifyContext Context.reset) fun _ => .done
  | .suspend steps raises => do
    modify fun s => { s with context := { s.context with suspended := s.context.suspended + 1 } }
    let replies ← runAll steps
    modify fun s => { s with context := { s.context with suspended := s.context.suspended - 1 } }
    return .ofPart replies raises
  | .overridePolicy policy steps raises => do
    match ← attempt (Session.building policy.buildPolicy) with
    | .error p => return .problem p
    | .ok policy =>
      let saved := (← get).context.whitespace
      modify fun s => { s with context := { s.context with whitespace := policy } }
      let replies ← runAll steps
      modify fun s => { s with context := { s.context with whitespace := saved } }
      return .ofPart replies raises
  | .inspect grammar => answered (inspected grammar) .inspection
  | .define name grammar => answered (Session.building (grammar.define name)) fun _ => .done
  | .resolve name grammar => answered (resolved name grammar) fun _ => .done

/-- Runs steps in order, and tells the state of the context after each. A state that cannot be told, because the
policy's expectation meets a problem, ends the run. -/
def runAll : List Step → Script (Except Problem (List StepReply))
  | [] => return .ok []
  | step :: steps => do
    let reply ← run step
    match ← attempt Session.summary with
    | .error p => return .error p
    | .ok state => return (← runAll steps).map ((reply, state) :: ·)

end

end Step

end Descent
