import Descent.Grammar.Basic

/-!
# Deriving expectations

The expectation of a rule is read off its body and the expectations of the rules it begins with. It is derived
on demand and kept. A grammar may refer back to itself, so the walk marks the rules it is inside of; a marked
rule that is met again contributes nothing, and the *cycle flag* says that this happened somewhere below. What
was derived under such a cut is incomplete, except for the rule where the whole walk started, which sees every
path out of itself. So a rule's expectation is kept if its walk met no cycle or if it is the start of the walk.

A placeholder hands the question on to its target and neither marks nor keeps anything itself. One without a
target sets the cycle flag: what it stands for may still change the answer.

The bookkeeping is explicit, because a derivation may be abandoned half way by a hand-written rule, and what it
leaves behind then matters to every later request.
-/

namespace Descent

variable {κ : Type} [DecidableEq κ]

/-- The bookkeeping of derivations. -/
structure Derivation (κ : Type) where
  /-- expectations that are kept -/
  known : List (RuleId × Expectation κ)
  /-- rules whose derivation is going on -/
  marked : List RuleId
  /-- how many derivations are going on -/
  depth : Nat
  /-- whether a cut was met since the innermost of them began -/
  cycleMet : Bool

namespace Derivation

def fresh : Derivation κ := ⟨[], [], 0, false⟩

def known? (d : Derivation κ) (id : RuleId) : Option (Expectation κ) :=
  (d.known.find? (·.1 == id)).map (·.2)

def keep (d : Derivation κ) (id : RuleId) (e : Expectation κ) : Derivation κ :=
  { d with known := (id, e) :: d.known }

/-- The bookkeeping inside the derivation of a rule. -/
def enter (d : Derivation κ) (id : RuleId) : Derivation κ :=
  { d with marked := id :: d.marked, depth := d.depth + 1, cycleMet := false }

/-- The bookkeeping after the derivation of a rule, ended in whichever way; `outer` is what it was before. The
start of a walk clears the flag, any other rule passes a cut on. -/
def leave (d outer : Derivation κ) (id : RuleId) : Derivation κ :=
  { d with
    marked := d.marked.erase id
    depth := d.depth - 1
    cycleMet := if outer.depth = 0 then false else outer.cycleMet || d.cycleMet }

end Derivation

/-- A computation that reads expectations. Its bookkeeping outlives a fault. -/
abbrev Derive (κ : Type) := EStateM Fault (Derivation κ)

/-- The expectation that a body has by its shape, through the expectations of the rules it begins with. A
hand-written body without a derivation of its own has none. -/
def Body.derived? (g : Grammar κ) (read : RuleId → Derive κ (Expectation κ)) :
    Body κ → Option (Derive κ (Expectation κ))
  | .token m _ => some (pure (.ofMatcher m))
  | .capture m => some (pure (.ofMatcher m))
  | .sequence [] => some (pure .empty)
  | .sequence (first :: _) => some (read first)
  | .either branches =>
    some (branches.foldlM (fun e branch => do return e.union (← read branch)) .empty)
  | .oneOf ms => some (pure ⟨ms, [], false⟩)
  | .optional inner _ => some (read inner)
  | .repeated first _ _ => some (read first)
  | .map inner _ => some (read inner)
  | .skipping inner => some do return (← read inner).withAmbient
  | .skippingAfter inner => some (read inner)
  | .within inner policy => some do
    let skipped ←
      match policy with
      | none => pure []
      | some policy => do pure (← read policy).prefixes
    return (← read inner).withWhitespace skipped
  | .placeholder _ => none
  | .handWritten _ none => none
  | .handWritten _ (some derivative) => some do
    let touched ← derivative.reads.mapM fun name =>
      match g.namedRule? name with
      | some id => read id
      | none => throw (.unknownName name)
    match derivative.conclude touched with
    | .ok e => return e
    | .error fault => throw fault

namespace Grammar

/-- Derives the expectation of a marked rule by `walk`, takes the mark off however that ends, and keeps the
answer if it is complete. -/
def deriveMarked (id : RuleId) (walk : Derive κ (Expectation κ)) : Derive κ (Expectation κ) :=
  fun outer =>
    match walk (outer.enter id) with
    | .error fault inner => .error fault (inner.leave outer id)
    | .ok e inner =>
      let left := inner.leave outer id
      .ok e (if outer.depth = 0 || !inner.cycleMet then left.keep id e else left)

/-- The expectation of a rule. The fuel bounds the depth of the walk. -/
def expectationWithin (g : Grammar κ) : Nat → RuleId → Derive κ (Expectation κ)
  | 0, _ => throw .endlessDerivation
  | fuel + 1, id => do
    match g.rule? id with
    | none => throw (.unresolved none)
    | some ⟨_, .placeholder none⟩ =>
      modify fun d => { d with cycleMet := true }
      return .empty
    | some ⟨_, .placeholder (some target)⟩ => g.expectationWithin fuel target
    | some rule =>
      let d ← get
      match d.known? id with
      | some e => return e
      | none =>
        match rule.body.derived? g (g.expectationWithin fuel) with
        | none =>
          modify (·.keep id .empty)
          return .empty
        | some walk =>
          if id ∈ d.marked then
            modify fun d => { d with cycleMet := true }
            return .empty
          else deriveMarked id walk

/-- Enough fuel for every walk that ends: at most every rule is marked once, and between two marks at most
every rule is passed through as a placeholder. -/
def derivationFuel (g : Grammar κ) : Nat := (g.rules.size + 1) * (g.rules.size + 2)

/-- The expectation of a rule: what could be tried where it begins. -/
def expectation (g : Grammar κ) (id : RuleId) : Derive κ (Expectation κ) :=
  g.expectationWithin g.derivationFuel id

end Grammar

end Descent
