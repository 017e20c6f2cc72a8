import Descent.Distinct
import Descent.Matcher.Basic

/-!
# What a parser expects

An `Expectation` says what could be tried where a rule begins: the matchers, the whitespace that may be skipped
before them, and whether the rule skips *ambient* whitespace, that is, whatever policy is active when it runs.
The last is resolved against a policy as soon as one is known. Where expectations are joined, matchers stay in
the order in which the grammar mentions them, each once.
-/

namespace Descent

variable {κ : Type} [DecidableEq κ]

/-- What can be tried at the place where a rule begins. -/
structure Expectation (κ : Type) where
  /-- the matchers that could be attempted there -/
  prefixes : List (Matcher κ)
  /-- the whitespace that may be skipped before them -/
  whitespace : List (Matcher κ)
  /-- whether the active whitespace policy is skipped too -/
  ambient : Bool
  deriving DecidableEq

namespace Expectation

def empty : Expectation κ := ⟨[], [], false⟩

def ofMatcher (m : Matcher κ) : Expectation κ := ⟨[m], [], false⟩

/-- What either of two expects. -/
def union (a b : Expectation κ) : Expectation κ :=
  ⟨orderedUnion a.prefixes b.prefixes, orderedUnion a.whitespace b.whitespace, a.ambient || b.ambient⟩

/-- The same, with ambient whitespace before it. -/
def withAmbient (e : Expectation κ) : Expectation κ := { e with ambient := true }

/-- The same under a known whitespace policy, given by its matchers. -/
def withWhitespace (e : Expectation κ) (policy : List (Matcher κ)) : Expectation κ :=
  if e.ambient then ⟨e.prefixes, orderedUnion e.whitespace policy, false⟩ else e

end Expectation

end Descent
