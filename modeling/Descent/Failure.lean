import Descent.Expectation
import Descent.Value

/-!
# Results of a parse

A parse that ends gives a value and what is left of the window, or says where it stopped and what was expected
there. The same three things make up the record of the furthest failure that a context keeps, so both are a
`Failure`; failures at one offset are merged into one.
-/

namespace Descent

variable {κ : Type}

/-- Where matching stopped, and what was expected there. -/
structure Failure (κ : Type) where
  /-- what was left of the window -/
  rest : View
  expected : List (Matcher κ)
  /-- the whitespace that was allowed before it -/
  whitespace : List (Matcher κ)
  deriving DecidableEq

def Failure.offset (f : Failure κ) : Nat := f.rest.start

/-- Two failures at one offset: what either expected. -/
def Failure.merge [DecidableEq κ] (a b : Failure κ) : Failure κ :=
  ⟨a.rest, orderedUnion a.expected b.expected, orderedUnion a.whitespace b.whitespace⟩

/-- How a parse that ends without a fault ends. -/
inductive Result (κ : Type) where
  | parsed (value : Value κ) (rest : View)
  | failed (failure : Failure κ)

end Descent
