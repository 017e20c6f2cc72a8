import Descent.Matcher.Basic

/-!
# Matchers that answer a fixed span

The simplest matcher that a user can supply: it looks at nothing and answers with a span at a fixed distance
from where it is asked. It may well lie outside the window, which makes it the test of what the library does
with what it is told. Each one made is equal only to itself.
-/

namespace Descent

/-- A matcher that always answers with the same span, relative to the start of the window. -/
structure FixedMatcher where
  id : Nat
  start : Int
  stop : Int
  deriving DecidableEq

instance : CustomMatcher FixedMatcher where
  run m v := .ok (some ⟨v.start + m.start, v.start + m.stop⟩)
  description m := s!"fixed({m.start},{m.stop})"

end Descent
