import Descent.Grammar.Basic

/-!
# The context of a parse

What a parse carries along besides the input: the active whitespace policy, how much is logged, the furthest
failure so far, and the nesting depth of the sections in which failures are not recorded. The depth is an
integer, since a reset inside such a section sets it to zero and leaving the section still takes one off; any
depth but zero keeps failures from being recorded.
-/

namespace Descent

variable {κ : Type} [DecidableEq κ]

/-- The state of a parse. -/
structure Context (κ : Type) where
  /-- the rule that says what may be skipped between tokens -/
  whitespace : Option RuleId
  verbosity : Int
  furthest : Option (Failure κ)
  suspended : Int

namespace Context

def fresh (whitespace : Option RuleId) (verbosity : Int) : Context κ := ⟨whitespace, verbosity, none, 0⟩

/-- The furthest failure once `f` is taken into account: a deeper one replaces it, one at the same offset is
merged into it. -/
def deepest (furthest : Option (Failure κ)) (f : Failure κ) : Failure κ :=
  match furthest with
  | none => f
  | some best =>
    if best.offset < f.offset then f
    else if f.offset = best.offset then best.merge f
    else best

/-- Remembers a failure, unless recording is suspended. -/
def record (c : Context κ) (f : Failure κ) : Context κ :=
  if c.suspended ≠ 0 then c else { c with furthest := some (deepest c.furthest f) }

/-- Forgets the furthest failure, and that recording was suspended. -/
def reset (c : Context κ) : Context κ := { c with furthest := none, suspended := 0 }

end Context

end Descent
