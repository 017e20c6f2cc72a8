import Descent.Failure
import Descent.Location
import Descent.Settings

/-!
# Reporting a failure

A `ParseError` is what a user sees of a failure: where it is, what was expected, and how the input goes on.
Which failure is reported is a matter of settings: the furthest one on record, if it is at least as deep as the
one that the parse ended with, or always the latter.
-/

namespace Descent

/-- A located failure, in terms of the text. -/
structure ParseError where
  /-- counted from one -/
  line : Int
  /-- counted from zero -/
  column : Int
  position : Int
  /-- descriptions of what was expected -/
  expected : List String
  /-- descriptions of the whitespace that was allowed before it -/
  whitespace : List String
  /-- the beginning of what was left of the input -/
  remaining : String
  deriving DecidableEq

/-- Descriptions in a row, or another text for none. -/
def listed (descriptions : List String) (none : String) : String :=
  if descriptions.isEmpty then none else String.intercalate ", " descriptions

def ParseError.message (e : ParseError) : String :=
  let remaining := if e.remaining = "" then "<end of input>" else e.remaining
  let expected := listed e.expected "nothing"
  let whitespace := listed e.whitespace "none"
  s!"Line {e.line}, column {e.column}: expected one of {expected}\n" ++
    s!"Whitespace allowed: {whitespace}\n\nRemaining input:\n{remaining}"

/-- The line, for tools that show where the syntax of a text is wrong. -/
def ParseError.lineNumber (e : ParseError) : Int := e.line

/-- The column for the same tools, which count columns from one. -/
def ParseError.columnNumber (e : ParseError) : Int := e.column + 1

variable {κ : Type} [CustomMatcher κ]

/-- How matchers are described, each description once. -/
def descriptions (ms : List (Matcher κ)) : List String := distinct (ms.map Matcher.description)

theorem mem_descriptions {text : String} {ms : List (Matcher κ)} :
    text ∈ descriptions ms ↔ ∃ m ∈ ms, m.description = text := by
  rw [descriptions, mem_distinct, List.mem_map]

/-- The failure that is reported, of the one that a parse ended with and the furthest on record. -/
def reported (settings : Settings) (failed : Failure κ) (furthest : Option (Failure κ)) : Failure κ :=
  match furthest with
  | none => failed
  | some best => if settings.reportFurthest && failed.offset ≤ best.offset then best else failed

/-- The report of a failed parse of a source. -/
def Source.report (s : Source) (settings : Settings) (failed : Failure κ)
    (furthest : Option (Failure κ)) : Except Fault ParseError := do
  let f := reported settings failed furthest
  let place ← s.locate f.rest
  return {
    line := place.line
    column := place.column
    position := f.offset
    expected := descriptions f.expected
    whitespace := descriptions f.whitespace
    remaining := settings.snippet f.rest.chars }

end Descent
