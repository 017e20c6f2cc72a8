import Descent.View

/-!
# Lines and columns

A location is what a reader of the source needs to find an offset: the line, counted from one, and the number
of characters before the offset in that line. Only a line feed ends a line.
-/

namespace Descent

/-- A place in a text that is read line by line. -/
structure Location where
  line : Nat
  column : Nat
  deriving DecidableEq

namespace Location

def start : Location := ⟨1, 0⟩

/-- The place after one more character. -/
def after (l : Location) (c : Char) : Location :=
  if c = '\n' then ⟨l.line + 1, 0⟩ else ⟨l.line, l.column + 1⟩

def afterText (text : List Char) : Location := text.foldl after start

@[simp] theorem afterText_append (s t : List Char) : afterText (s ++ t) = t.foldl after (afterText s) := by
  simp [afterText]

end Location

/-- Where a remainder begins. Only a tail of that very buffer has a place in it. -/
def Source.locate (s : Source) (remainder : View) : Except Fault Location :=
  if remainder.IsSuffixOf s then .ok (.afterText (s.chars.take remainder.start))
  else .error (.foreignBuffer remainder.shown s.length)

end Descent
