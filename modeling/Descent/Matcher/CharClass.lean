import Descent.Fault
import Descent.Text.Case
import Descent.Text.Letter
import Descent.Text.Numeral

/-!
# Character classes

A class is a set of characters, given by its members or by a property of the Unicode standard, together with
the label that diagnostics show and a flag for the complement. Classes are compared by these three: two
properties are the same only by name, and a set is never the same as a property. For that reason a set has one
representation, its maximal runs of code points in ascending order.
-/

namespace Descent

/-! ## 1. Sets -/

/-- A set of code points as maximal inclusive runs in ascending order. -/
structure CharSet where
  runs : List (Nat × Nat)
  deriving DecidableEq

namespace CharSet

/-- Adds a code point to ascending maximal runs. -/
def insertCode (code : Nat) : List (Nat × Nat) → List (Nat × Nat)
  | [] => [(code, code)]
  | (low, high) :: runs =>
    if code + 1 < low then (code, code) :: (low, high) :: runs
    else if code + 1 = low then (code, high) :: runs
    else if code ≤ high then (low, high) :: runs
    else if code = high + 1 then
      match runs with
      | (low', high') :: rest =>
        if code + 1 = low' then (low, high') :: rest else (low, code) :: (low', high') :: rest
      | [] => [(low, code)]
    else (low, high) :: insertCode code runs

def ofChars (chars : List Char) : CharSet :=
  ⟨chars.foldl (fun runs c => insertCode c.toNat runs) []⟩

/-- The set of all code points between two, both included. -/
def between (low high : Char) : CharSet := ⟨[(low.toNat, high.toNat)]⟩

def contains (s : CharSet) (c : Char) : Bool := Text.inRanges s.runs c.toNat

end CharSet

/-! ## 2. Properties -/

/-- The properties of single characters by which a class can be given. -/
inductive CharProperty where
  | letter
  | alphanumeric
  | digit
  | blank
  | upper
  | lower
  | decimalDigit
  | numeral
  deriving DecidableEq

def CharProperty.holds : CharProperty → Char → Bool
  | .letter, c => Text.isLetter c.toNat
  | .alphanumeric, c => Text.isLetter c.toNat || Text.isNumeral c.toNat
  | .digit, c => Text.isDigit c.toNat
  | .blank, c => Text.isBlank c.toNat
  | .upper, c => Text.isUpper c.toNat
  | .lower, c => Text.isLower c.toNat
  | .decimalDigit, c => Text.isDecimalDigit c.toNat
  | .numeral, c => Text.isNumeral c.toNat

/-! ## 3. Classes -/

/-- How the members of a class are given. -/
inductive ClassMembers where
  | set (members : CharSet)
  | property (shared : CharProperty)
  deriving DecidableEq

def ClassMembers.contains : ClassMembers → Char → Bool
  | .set members, c => members.contains c
  | .property shared, c => shared.holds c

/-- A set of single characters with the label that diagnostics show. -/
structure CharClass where
  members : ClassMembers
  label : String
  negated : Bool
  deriving DecidableEq

namespace CharClass

def contains (k : CharClass) (c : Char) : Bool := k.members.contains c != k.negated

/-- The class of the characters of a text, labelled by the text itself unless told otherwise. -/
def ofText (text : String) (label : Option String) : CharClass :=
  ⟨.set (.ofChars text.toList), label.getD text, false⟩

def range (low high : String) (label : Option String) : Except Fault CharClass :=
  match low.toList, high.toList with
  | [first], [last] =>
    if last.toNat < first.toNat then .error (.emptyRange first last)
    else .ok ⟨.set (.between first last), label.getD s!"{low}-{high}", false⟩
  | _, _ => .error .rangeEnds

def ofProperty (property : CharProperty) (label : String) (negated : Bool) : CharClass :=
  ⟨.property property, label, negated⟩

def complement (k : CharClass) : CharClass := { k with negated := !k.negated }

@[simp] theorem contains_complement (k : CharClass) (c : Char) : k.complement.contains c = !k.contains c := by
  simp only [contains, complement]
  cases k.members.contains c <;> cases k.negated <;> rfl

/-- How diagnostics name the class. -/
def description (k : CharClass) : String :=
  if k.negated then s!"[^{k.label}]" else s!"[{k.label}]"

def digits : CharClass := ⟨.set (.between '0' '9'), "0-9", false⟩

def letters : CharClass := ofProperty .letter "letter" false

def alphanumerics : CharClass := ofProperty .alphanumeric "alphanumeric" false

def whitespace : CharClass := ofProperty .blank "whitespace" false

/-- The two characters that end lines. -/
def newlines : CharClass := ofText "\n\r" (some "newline")

end CharClass

end Descent
