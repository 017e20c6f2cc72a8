/-!
# Decimal notation

Whole numbers in ASCII digits. The strict reading takes digits alone; the grouped one lets a single underscore
stand between two digits. A sign may come before either.
-/

namespace Descent.Text

/-- The value of an ASCII digit. -/
def digitValue (c : Char) : Nat := c.toNat - 48

/-- The number that digits write. A text that is empty or holds anything else writes none. -/
def digitsValue? (text : List Char) : Option Nat :=
  if text.isEmpty || !text.all Char.isDigit then none
  else some (text.foldl (fun n c => 10 * n + digitValue c) 0)

/-- The number that digits write with single underscores between them. -/
def groupedValue? (text : List Char) : Option Nat := go false 0 text
where
  /-- Goes on after digits with the value `seen`; `afterDigit` says that the last character was one. -/
  go (afterDigit : Bool) (seen : Nat) : List Char → Option Nat
    | [] => if afterDigit then some seen else none
    | c :: rest =>
      if c = '_' then if afterDigit then go false seen rest else none
      else if c.isDigit then go true (10 * seen + digitValue c) rest
      else none

/-- A number with a sign or without, its digits read by `value?`. -/
def signed? (value? : List Char → Option Nat) : List Char → Option Int
  | '+' :: digits => (value? digits).map Int.ofNat
  | '-' :: digits => (value? digits).map fun n => -(n : Int)
  | digits => (value? digits).map Int.ofNat

end Descent.Text
