import Descent.Number.Digits
import Descent.Text.Quoted

/-!
# Fields of log messages

A message may come with named fields. `Field.plain` is how a field is written where a template says no more, and
`Field.shown` how it is written inside of another one, where texts stand in quotes.
-/

namespace Descent.Journal

/-- What a field of a message can hold. -/
inductive Field where
  | none
  | bool (b : Bool)
  | int (n : Int)
  | real (x : Float)
  | text (text : List Char)
  | list (items : List Field)
  /-- values under keys, which stand apart in the same order -/
  | table (keys : List (List Char)) (items : List Field)
  deriving Inhabited

/-- How numbers with a point are written. -/
structure PointStyle where
  /-- whether a power of ten follows one digit before the point -/
  hasExponent : Bool
  /-- how many digits there are at least, counted like the place of the point -/
  least : Int
  /-- whether a digit follows the point in any case -/
  fractionToo : Bool
  /-- whether the point is written even if nothing follows it -/
  pointToo : Bool

/-- A whole number with its sign, in two digits at least. -/
def exponentText (n : Int) : List Char :=
  let digits := Number.digitsOf n.natAbs
  (if n < 0 then '-' else '+') :: List.replicate (2 - digits.length) '0' ++ digits

/-- Writes a decimal without its sign. -/
def pointText (style : PointStyle) (d : Number.Decimal) : List Char :=
  let point := if style.hasExponent then 1 else d.point
  let least := if style.fractionToo && !style.hasExponent then max style.least (point + 1) else style.least
  let zeros := List.replicate (1 - point).toNat '0'
  let digits := zeros ++ d.digits
  let point := point + zeros.length
  let least := max (least + zeros.length) (max digits.length point)
  let digits := digits ++ List.replicate (least.toNat - digits.length) '0'
  let fraction := digits.drop point.toNat
  let exponent := if style.hasExponent then 'e' :: exponentText (d.point - 1) else []
  digits.take point.toNat ++ (if fraction.isEmpty && !style.pointToo then [] else '.' :: fraction) ++ exponent

/-- Whether a decimal is so small or so large that it is written with a power of ten. -/
def isFarOff (d : Number.Decimal) (furthest : Int) : Bool := d.point ≤ -4 || furthest < d.point

/-- The text of a floating-point number, in the fewest digits that tell it from all others. -/
def realText (x : Float) : List Char :=
  let sign := if Number.Binary.isNegative x then ['-'] else []
  match Number.Binary.ofFloat? x with
  | some b =>
    let d := b.shortest
    sign ++ pointText ⟨isFarOff d 16, 0, true, false⟩ d
  | none => sign ++ "inf".toList

def intText (n : Int) : List Char := (toString n).toList

namespace Field

mutual

/-- How a field is written inside of another. -/
def shown : Field → List Char
  | .none => "None".toList
  | .bool b => (if b then "True" else "False").toList
  | .int n => intText n
  | .real x => realText x
  | .text t => (Text.quoted t).toList
  | .list items => '[' :: List.intercalate [',', ' '] (shownAll items) ++ [']']
  | .table keys items =>
    let entries := List.zipWith (fun key item => (Text.quoted key).toList ++ [':', ' '] ++ item) keys (shownAll items)
    '\x7b' :: List.intercalate [',', ' '] entries ++ ['\x7d']

def shownAll : List Field → List (List Char)
  | [] => []
  | item :: items => item.shown :: shownAll items

end

def plain : Field → List Char
  | .text t => t
  | field => field.shown

def kind : Field → String
  | .none => "NoneType"
  | .bool _ => "bool"
  | .int _ => "int"
  | .real _ => "float"
  | .text _ => "str"
  | .list _ => "list"
  | .table _ _ => "dict"

end Field

end Descent.Journal
