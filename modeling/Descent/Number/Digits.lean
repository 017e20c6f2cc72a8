import Descent.Number.Binary

/-!
# Decimal digits of floating-point numbers

Three ways to write a number in decimal: to a set number of places after the point, to a set number of digits,
and with the fewest digits that still tell it from all other numbers. All are computed exactly; a tie goes to the
even digit.
-/

namespace Descent.Number

/-- The whole number nearest to a quotient; of two, the even one. -/
def nearest (num den : Nat) : Nat :=
  let q := num / den
  let r := num % den
  if 2 * r < den ∨ (2 * r = den ∧ q % 2 = 0) then q else q + 1

/-- A decimal number without its sign: the digits, and where the point stands, counted from before the first of
them. The first digit is zero only for zero itself, whose point comes after it. -/
structure Decimal where
  digits : List Char
  point : Int
  deriving DecidableEq

def digitsOf (n : Nat) : List Char := Nat.toDigits 10 n

/-- Digits without the zeros at their end; one digit always stays. -/
def withoutFinalZeros (digits : List Char) : List Char :=
  match (digits.reverse.dropWhile (· == '0')).reverse with
  | [] => ['0']
  | kept => kept

namespace Binary

/-- The least `k` with the value below `10 ^ k`, sought upward from a lower bound. -/
def point (b : Binary) : Int :=
  let below (k : Int) : Bool :=
    let (num, den) := b.scaled k
    num < den
  let start := (b.mantissa.log2 + b.exponent) * 30103 / 100000 - 1
  (((List.range 6).map fun (i : Nat) => start + i).find? below).getD start

/-- The value, rounded to a number of places after the point, in units of the last place. -/
def inPlaces (b : Binary) (places : Nat) : Nat :=
  let (num, den) := b.scaled (-places)
  nearest num den

/-- The value, rounded to a number of digits. -/
def inDigits (b : Binary) (count : Nat) : Decimal :=
  if b.mantissa = 0 then ⟨List.replicate count '0', 1⟩
  else
    let k := b.point
    let (num, den) := b.scaled (k - count)
    let digits := digitsOf (nearest num den)
    if digits.length = count then ⟨digits, k⟩ else ⟨digits.take count, k + 1⟩

/-- Whether the decimal `digits * 10 ^ k` is nearer to the value than to any other number of its kind. The ends of
the interval where this is so belong to it if the mantissa is even. -/
def isNearestTo (b : Binary) (digits : Nat) (k : Int) : Bool :=
  let quarter : Binary := { b with exponent := b.exponent - 2 }
  let bound (mantissa : Nat) : Nat × Nat := { quarter with mantissa }.scaled k
  let low := bound (if b.isNarrow then 4 * b.mantissa - 1 else 4 * b.mantissa - 2)
  let high := bound (4 * b.mantissa + 2)
  if b.mantissa % 2 = 0 then low.1 ≤ digits * low.2 && digits * high.2 ≤ high.1
  else low.1 < digits * low.2 && digits * high.2 < high.1

/-- The fewest digits that tell the value from all others; seventeen do in any case. -/
def shortest (b : Binary) : Decimal :=
  if b.mantissa = 0 then ⟨['0'], 1⟩
  else
    let k := b.point
    let told (count : Nat) : Option Decimal :=
      let (num, den) := b.scaled (k - count)
      let best := nearest num den
      let other := if best * den ≤ num then best + 1 else best - 1
      [best, other].findSome? fun digits =>
        if b.isNearestTo digits (k - count) then
          let written := digitsOf digits
          some ⟨withoutFinalZeros written, k - count + written.length⟩
        else none
    ((List.range 17).findSome? fun i => told (i + 1)).getD (b.inDigits 17)

end Binary

end Descent.Number
