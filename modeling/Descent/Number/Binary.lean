/-!
# Floating-point numbers, exactly

A finite floating-point number is an integer times a power of two. `Binary` holds it in this form, on which
everything can be computed in whole numbers.
-/

namespace Descent.Number

/-- A finite floating-point number, `mantissa * 2 ^ exponent` with a sign. Zero has a sign, too. -/
structure Binary where
  negative : Bool
  mantissa : Nat
  exponent : Int
  /-- whether the next number toward zero is half as far away as the next one away from it -/
  isNarrow : Bool
  deriving DecidableEq

namespace Binary

/-- The implied leading bit of a mantissa, `2 ^ 52`. -/
def leadingBit : Nat := 0x10000000000000

/-- The finite number of a given bit pattern of 64 bits; `none` if there is no such number. -/
def ofBits? (bits : Nat) : Option Binary :=
  let negative := bits.testBit 63
  let field : Nat := bits / leadingBit % 2048
  let fraction : Nat := bits % leadingBit
  if field = 2047 then none
  else if field = 0 then some ⟨negative, fraction, -1074, false⟩
  else some ⟨negative, leadingBit + fraction, (field : Int) - 1075, fraction == 0 && decide (1 < field)⟩

/-- Whether a number has a minus sign; zero and the infinite numbers may have one, too. -/
def isNegative (x : Float) : Bool := x.toBits.toNat.testBit 63

/-- The exact value of a number, if it is finite. -/
def ofFloat? (x : Float) : Option Binary := ofBits? x.toBits.toNat

/-- The quotient of two whole numbers that the value without its sign, divided by `10 ^ k`, is. -/
def scaled (b : Binary) (k : Int) : Nat × Nat :=
  (b.mantissa * Nat.pow 2 b.exponent.toNat * Nat.pow 10 (-k).toNat,
    Nat.pow 2 (-b.exponent).toNat * Nat.pow 10 k.toNat)

/-- The number, if it is whole. -/
def whole? (b : Binary) : Option Int :=
  let (num, den) := b.scaled 0
  if num % den = 0 then some (if b.negative then -((num / den : Nat) : Int) else (num / den : Nat)) else none

end Binary

end Descent.Number
