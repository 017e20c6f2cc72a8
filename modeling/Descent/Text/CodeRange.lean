/-!
# Tables of code points

The character properties of this library are tables of the Unicode standard. A table is a list of runs
in ascending order: of neighbouring code points, of every second code point (`Stride`), or of code
points that a mapping moves by the same distance (`Shift`). Code points are plain numbers here, because
a pattern may name one that is no character.
-/

namespace Descent.Text

def inRanges (ranges : List (Nat × Nat)) (code : Nat) : Bool :=
  ranges.any fun (low, high) => low ≤ code && code ≤ high

/-- The code points `first`, `first + step`, … up to `last`. -/
structure Stride where
  first : Nat
  last : Nat
  step : Nat

def Stride.contains (s : Stride) (code : Nat) : Bool :=
  s.first ≤ code && code ≤ s.last && (code - s.first) % s.step == 0

/-- Whether the stride has a point from `low` to `high`. -/
def Stride.meets (s : Stride) (low high : Nat) : Bool :=
  let next := if low ≤ s.first then s.first else s.first + (low - s.first + s.step - 1) / s.step * s.step
  next ≤ s.last && next ≤ high

def inStrides (strides : List Stride) (code : Nat) : Bool :=
  strides.any (·.contains code)

/-- The code points of a stride, each moved by `distance`. -/
structure Shift where
  distance : Int
  moved : Stride

/-- The image of a code point under a table of shifts; one that is in no stride stays where it is. -/
def shift (table : List Shift) (code : Nat) : Nat :=
  match table.find? (·.moved.contains code) with
  | some s => (code + s.distance).toNat
  | none => code

end Descent.Text
