import Descent.Pattern.Syntax

/-!
# How much a pattern can consume

A look-behind steps back by the width of its body, so the body must have one width. `Pattern.width` bounds
what a pattern can consume from both sides; the bounds of a group that has been closed stand in for a
reference to it.
-/

namespace Descent

/-- The least and the greatest number of characters; `none` where there is no greatest. -/
structure Width where
  least : Nat
  most : Option Nat
  deriving DecidableEq

namespace Width

def exactly (n : Nat) : Width := ⟨n, some n⟩

def add (a b : Width) : Width :=
  ⟨a.least + b.least, a.most.bind fun m => b.most.map (m + ·)⟩

def join (a b : Width) : Width :=
  ⟨min a.least b.least, a.most.bind fun m => b.most.map (max m)⟩

/-- From `minimum` to `maximum` rounds. Rounds without width add up to nothing, however many. -/
def rounds (a : Width) (minimum : Nat) (maximum : Option Nat) : Width :=
  let most :=
    if a.most = some 0 ∨ maximum = some 0 then some 0
    else a.most.bind fun m => maximum.map (m * ·)
  ⟨a.least * minimum, most⟩

/-- The number of characters from which on a width is not told apart from others. -/
def limit : Nat := 4294967295

/-- The width itself, if there is only one. -/
def fixed? (w : Width) : Option Nat :=
  if w.most = some w.least ∧ w.least < limit then some w.least else none

end Width

/-- Bounds on what a pattern consumes, given those of the groups it refers to. -/
def Pattern.width (groups : Nat → Option Width) : Pattern → Width
  | .empty => .exactly 0
  | .one _ => .exactly 1
  | .anchor _ => .exactly 0
  | .seq first second => (first.width groups).add (second.width groups)
  | .choice first second => (first.width groups).join (second.width groups)
  | .group _ body => body.width groups
  | .loop _ minimum maximum body => (body.width groups).rounds minimum maximum
  | .look _ _ _ => .exactly 0
  | .atomic body => body.width groups
  | .again index _ => (groups index).getD (.exactly 0)
  | .given _ thenBody elseBody => (thenBody.width groups).join (elseBody.width groups)

end Descent
