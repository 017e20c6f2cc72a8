import Descent.Matcher.Basic

/-!
# Values

What parsers produce. A token gives text, a sequence a tuple, a repetition a list, a capture the window itself,
and a choice over matchers the matcher that applied; the rest comes from constants and transforms. A transform
is a function on values that may refuse its argument.
-/

namespace Descent

/-- A value that a parse produces. -/
inductive Value (κ : Type) where
  | none
  | bool (b : Bool)
  | int (n : Int)
  | str (s : String)
  | tuple (elements : List (Value κ))
  | list (elements : List (Value κ))
  | view (view : View)
  | matcher (matcher : Matcher κ)

instance {κ : Type} : Inhabited (Value κ) := ⟨.none⟩

/-- A function on values that may refuse its argument. -/
abbrev Transform (κ : Type) := Value κ → Except Fault (Value κ)

namespace Value

variable {κ : Type}

/-- The elements of a tuple or list. -/
def elements? : Value κ → Option (List (Value κ))
  | .tuple vs => some vs
  | .list vs => some vs
  | _ => Option.none

/-- The element at a position counted from zero. A text has its characters as elements. -/
def element (index : Nat) (v : Value κ) : Except Fault (Value κ) :=
  let pick (vs : List (Value κ)) : Except Fault (Value κ) :=
    match vs[index]? with
    | some v => .ok v
    | Option.none => .error .noSuchElement
  match v with
  | .str s => pick (s.toList.map fun c => .str (String.singleton c))
  | .tuple vs => pick vs
  | .list vs => pick vs
  | _ => .error .notASequence

/-- The list that begins with the first element and goes on with the second, which is a list itself. -/
def consed : Transform κ
  | .tuple [head, .list tail] => .ok (.list (head :: tail))
  | _ => .error .notASequence

end Value

end Descent
