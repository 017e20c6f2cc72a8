import Descent.Text.Decimal
import Descent.Value

/-!
# Transforms by name

Transforms that a description of a grammar can name. Each accepts the values it is made for and refuses every
other one; truth values are no numbers here.
-/

namespace Descent

/-- The transforms that have a name. -/
inductive NamedTransform where
  /-- the number that a text writes -/
  | int
  /-- the number of elements -/
  | len
  | neg
  /-- a list of the value alone -/
  | wrap
  /-- one text of all that the value holds -/
  | join
  /-- the difference of the first and the third element -/
  | sub
  /-- a number, changed by operators and numbers from left to right -/
  | fold
  /-- the text of a window -/
  | text
  | get (index : Nat)
  /-- what kind of value it is -/
  | kind
  /-- accepts nothing -/
  | boom
  deriving DecidableEq

namespace NamedTransform

variable {κ : Type}

mutual

/-- All text in a value, one piece after another; nothing for the empty value, and a number in decimal. -/
def joined? : Value κ → Option (List Char)
  | .none => some []
  | .str s => some s.toList
  | .int n => some (toString n).toList
  | .view v => some v.chars
  | .tuple vs => joinedAll? vs
  | .list vs => joinedAll? vs
  | _ => Option.none

def joinedAll? : List (Value κ) → Option (List Char)
  | [] => some []
  | v :: vs =>
    match joined? v, joinedAll? vs with
    | some s, some t => some (s ++ t)
    | _, _ => Option.none

end

/-- A number changed by one operator and number. -/
def operated? (n : Int) (v : Value κ) : Option Int :=
  match v.elements? with
  | some [.str op, .int m] =>
    if op = "+" then some (n + m)
    else if op = "-" then some (n - m)
    else if op = "*" then some (n * m)
    else Option.none
  | _ => Option.none

def kindName : Value κ → String
  | .none => "none"
  | .bool _ => "bool"
  | .int _ => "int"
  | .str _ => "str"
  | .tuple _ => "tuple"
  | .list _ => "list"
  | .view _ => "view"
  | .matcher _ => "matcher"

/-- The value that a transform gives, unless it refuses its argument. -/
def image? : NamedTransform → Value κ → Option (Value κ)
  | .int, .str s => (Text.signed? Text.digitsValue? s.toList).map .int
  | .len, .str s => some (.int s.toList.length)
  | .len, .view v => some (.int v.length)
  | .len, v => v.elements?.map fun vs => .int vs.length
  | .neg, .int n => some (.int (-n))
  | .wrap, v => some (.list [v])
  | .join, v => (joined? v).map fun s => .str (String.ofList s)
  | .sub, v =>
    match v.elements? with
    | some (.int a :: _ :: .int b :: _) => some (.int (a - b))
    | _ => Option.none
  | .fold, v =>
    match v.elements? with
    | some [.int n, steps] =>
      steps.elements?.bind fun steps => (steps.foldlM operated? n).map .int
    | _ => Option.none
  | .text, .view v => some (.str v.text)
  | .get index, v => v.elements?.bind fun vs => vs[index]?
  | .kind, v => some (.str (kindName v))
  | _, _ => Option.none

def transform (t : NamedTransform) : Transform κ := fun v =>
  match t.image? v with
  | some v => .ok v
  | Option.none => .error .transform

def ofName? (name : String) : Option NamedTransform :=
  match name with
  | "int" => some .int
  | "len" => some .len
  | "neg" => some .neg
  | "wrap" => some .wrap
  | "join" => some .join
  | "sub" => some .sub
  | "fold" => some .fold
  | "text" => some .text
  | "type" => some .kind
  | "boom" => some .boom
  | name =>
    match name.toList with
    | 'g' :: 'e' :: 't' :: ':' :: digits => (Text.digitsValue? digits).map .get
    | _ => Option.none

end NamedTransform

end Descent
