import Descent.Journal.Field
import Descent.Text.Numeral

/-!
# Layouts of fields

A template may say after a colon how a field is laid out: the fill and the side to which it goes, the sign, the
least width, a separator of thousands, the precision, and a letter for the kind of notation. `Layout.read` takes
such a text apart, and `Layout.written` lays a field out. Texts, whole numbers and numbers with a point each
refuse what makes no sense for them.
-/

namespace Descent.Journal

/-! ## 1. What can be wrong -/

/-- Why a layout cannot be read or does not suit its field. -/
inductive LayoutFlaw where
  | tooManyDigits
  | noPrecision
  /-- the rest of a layout that cannot be read, and the kind of the field -/
  | unreadable (layout : List Char) (kind : String)
  | twoSeparators
  | separatorWith (separator letter : Char)
  | unknownLetter (letter : Char) (kind : String)
  | signOnText
  | spaceOnText
  | zeroSignOnText
  | alternateText
  | insideText
  | precisionOnWhole
  | zeroSignOnWhole
  | signOnCharacter
  | alternateCharacter
  /-- a code that is no character's, or a whole number beyond all numbers with a point -/
  | outOfRange
  | unsuited
  deriving DecidableEq

/-- A letter of a layout as messages show it. -/
def shownLetter (letter : Char) : String :=
  if 32 < letter.toNat && letter.toNat < 128 then String.ofList [letter]
  else String.ofList ('\\' :: 'x' :: Nat.toDigits 16 letter.toNat)

def LayoutFlaw.message : LayoutFlaw → String
  | .tooManyDigits => "Too many decimal digits in format string"
  | .noPrecision => "Format specifier missing precision"
  | .unreadable layout kind =>
    s!"Invalid format specifier '{String.ofList layout}' for object of type '{kind}'"
  | .twoSeparators => "Cannot specify both ',' and '_'."
  | .separatorWith separator letter =>
    s!"Cannot specify '{String.ofList [separator]}' with '{shownLetter letter}'."
  | .unknownLetter letter kind => s!"Unknown format code '{shownLetter letter}' for object of type '{kind}'"
  | .signOnText => "Sign not allowed in string format specifier"
  | .spaceOnText => "Space not allowed in string format specifier"
  | .zeroSignOnText => "Negative zero coercion (z) not allowed in string format specifier"
  | .alternateText => "Alternate form (#) not allowed in string format specifier"
  | .insideText => "'=' alignment not allowed in string format specifier"
  | .precisionOnWhole => "Precision not allowed in integer format specifier"
  | .zeroSignOnWhole => "Negative zero coercion (z) not allowed in integer format specifier"
  | .signOnCharacter => "Sign not allowed with integer format specifier 'c'"
  | .alternateCharacter => "Alternate form (#) not allowed with integer format specifier 'c'"
  | .outOfRange => "The number is out of range"
  | .unsuited => "The field cannot be laid out"

/-- A number in digits of any script, if a text is one. Numbers from `2 ^ 63` on are refused, as soon as the
digits amount to one. -/
def wholeNumber? (text : List Char) : Except LayoutFlaw (Option Nat) :=
  if text.isEmpty then .ok none else go 0 text
where
  /-- Goes on after digits that amount to `seen`. -/
  go (seen : Nat) : List Char → Except LayoutFlaw (Option Nat)
    | [] => .ok (some seen)
    | c :: rest =>
      match Text.decimalValue? c.toNat with
      | none => .ok none
      | some digit =>
        if 0x8000000000000000 ≤ 10 * seen + digit then .error .tooManyDigits else go (10 * seen + digit) rest

/-! ## 2. Reading -/

/-- Where a field goes in its width. -/
inductive Side where
  | left
  | right
  | middle
  /-- the fill goes between the sign and the digits -/
  | inside
  deriving DecidableEq

def Side.of? : Char → Option Side
  | '<' => some .left
  | '>' => some .right
  | '^' => some .middle
  | '=' => some .inside
  | _ => none

/-- How a field is laid out. -/
structure Layout where
  fill : Char
  side : Side
  sign : Option Char
  /-- whether zero loses its minus sign -/
  plainZero : Bool
  alternate : Bool
  width : Nat
  separator : Option Char
  precision : Option Nat
  letter : Option Char

namespace Layout

/-- Takes a character off a text, if it comes first there. -/
def takeOff (c : Char) : List Char → Bool × List Char
  | d :: rest => if d = c then (true, rest) else (false, d :: rest)
  | [] => (false, [])

/-- Takes a number off a text, if one comes first there. -/
def takeNumber (text : List Char) : Except LayoutFlaw (Option Nat × List Char) := do
  let isDigit (c : Char) : Bool := Text.isDecimalDigit c.toNat
  return (← wholeNumber? (text.takeWhile isDigit), text.dropWhile isDigit)

/-- The letters that a separator may stand with. Before the letters of other bases only an underscore may. -/
def suitsSeparator (separator : Char) : Option Char → Bool
  | none => true
  | some letter =>
    ['d', 'e', 'f', 'g', 'E', 'G', '%', 'F'].contains letter ||
      (separator == '_' && ['b', 'o', 'x', 'X'].contains letter)

/-- Reads a layout for a field of a kind, which has a side of its own and perhaps a letter. -/
def read (text : List Char) (kind : String) (ownSide : Side) (ownLetter : Option Char) :
    Except LayoutFlaw Layout := do
  let (fill, side, rest) :=
    match text with
    | c :: d :: rest =>
      match Side.of? d, Side.of? c with
      | some side, _ => (some c, some side, rest)
      | none, some side => (none, some side, d :: rest)
      | none, none => (none, none, text)
    | [c] =>
      match Side.of? c with
      | some side => (none, some side, [])
      | none => (none, none, text)
    | [] => (none, none, [])
  let (sign, rest) :=
    match rest with
    | c :: after => if c = ' ' ∨ c = '+' ∨ c = '-' then (some c, after) else (none, rest)
    | [] => (none, [])
  let (plainZero, rest) := takeOff 'z' rest
  let (alternate, rest) := takeOff '#' rest
  let (isZeroFilled, rest) := if fill.isNone then takeOff '0' rest else (false, rest)
  let zeroSide := if isZeroFilled && ownSide = .right then .inside else ownSide
  let (width, rest) ← takeNumber rest
  let (hasComma, rest) := takeOff ',' rest
  let (hasUnderscore, rest) := takeOff '_' rest
  if hasUnderscore && (hasComma || rest.head? == some ',') then throw .twoSeparators
  let separator := if hasUnderscore then some '_' else if hasComma then some ',' else none
  let (hasPoint, rest) := takeOff '.' rest
  let (precision, rest) ← if hasPoint then takeNumber rest else pure (none, rest)
  if hasPoint && precision.isNone then throw .noPrecision
  let letter ←
    match rest with
    | [] => pure ownLetter
    | [c] => pure (some c)
    | _ => throw (.unreadable text kind)
  match separator with
  | some s =>
    if !suitsSeparator s letter then throw (.separatorWith s (letter.getD s))
  | none => pure ()
  return {
    fill := fill.getD (if isZeroFilled then '0' else ' ')
    side := side.getD zeroSide
    sign, plainZero, alternate, separator, precision, letter
    width := width.getD 0 }

/-! ## 3. Texts -/

def filling (l : Layout) (count : Nat) : List Char := List.replicate count l.fill

/-- A text in the width of the layout. -/
def padded (l : Layout) (text : List Char) : List Char :=
  let free := l.width - text.length
  match l.side with
  | .left => text ++ l.filling free
  | .inside => text ++ l.filling free
  | .right => l.filling free ++ text
  | .middle => l.filling (free / 2) ++ text ++ l.filling (free - free / 2)

/-- Lays a text out; the precision is the number of characters that are kept. -/
def ofText (layout text : List Char) : Except LayoutFlaw (List Char) := do
  let l ← read layout "str" .left (some 's')
  if l.letter ≠ some 's' then throw (.unknownLetter (l.letter.getD 's') "str")
  if l.sign = some ' ' then throw .spaceOnText
  if l.sign.isSome then throw .signOnText
  if l.plainZero then throw .zeroSignOnText
  if l.alternate then throw .alternateText
  if l.side = .inside then throw .insideText
  return l.padded (match l.precision with | some n => text.take n | none => text)

/-! ## 4. Numbers -/

/-- A number as it is written, in its parts. -/
structure Parts where
  negative : Bool
  /-- what comes between the sign and the digits -/
  lead : List Char
  digits : List Char
  /-- what comes after the digits: the point and all that follows -/
  rest : List Char

/-- Digits in groups of a size, last group first and each reversed. Zeros come before them until `least`
characters are there; a separator never comes first. -/
def grouped (separator : Char) (size : Nat) : (fuel : Nat) → (least : Int) → List Char → List Char
  | 0, _, reversed => reversed
  | fuel + 1, least, reversed =>
    let length := min (size : Int) (max (max reversed.length least) 1)
    let taken := reversed.take length.toNat
    let group := taken ++ List.replicate (length.toNat - taken.length) '0'
    let left := reversed.drop length.toNat
    if left.isEmpty && least - length ≤ 0 then group
    else group ++ separator :: grouped separator size fuel (least - length - 1) left

/-- Lays a number out whose parts have been written. Groups have `size` digits. -/
def ofParts (l : Layout) (size : Nat) (p : Parts) : List Char :=
  let sign : List Char :=
    if p.negative then ['-']
    else match l.sign with
      | some '+' => ['+']
      | some ' ' => [' ']
      | _ => []
  let fixed := sign.length + p.lead.length + p.rest.length
  let least : Int := if l.fill = '0' ∧ l.side = .inside then l.width - fixed else 0
  let digits :=
    if p.digits.isEmpty then []
    else match l.separator with
      | some s => (grouped s size (p.digits.length + l.width + 1) least p.digits.reverse).reverse
      | none => List.replicate (least.toNat - p.digits.length) '0' ++ p.digits
  match l.side with
  | .inside =>
    sign ++ p.lead ++ l.filling (l.width - (fixed + digits.length)) ++ digits ++ p.rest
  | _ => l.padded (sign ++ p.lead ++ digits ++ p.rest)

def ownPrecision : Nat := 6

/-- Digits in upper case letters, where a letter of the layout is. -/
def inCaseOf (letter : Char) (text : List Char) : List Char :=
  if letter.isUpper then text.map Char.toUpper else text

/-- The parts of a finite number without its sign, under a letter and a precision. -/
def finiteText (l : Layout) (b : Number.Binary) : List Char :=
  let fixed (places : Nat) : List Char :=
    let digits := Number.digitsOf (b.inPlaces places)
    let digits := List.replicate (places + 1 - digits.length) '0' ++ digits
    let whole := digits.length - places
    digits.take whole ++ if places = 0 && !l.alternate then [] else '.' :: digits.drop whole
  let general (count : Nat) (fractionToo : Bool) : List Char :=
    let count := max count 1
    let d := b.inDigits count
    let isFar := isFarOff d (if fractionToo then count - 1 else count)
    let d := { d with digits := Number.withoutFinalZeros d.digits }
    pointText ⟨isFar, if l.alternate then count else 0, fractionToo, l.alternate⟩ d
  match l.letter, l.precision with
  | none, none =>
    let d := b.shortest
    pointText ⟨isFarOff d 16, 0, true, l.alternate⟩ d
  | none, some n => general n true
  | some c, n =>
    let n := n.getD ownPrecision
    match c.toLower with
    | 'e' => pointText ⟨true, n + 1, false, l.alternate⟩ (b.inDigits (n + 1))
    | 'f' => fixed n
    | '%' => fixed n
    | _ => general n false

/-- Lays a number with a point out. -/
def ofRealWith (l : Layout) (x : Float) (kind : String) : Except LayoutFlaw (List Char) := do
  let letter := l.letter.getD 'g'
  if !(['e', 'E', 'f', 'F', 'g', 'G', 'n', '%'].contains letter) then throw (.unknownLetter letter kind)
  let x := if letter = '%' then x * 100 else x
  let isNegative := Number.Binary.isNegative x
  let text := inCaseOf letter <|
    match Number.Binary.ofFloat? x with
    | some b => l.finiteText b
    | none => "inf".toList
  let isZero := text.all fun c => !('1' ≤ c && c ≤ '9') && c != 'i' && c != 'I'
  return l.ofParts 3 {
    negative := isNegative && !(l.plainZero && isZero)
    lead := []
    digits := text.takeWhile Char.isDigit
    rest := text.dropWhile Char.isDigit ++ if letter = '%' then ['%'] else [] }

/-- Lays a number with a point out. -/
def ofReal (layout : List Char) (x : Float) : Except LayoutFlaw (List Char) := do
  (← read layout "float" .right none).ofRealWith x "float"

/-- The base that a letter stands for, and what comes before its digits in the alternate form. -/
def base? : Char → Option (Nat × List Char)
  | 'b' => some (2, ['0', 'b'])
  | 'o' => some (8, ['0', 'o'])
  | 'x' => some (16, ['0', 'x'])
  | 'X' => some (16, ['0', 'X'])
  | 'd' => some (10, [])
  | 'n' => some (10, [])
  | _ => none

/-- Lays a whole number out. Under a letter for numbers with a point it becomes one. -/
def ofWhole (layout : List Char) (n : Int) (kind : String) : Except LayoutFlaw (List Char) := do
  let l ← read layout kind .right (some 'd')
  let letter := l.letter.getD 'd'
  if ['e', 'E', 'f', 'F', 'g', 'G', '%'].contains letter then
    let x := Float.ofScientific n.natAbs false 0
    if x.isInf then throw .outOfRange
    return ← l.ofRealWith (if n < 0 then -x else x) "float"
  if letter ≠ 'c' && (base? letter).isNone then throw (.unknownLetter letter kind)
  if l.precision.isSome then throw .precisionOnWhole
  if l.plainZero then throw .zeroSignOnWhole
  match base? letter with
  | some (base, lead) =>
    return l.ofParts (if base = 10 then 3 else 4) {
      negative := decide (n < 0)
      lead := if l.alternate then lead else []
      digits := inCaseOf letter (Nat.toDigits base n.natAbs)
      rest := [] }
  | none =>
    if l.sign.isSome then throw .signOnCharacter
    if l.alternate then throw .alternateCharacter
    if n < 0 ∨ 0x10FFFF < n then throw .outOfRange
    return l.ofParts 3 ⟨false, [], [], [Char.ofNat n.toNat]⟩

/-- Lays a field out. Without a layout it is written plainly. -/
def written (layout : List Char) (field : Field) : Except LayoutFlaw (List Char) :=
  if layout.isEmpty then .ok field.plain
  else
    match field with
    | .text t => ofText layout t
    | .int n => ofWhole layout n "int"
    | .bool b => ofWhole layout (if b then 1 else 0) "bool"
    | .real x => ofReal layout x
    | _ => .error .unsuited

end Layout

end Descent.Journal
