import Descent.Journal.Layout

/-!
# Templates of log messages

A template is a text with fields in braces; a doubled brace stands for a brace. Between its braces a field has a
name, and after it perhaps the way to a part of the field (an element in brackets, a named part after a point), a
conversion after an exclamation mark, and a layout after a colon. A layout may hold fields itself, but those
may not.
-/

namespace Descent.Journal

/-- Why a template cannot be filled in. -/
inductive TemplateFlaw where
  | singleClosing
  | singleOpening
  | openingInName
  | unfinished
  | noConversion
  | afterConversion
  | unfinishedLayout
  | unknownConversion (letter : Char)
  | emptyStep
  | noClosingBracket
  | afterBracket
  | tooDeep
  /-- a field that is asked for by its number -/
  | numbered
  | unknownField
  | noSuchElement
  /-- an element asked of a field that has none, or by what is no number -/
  | notIndexable
  | unknownPart
  /-- a field under a name that the message or its level has -/
  | takenName
  | layout (flaw : LayoutFlaw)
  deriving DecidableEq

def TemplateFlaw.message : TemplateFlaw → String
  | .singleClosing => "Single '\x7d' encountered in format string"
  | .singleOpening => "Single '\x7b' encountered in format string"
  | .openingInName => "unexpected '\x7b' in field name"
  | .unfinished => "expected '\x7d' before end of string"
  | .noConversion => "end of string while looking for conversion specifier"
  | .afterConversion => "expected ':' after conversion specifier"
  | .unfinishedLayout => "unmatched '\x7b' in format spec"
  | .unknownConversion letter =>
    let shown :=
      if 32 < letter.toNat && letter.toNat < 127 then [letter]
      else '\\' :: 'x' :: Nat.toDigits 16 letter.toNat
    "Unknown conversion specifier " ++ String.ofList shown
  | .emptyStep => "Empty attribute in format string"
  | .noClosingBracket => "Missing ']' in format string"
  | .afterBracket => "Only '.' or '[' may follow ']' in format field specifier"
  | .tooDeep => "Max string recursion exceeded"
  | .numbered => "Fields have no numbers"
  | .unknownField => "The message has no such field"
  | .noSuchElement => "The field has no such element"
  | .notIndexable => "The field has no elements"
  | .unknownPart => "The field has no such part"
  | .takenName => "A field cannot be called message or level"
  | .layout flaw => flaw.message

namespace Template

/-! ## 1. Parts of fields -/

/-- An element of a field, by what stands in the brackets. -/
def element (name : List Char) : Field → Except TemplateFlaw Field
  | .table keys items => do
    match ← (wholeNumber? name).mapError .layout with
    | some _ => throw .unknownField
    | none =>
      match (keys.zip items).find? (·.1 == name) with
      | some (_, item) => return item
      | none => throw .unknownField
  | .text t => numbered name (t.map fun c => .text [c])
  | .list items => numbered name items
  | _ => do
    let _ ← (wholeNumber? name).mapError TemplateFlaw.layout
    throw .notIndexable
where
  numbered (name : List Char) (items : List Field) : Except TemplateFlaw Field := do
    match ← (wholeNumber? name).mapError .layout with
    | none => throw .notIndexable
    | some i =>
      match items[i]? with
      | some item => return item
      | none => throw .noSuchElement

/-- A part of a field by its name: those of a number as a fraction and as a complex number. -/
def part (name : List Char) (field : Field) : Except TemplateFlaw Field :=
  let ofInt (n : Int) : Except TemplateFlaw Field :=
    match String.ofList name with
    | "real" => .ok (.int n)
    | "numerator" => .ok (.int n)
    | "imag" => .ok (.int 0)
    | "denominator" => .ok (.int 1)
    | _ => .error .unknownPart
  match field with
  | .int n => ofInt n
  | .bool b => ofInt (if b then 1 else 0)
  | .real x =>
    match String.ofList name with
    | "real" => .ok (.real x)
    | "imag" => .ok (.real 0)
    | _ => .error .unknownPart
  | _ => .error .unknownPart

/-- Follows the way to a part of a field. Each step takes a character at least, so the length of the way is
enough fuel. -/
def follow : (fuel : Nat) → List Char → Field → Except TemplateFlaw Field
  | 0, _, field => .ok field
  | _ + 1, [], field => .ok field
  | fuel + 1, '.' :: rest, field => do
    let inName (c : Char) : Bool := c != '.' && c != '['
    let name := rest.takeWhile inName
    if name.isEmpty then throw .emptyStep
    follow fuel (rest.dropWhile inName) (← part name field)
  | fuel + 1, '[' :: rest, field => do
    match rest.dropWhile (· != ']') with
    | [] => throw .noClosingBracket
    | _ :: left =>
      let name := rest.takeWhile (· != ']')
      if name.isEmpty then throw .emptyStep
      follow fuel left (← element name field)
  | _ + 1, _ :: _, _ => .error .afterBracket

/-- The field, or the part of one, that a name with a way after it means. -/
def lookup (fields : List (List Char × Field)) (text : List Char) : Except TemplateFlaw Field := do
  let inName (c : Char) : Bool := c != '.' && c != '['
  let name := text.takeWhile inName
  if name.isEmpty then throw .numbered
  match ← (wholeNumber? name).mapError .layout with
  | some _ => throw .numbered
  | none =>
    match fields.find? (·.1 == name) with
    | none => throw .unknownField
    | some (_, field) => follow (text.length + 1) (text.dropWhile inName) field

/-- A text without characters beyond ASCII: each is escaped by its code. -/
def asciiOnly (text : List Char) : List Char :=
  text.flatMap fun c =>
    let code := c.toNat
    if code < 128 then [c]
    else if code < 256 then '\\' :: 'x' :: Text.hexDigits code 2
    else if code < 65536 then '\\' :: 'u' :: Text.hexDigits code 4
    else '\\' :: 'U' :: Text.hexDigits code 8

/-- A field after a conversion. -/
def converted (field : Field) : Char → Except TemplateFlaw Field
  | 's' => .ok (.text field.plain)
  | 'r' => .ok (.text field.shown)
  | 'a' => .ok (.text (asciiOnly field.shown))
  | letter => .error (.unknownConversion letter)

/-! ## 2. Reading a field -/

/-- What stands between the braces of a field. -/
structure Slot where
  name : List Char
  conversion : Option Char
  layout : List Char

/-- Takes a name off a template, and the character that ends it. What stands in brackets belongs to the name. -/
def slotName : (isInBrackets : Bool) → List Char → Except TemplateFlaw (List Char × Char × List Char)
  | _, [] => .error .unfinished
  | true, c :: rest => do
    let (name, stop, left) ← slotName (c != ']') rest
    return (c :: name, stop, left)
  | false, c :: rest =>
    if c = '\x7b' then .error .openingInName
    else if c = '\x7d' ∨ c = ':' ∨ c = '!' then .ok ([], c, rest)
    else do
      let (name, stop, left) ← slotName (c == '[') rest
      return (c :: name, stop, left)

/-- Takes a layout off a template, up to the brace that closes the field; `depth` braces have been opened in it. -/
def slotLayout : (depth : Nat) → List Char → Except TemplateFlaw (List Char × List Char)
  | _, [] => .error .unfinishedLayout
  | depth, c :: rest =>
    if c = '\x7d' then
      match depth with
      | 0 => .ok ([], rest)
      | depth + 1 => do
        let (layout, left) ← slotLayout depth rest
        return (c :: layout, left)
    else do
      let (layout, left) ← slotLayout (if c = '\x7b' then depth + 1 else depth) rest
      return (c :: layout, left)

/-- Takes a field off a template, after its opening brace. -/
def slot (template : List Char) : Except TemplateFlaw (Slot × List Char) := do
  let (name, stop, rest) ← slotName false template
  if stop = '\x7d' then return (⟨name, none, []⟩, rest)
  else if stop = ':' then
    let (layout, left) ← slotLayout 0 rest
    return (⟨name, none, layout⟩, left)
  else
    match rest with
    | [] => throw .noConversion
    | [_] => throw .unfinishedLayout
    | letter :: '\x7d' :: left => return (⟨name, some letter, []⟩, left)
    | letter :: ':' :: rest =>
      let (layout, left) ← slotLayout 0 rest
      return (⟨name, some letter, layout⟩, left)
    | _ => throw .afterConversion

/-! ## 3. Filling in -/

/-- A template with its fields filled in. Layouts hold fields down to the given depth; each step takes a character
at least, so the length of the template is enough fuel. -/
def filled (fields : List (List Char × Field)) : (depth fuel : Nat) → List Char → Except TemplateFlaw (List Char)
  | 0, _, _ => .error .tooDeep
  | _, 0, _ => .ok []
  | _, _ + 1, [] => .ok []
  | depth + 1, fuel + 1, c :: rest =>
    if c = '\x7d' then
      match rest with
      | '\x7d' :: rest => do return c :: (← filled fields (depth + 1) fuel rest)
      | _ => .error .singleClosing
    else if c = '\x7b' then
      match rest with
      | [] => .error .singleOpening
      | '\x7b' :: rest => do return c :: (← filled fields (depth + 1) fuel rest)
      | _ => do
        let (s, left) ← slot rest
        let field ← lookup fields s.name
        let field ←
          match s.conversion with
          | none => pure field
          | some letter => converted field letter
        let layout ←
          if s.layout.contains '\x7b' then filled fields depth (s.layout.length + 1) s.layout
          else pure s.layout
        let written ← (Layout.written layout field).mapError .layout
        return written ++ (← filled fields (depth + 1) fuel left)
    else do return c :: (← filled fields (depth + 1) fuel rest)
  termination_by depth fuel => (depth, fuel)

end Template

end Descent.Journal
