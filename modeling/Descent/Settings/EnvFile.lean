import Descent.Text.Blank

/-!
# Environment files

A file of bindings `KEY=VALUE`, one to a line. Blanks around the sign, a leading `export` and comments are
skipped; a value may stand in quotes, and then it may hold line ends and escapes. A key without a sign is bound
to nothing. A line that fits no form is passed over. A byte order mark may come first, and lines may end in a
carriage return, a line feed or both.

A value may refer to a variable as `${NAME}`, or `${NAME:-default}`; bindings above it are seen before the
environment. Of equal keys the last wins, at the place of the first.
-/

namespace Descent.EnvFile

/-! ## 1. Scanning -/

def isBlank (c : Char) : Bool := Text.isBlank c.toNat

def isLineEnd (c : Char) : Bool := c == '\n'

/-- A blank that does not end a line. -/
def isInlineBlank (c : Char) : Bool := isBlank c && !isLineEnd c

/-- A text whose lines all end in a line feed. -/
def withLineFeeds : List Char → List Char
  | [] => []
  | '\r' :: '\n' :: rest => '\n' :: withLineFeeds rest
  | '\r' :: rest => '\n' :: withLineFeeds rest
  | c :: rest => c :: withLineFeeds rest

def withoutMark : List Char → List Char
  | '\ufeff' :: rest => rest
  | text => text

/-- A piece of the file, if it is there, and what follows it. -/
abbrev Scan (α : Type) := List Char → Option (α × List Char)

/-- Text up to a closing quote. A backslash and the character after it belong together, so a quote after a
backslash does not close. -/
def quotedText (quote : Char) : Scan (List Char)
  | [] => none
  | '\\' :: c :: rest => (quotedText quote rest).map fun (text, left) => ('\\' :: c :: text, left)
  | c :: rest =>
    if c = quote then some ([], rest)
    else (quotedText quote rest).map fun (text, left) => (c :: text, left)

/-- What an escaped character stands for between single or double quotes. -/
def escaped? (quote c : Char) : Option Char :=
  if c = '\\' ∨ c = '\'' then some c
  else if quote = '\'' then none
  else match c with
    | '"' => some '"'
    | 'a' => some '\x07'
    | 'b' => some '\x08'
    | 'f' => some '\x0c'
    | 'n' => some '\n'
    | 'r' => some '\r'
    | 't' => some '\t'
    | 'v' => some '\x0b'
    | _ => none

/-- Text with its escapes replaced. -/
def unescaped (quote : Char) : List Char → List Char
  | [] => []
  | '\\' :: c :: rest =>
    match escaped? quote c with
    | some d => d :: unescaped quote rest
    | none => '\\' :: unescaped quote (c :: rest)
  | c :: rest => c :: unescaped quote rest

/-- Text before a comment, which begins with a blank and a number sign. -/
def beforeComment : List Char → List Char
  | [] => []
  | c :: rest =>
    if isBlank c && (rest.dropWhile isBlank).head? == some '#' then []
    else c :: beforeComment rest

def line (cs : List Char) : List Char × List Char :=
  (cs.takeWhile (!isLineEnd ·), cs.dropWhile (!isLineEnd ·))

/-- A key, or nothing where a comment begins. -/
def key : Scan (Option (List Char))
  | '#' :: rest => some (none, '#' :: rest)
  | '\'' :: rest =>
    let name := rest.takeWhile (· != '\'')
    match rest.dropWhile (· != '\'') with
    | _ :: left => if name.isEmpty then none else some (some name, left)
    | [] => none
  | cs =>
    let isKey (c : Char) : Bool := c != '=' && c != '#' && !isBlank c
    let name := cs.takeWhile isKey
    if name.isEmpty then none else some (some name, cs.dropWhile isKey)

/-- A value after the sign. A comment may follow the sign at once, if a blank divides them. -/
def value : Scan (List Char) := fun cs =>
  match cs.dropWhile isInlineBlank with
  | '\'' :: rest => (quotedText '\'' rest).map fun (text, left) => (unescaped '\'' text, left)
  | '"' :: rest => (quotedText '"' rest).map fun (text, left) => (unescaped '"' text, left)
  | _ =>
    let (text, left) := line cs
    some (Text.trim isBlank (beforeComment text), left)

/-- The end of a line, after a comment or not. -/
def lineEnd (cs : List Char) : Option (List Char) :=
  let afterBlanks := cs.dropWhile isInlineBlank
  let left :=
    match afterBlanks with
    | '#' :: _ => (line afterBlanks).2
    | left => left
  match left with
  | [] => some []
  | c :: left => if isLineEnd c then some left else none

/-- What follows the line that a faulty binding stands in. -/
def afterLine (cs : List Char) : List Char :=
  match (line cs).2 with
  | [] => []
  | _ :: left => left

/-- Drops `export` and the blanks after it, if there are any. -/
def afterExport (cs : List Char) : List Char :=
  match cs with
  | 'e' :: 'x' :: 'p' :: 'o' :: 'r' :: 't' :: c :: rest =>
    if isInlineBlank c then rest.dropWhile isInlineBlank else cs
  | _ => cs

/-- A binding: its key if it has one, and its value if it has one. -/
structure Binding where
  key : Option String
  value : Option (List Char)

/-- Reads one binding from its first character that is no blank. A faulty one has no key. -/
def binding (cs : List Char) : Binding × List Char :=
  let cs := afterExport cs
  match key cs with
  | none => (⟨none, none⟩, afterLine cs)
  | some (name, left) =>
    let name := name.map String.ofList
    let left := left.dropWhile isInlineBlank
    match left with
    | '=' :: left =>
      match value left with
      | none => (⟨none, none⟩, afterLine left)
      | some (text, left) =>
        match lineEnd left with
        | none => (⟨none, none⟩, afterLine left)
        | some left => (⟨name, some text⟩, left)
    | left =>
      match lineEnd left with
      | none => (⟨none, none⟩, afterLine left)
      | some left => (⟨name, none⟩, left)

/-- All bindings of a file. Each takes at least one character, so the length of the file is enough fuel. -/
def bindings : Nat → List Char → List Binding
  | 0, _ => []
  | fuel + 1, cs =>
    match cs.dropWhile isBlank with
    | [] => []
    | cs =>
      let (b, left) := binding cs
      b :: bindings fuel left

/-! ## 2. Variables -/

/-- What a name is bound to, or the empty text if to nothing; `none` if it is not bound. -/
def lookup (scope : List (String × Option (List Char))) (name : String) : Option (List Char) :=
  (scope.find? (·.1 == name)).map fun (_, value) => value.getD []

/-- A reference to a variable after its opening brace: the name, the default, and what follows. -/
def reference (cs : List Char) : Option (List Char × Option (List Char) × List Char) :=
  let inName (c : Char) : Bool := c != '\x7d' && c != ':'
  let name := cs.takeWhile inName
  match cs.dropWhile inName with
  | '\x7d' :: left => some (name, none, left)
  | ':' :: '-' :: left =>
    match left.dropWhile (· != '\x7d') with
    | _ :: after => some (name, some (left.takeWhile (· != '\x7d')), after)
    | [] => none
  | _ => none

/-- A value with its references replaced. Each takes at least three characters, so the length of the value is
enough fuel. -/
def expanded (scope : List (String × Option (List Char))) : Nat → List Char → List Char
  | 0, cs => cs
  | _ + 1, [] => []
  | fuel + 1, c :: rest =>
    match c, rest with
    | '$', '\x7b' :: inner =>
      match reference inner with
      | some (name, default, left) =>
        (lookup scope (String.ofList name)).getD (default.getD []) ++ expanded scope fuel left
      | none => c :: expanded scope fuel rest
    | _, _ => c :: expanded scope fuel rest

/-- Binds a key, at the place where it is bound already if it is. -/
def put (key : String) (value : Option (List Char)) :
    List (String × Option (List Char)) → List (String × Option (List Char))
  | [] => [(key, value)]
  | (k, v) :: rest => if k = key then (k, value) :: rest else (k, v) :: put key value rest

/-- The bindings of a file, in order, each key once. -/
def entries (environment : List (String × String)) (file : String) :
    List (String × Option (List Char)) :=
  let outer := environment.map fun (k, v) => (k, some v.toList)
  let text := withLineFeeds (withoutMark file.toList)
  (bindings (text.length + 1) text).foldl (fun found b =>
    match b.key with
    | none => found
    | some key =>
      put key (b.value.map fun v => expanded (found ++ outer) (v.length + 1) v) found) []

end Descent.EnvFile
