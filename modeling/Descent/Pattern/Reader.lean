import Descent.Distinct
import Descent.Pattern.Run
import Descent.Pattern.Width
import Descent.Text.Decimal
import Descent.Text.Name

/-!
# Reading the notation of patterns

`Program.read` turns the text of a regular expression into a `Program`, or says what is wrong with it. The text
is first cut into tokens, so that a backslash and the character after it are never taken apart, not even inside
a name or a comment; a backslash with nothing after it is refused here.

The reader then builds *pieces*. A piece remembers how it was written as far as the notation depends on it: an
anchor cannot be repeated and a repetition not repeated again, but a group around either can; alternatives that
are all single characters are one set; a single character in brackets is that character. Options take effect
while pieces become patterns, so a finished pattern carries none.

Two flaws are held back until the whole text has been read: options for the whole pattern that exclude each
other, and, after that, parts that are well written but cannot be, such as a look-behind without one width.

One notation is not read: a character by its name, `\N` with the name in braces, which would need the table of all
names. It is refused as an escape that there is not, by `setEscape` and by `escape`.

The recursion follows the nesting of groups and spends one unit of fuel per step; every step consumes a token
or closes a level, so three units for each token are enough.
-/

namespace Descent.Pattern

/-! ## 1. Tokens -/

/-- A character of the notation, or one that follows a backslash. -/
inductive Token where
  | plain (c : Char)
  | escaped (c : Char)
  deriving DecidableEq

/-- Cuts a text into tokens; `none` if it ends in a backslash. -/
def tokens? : List Char → Option (List Token)
  | [] => some []
  | ['\\'] => none
  | '\\' :: c :: rest => (tokens? rest).map (.escaped c :: ·)
  | c :: rest => (tokens? rest).map (.plain c :: ·)

def Token.chars : Token → List Char
  | .plain c => [c]
  | .escaped c => ['\\', c]

/-! ## 2. Options -/

/-- The options of a pattern, each on or off. -/
structure Options where
  ignoreCase : Bool := false
  multiline : Bool := false
  dotAll : Bool := false
  /-- blanks and comments between items are skipped -/
  verbose : Bool := false
  asciiOnly : Bool := false
  /-- the full character classes were asked for by name -/
  allScripts : Bool := false
  /-- repetitions are refused -/
  noLoops : Bool := false
  deriving DecidableEq

namespace Options

/-- Switches on the option that a letter stands for. -/
def withLetter? (o : Options) : Char → Option Options
  | 'i' => some { o with ignoreCase := true }
  | 'm' => some { o with multiline := true }
  | 's' => some { o with dotAll := true }
  | 'x' => some { o with verbose := true }
  | 'a' => some { o with asciiOnly := true }
  | 'u' => some { o with allScripts := true }
  | 't' => some { o with noLoops := true }
  | _ => none

def union (a b : Options) : Options where
  ignoreCase := a.ignoreCase || b.ignoreCase
  multiline := a.multiline || b.multiline
  dotAll := a.dotAll || b.dotAll
  verbose := a.verbose || b.verbose
  asciiOnly := a.asciiOnly || b.asciiOnly
  allScripts := a.allScripts || b.allScripts
  noLoops := a.noLoops || b.noLoops

/-- Whether both choices of character classes are asked for. -/
def contradictory (o : Options) : Bool := o.asciiOnly && o.allScripts

def overlaps (a b : Options) : Bool :=
  (a.ignoreCase && b.ignoreCase) || (a.multiline && b.multiline) || (a.dotAll && b.dotAll) ||
    (a.verbose && b.verbose)

/-- The options inside a group that switches some on and some off. -/
def adjusted (o add remove : Options) : Options where
  ignoreCase := (o.ignoreCase || add.ignoreCase) && !remove.ignoreCase
  multiline := (o.multiline || add.multiline) && !remove.multiline
  dotAll := (o.dotAll || add.dotAll) && !remove.dotAll
  verbose := (o.verbose || add.verbose) && !remove.verbose
  asciiOnly := if add.asciiOnly || add.allScripts then add.asciiOnly else o.asciiOnly
  allScripts := o.allScripts || add.allScripts
  noLoops := o.noLoops

/-- How letters are compared under these options. -/
def caseRule (o : Options) : CaseRule :=
  if !o.ignoreCase then .exact else if o.asciiOnly then .ascii else .full

end Options

/-! ## 3. Pieces -/

/-- A part of a sequence, as far as the notation still depends on how it was written. -/
inductive Piece where
  | single (negated : Bool) (code : Nat)
  | set (negated : Bool) (items : List CharItem)
  | anyChar
  | anchor (place : Anchor)
  | again (index : Nat)
  | whole (body : Pattern) (isLoop : Bool)

/-- A piece, or the pieces of a group that neither captures nor changes options. Such a group only says how far
a repetition reaches. -/
inductive Slot where
  | piece (p : Piece)
  | wrapped (ps : List Piece)

namespace Piece

/-- Whether two pieces without parts of their own are the same. -/
def sameLeaf : Piece → Piece → Bool
  | .single n c, .single n' c' => n == n' && c == c'
  | .set n items, .set n' items' => n == n' && items == items'
  | .anyChar, .anyChar => true
  | .anchor p, .anchor p' => p == p'
  | .again i, .again i' => i == i'
  | _, _ => false

/-- The pattern that a piece stands for under the given options. -/
def toPattern (o : Options) : Piece → Pattern
  | .single negated code => .one (.ofCode negated code o.caseRule o.asciiOnly)
  | .set negated items => .one (.ofItems negated items o.caseRule o.asciiOnly)
  | .anyChar => .one (.anyChar o.dotAll)
  | .anchor place => .anchor place
  | .again index => .again index o.caseRule
  | .whole body _ => body

/-- Pieces one after another. -/
def sequenced (o : Options) : List Piece → Pattern
  | [] => .empty
  | [p] => p.toPattern o
  | p :: ps => .seq (p.toPattern o) (sequenced o ps)

/-- Splits off the leaves with which all branches begin. -/
def commonLead : List Piece → List (List Piece) → List Piece × List (List Piece)
  | [], others => ([], [] :: others)
  | p :: first, others =>
    if others.all fun b => (b.head?.map p.sameLeaf).getD false then
      let (lead, branches) := commonLead first (others.map List.tail)
      (p :: lead, branches)
    else ([], (p :: first) :: others)

/-- The members of a set that a branch of one piece amounts to. -/
def asMembers? : List Piece → Option (List CharItem)
  | [.single false code] => some [.code code]
  | [.set false items] => some items
  | _ => none

/-- Patterns tried in turn. A last one that is a choice itself is kept apart, so that its branches do not count as
branches of this one. -/
def chosen : List Pattern → Pattern
  | [] => .empty
  | [p] => if p.isChoice then .seq .empty p else p
  | p :: ps => .choice p (chosen ps)

/-- Alternatives as a sequence: the common lead first, then one set if single characters are left to choose
from, and a choice otherwise. -/
def alternated (o : Options) : List (List Piece) → List Piece
  | [] => []
  | [branch] => branch
  | first :: others =>
    let (lead, branches) := commonLead first others
    match branches.mapM asMembers? with
    | some items => lead ++ [.set false (distinct items.flatten)]
    | none => lead ++ [.whole (chosen (branches.map (sequenced o))) false]

end Piece

def Slot.pieces : Slot → List Piece
  | .piece p => [p]
  | .wrapped ps => ps

/-! ## 4. The state of reading -/

/-- What has been read so far, and what is left. -/
structure Reading where
  rest : List Token
  /-- the width of each group from group 1 on, `none` while it is open -/
  groups : List (Option Width)
  names : List (List Char × Nat)
  /-- inside a look-behind, the first group number that was still free where it began -/
  barrier : Option Nat
  /-- the options of the whole pattern -/
  options : Options
  /-- group numbers that conditions ask about -/
  mentioned : List Nat
  /-- whether some part is well written but cannot be -/
  isUnfit : Bool

/-- A reader. It refuses the pattern by what is wrong with it. -/
abbrev Read := StateT Reading (Except PatternFlaw)

namespace Read

def refuse {α : Type} : Read α := fun _ => .error .malformed

def require (condition : Bool) : Read Unit := if condition then pure () else refuse

/-- Goes on, but holds against the pattern that the condition does not hold. -/
def expectFit (condition : Bool) : Read Unit := modify fun r => { r with isUnfit := r.isUnfit || !condition }

def peek : Read (Option Token) := do return (← get).rest.head?

def next : Read (Option Token) := do
  let r ← get
  set { r with rest := r.rest.tail }
  return r.rest.head?

/-- Takes the next token, which must be there. -/
def token : Read Token := do
  match ← next with
  | some t => pure t
  | none => refuse

def accept (c : Char) : Read Bool := do
  if (← peek) = some (.plain c) then
    let _ ← next
    return true
  else return false

def expect (c : Char) : Read Unit := do require (← accept c)

/-- Takes up to `n` plain characters of a class. -/
def upTo (p : Char → Bool) : Nat → Read (List Char)
  | 0 => pure []
  | n + 1 => do
    match ← peek with
    | some (.plain c) =>
      if p c then
        let _ ← next
        return c :: (← upTo p n)
      else return []
    | _ => return []

def allOf (p : Char → Bool) : Read (List Char) := do upTo p (← get).rest.length

/-- Takes everything before a character, and the character. -/
def until? (stop : Char) : List Token → Option (List Char × List Token)
  | [] => none
  | t :: rest =>
    if t = .plain stop then some ([], rest)
    else (until? stop rest).map fun (text, left) => (t.chars ++ text, left)

/-- Takes everything before a character, and the character; what was before it must not be empty. -/
def nameUntil (stop : Char) : Read (List Char) := do
  let r ← get
  match until? stop r.rest with
  | some (text, left) =>
    require !text.isEmpty
    set { r with rest := left }
    return text
  | none => refuse

/-! ### Numbers and names -/

def number (base : Nat) (digits : List Char) : Nat :=
  digits.foldl (fun n c =>
    let d := if c.isDigit then c.toNat - 48 else (c.toNat ||| 32) - 87
    n * base + d) 0

def isOctal (c : Char) : Bool := '0' ≤ c && c ≤ '7'

def isHex (c : Char) : Bool := c.isDigit || ('a' ≤ c && c ≤ 'f') || ('A' ≤ c && c ≤ 'F')

/-- A group number as a condition writes it: positive, in digits of any script with single underscores between
them; a sign and blanks around it are allowed. -/
def groupNumber? (text : List Char) : Option Nat :=
  let trimmed := Text.trim (fun c => Text.isBlank c.toNat) text
  match Text.signed? Text.groupedValue? (trimmed.map Text.asciiDigit) with
  | some n => if 0 < n then some n.toNat else none
  | none => none

/-- Exactly `n` hexadecimal digits, as a code point. -/
def hexCode (n : Nat) : Read Nat := do
  let digits ← upTo isHex n
  require (digits.length == n)
  return number 16 digits

/-! ### Groups -/

/-- The number that the next group will get. -/
def freeGroup : Read Nat := do return (← get).groups.length + 1

/-- The width of a group that has been closed. -/
def closedWidth? (r : Reading) (index : Nat) : Option Width :=
  if index = 0 then none else (r.groups[index - 1]?).join

/-- A reference to a group from inside a look-behind must be to one that was closed before it began. -/
def requireBeforeBarrier (index : Nat) : Read Unit := do
  let r ← get
  match r.barrier with
  | none => pure ()
  | some barrier => require ((closedWidth? r index).isSome && decide (index < barrier))

/-- A reference to a group, which must be closed. -/
def reference (index : Nat) : Read Piece := do
  require (closedWidth? (← get) index).isSome
  requireBeforeBarrier index
  return .again index

def named (name : List Char) : Read Nat := do
  match (← get).names.find? (·.1 == name) with
  | some (_, index) => pure index
  | none => refuse

def openGroup (name : Option (List Char)) : Read Nat := do
  let index ← freeGroup
  match name with
  | none => pure ()
  | some name =>
    require ((← get).names.all (·.1 != name))
    modify fun r => { r with names := (name, index) :: r.names }
  modify fun r => { r with groups := r.groups ++ [none] }
  return index

/-- The width of a body as far as it has been read. -/
def widthOf (body : Pattern) : Read Width := do
  let r ← get
  return body.width (closedWidth? r)

def closeGroup (index : Nat) (body : Pattern) : Read Unit := do
  let width ← widthOf body
  modify fun r => { r with groups := r.groups.set (index - 1) (some width) }

/-! ### Escapes -/

/-- The control characters that have an escape letter of their own. -/
def controlCode? : Char → Option Nat
  | 'a' => some 7
  | 'b' => some 8
  | 'f' => some 12
  | 'n' => some 10
  | 'r' => some 13
  | 't' => some 9
  | 'v' => some 11
  | '\\' => some 92
  | _ => none

/-- The classes that have an escape letter, in lower case for the class and in upper case for its complement. -/
def category? : Char → Option CharItem
  | 'd' => some (.category .digit false)
  | 'D' => some (.category .digit true)
  | 's' => some (.category .blank false)
  | 'S' => some (.category .blank true)
  | 'w' => some (.category .word false)
  | 'W' => some (.category .word true)
  | _ => none

/-- A code point given by hexadecimal digits after one of three letters. -/
def hexEscape? : Char → Option (Read Nat)
  | 'x' => some (hexCode 2)
  | 'u' => some (hexCode 4)
  | 'U' => some do
    let code ← hexCode 8
    require (decide (code ≤ 0x10FFFF))
    return code
  | _ => none

/-- Any other escaped character stands for itself, if it is neither an ASCII letter nor a digit. -/
def literalEscape (c : Char) : Read Nat := do
  require !(c.isAlpha || c.isDigit)
  return c.toNat

/-- An escape inside a set. A character by its name is refused. -/
def setEscape (c : Char) : Read CharItem := do
  match controlCode? c, category? c, hexEscape? c with
  | some code, _, _ => return .code code
  | none, some item, _ => return item
  | none, none, some read => return .code (← read)
  | none, none, none =>
    if isOctal c then
      let code := number 8 (c :: (← upTo isOctal 2))
      require (decide (code ≤ 0o377))
      return .code code
    else return .code (← literalEscape c)

/-- An escaped digit other than zero: three octal digits give a code point, one or two decimal digits a group. -/
def digitEscape (c : Char) : Read Piece := do
  match ← upTo Char.isDigit 1 with
  | [d] =>
    let third ← if isOctal c && isOctal d then upTo isOctal 1 else pure []
    if third.isEmpty then reference (number 10 [c, d])
    else
      let code := number 8 (c :: d :: third)
      require (decide (code ≤ 0o377))
      return .single false code
  | _ => reference (number 10 [c])

/-- An escape outside sets. A character by its name is refused. -/
def escape (o : Options) (c : Char) : Read Piece := do
  match c with
  | 'A' => return .anchor .textStart
  | 'Z' => return .anchor .absoluteEnd
  | 'b' => return .anchor (.wordEdge o.asciiOnly)
  | 'B' => return .anchor (.insideOrOutside o.asciiOnly)
  | _ =>
    match category? c, controlCode? c, hexEscape? c with
    | some item, _, _ => return .set false [item]
    | none, some code, _ => return .single false code
    | none, none, some read => return .single false (← read)
    | none, none, none =>
      if c == '0' then return .single false (number 8 (← upTo isOctal 2))
      else if c.isDigit then digitEscape c
      else return .single false (← literalEscape c)

/-! ### Sets -/

/-- One member of a set, or an end of a range. -/
def setMember : Token → Read CharItem
  | .plain c => return .code c.toNat
  | .escaped c => setEscape c

/-- The members of a set up to its closing bracket, which stands for itself while the set is empty. -/
def setItems : Nat → List CharItem → Read (List CharItem)
  | 0, _ => refuse
  | fuel + 1, items => do
    let t ← token
    if t = .plain ']' && !items.isEmpty then return items
    else
      let low ← setMember t
      if ← accept '-' then
        let t ← token
        if t = .plain ']' then return items ++ [low, .code '-'.toNat]
        else
          match low, ← setMember t with
          | .code low, .code high =>
            require (decide (low ≤ high))
            setItems fuel (items ++ [.range low high])
          | _, _ => refuse
      else setItems fuel (items ++ [low])

def bracketed : Read Piece := do
  let negated ← accept '^'
  let items ← setItems ((← get).rest.length + 1) []
  match distinct items with
  | [.code code] => return .single negated code
  | items => return .set negated items

/-! ### Repetition -/

/-- The number from which on a count is refused. -/
def countLimit : Nat := 4294967295

/-- The counts in braces, after the opening brace; `none` if what follows are no counts, so that the brace
stands for itself and nothing more is taken. -/
def braces : Read (Option (Nat × Option Nat)) := do
  let start ← get
  let low ← allOf Char.isDigit
  let high ← if ← accept ',' then allOf Char.isDigit else pure low
  if (← get).rest = start.rest then return none
  else if ← accept '}' then
    let minimum := number 10 low
    let maximum := if high.isEmpty then none else some (number 10 high)
    if countLimit ≤ minimum || maximum.any (countLimit ≤ ·) then throw .countTooLarge
    require (maximum.all fun m => decide (minimum ≤ m))
    return some (minimum, maximum)
  else
    set start
    return none

/-- The counts that a repetition sign stands for; `none` for a brace that stands for itself. -/
def counts (sign : Char) : Read (Option (Nat × Option Nat)) :=
  match sign with
  | '*' => return some (0, none)
  | '+' => return some (1, none)
  | '?' => return some (0, some 1)
  | _ => braces

/-- How far a repetition goes, by the sign after it. Only one sign is taken, so that a second one is left over. -/
def greed : Read Greed := do
  if ← accept '?' then return .lazy
  if ← accept '+' then return .possessive
  return .greedy

def repeated (o : Options) (minimum : Nat) (maximum : Option Nat) : List Slot → Read (List Slot)
  | [] => refuse
  | .piece (.anchor _) :: _ => refuse
  | .piece (.whole _ true) :: _ => refuse
  | slot :: before => do
    expectFit !o.noLoops
    let greed ← greed
    let body := Piece.sequenced o slot.pieces
    return .piece (.whole (.loop greed minimum maximum body) true) :: before

/-! ### Option letters -/

/-- Takes option letters from `c` on; gives the character that ends them. -/
def optionLetters : Nat → Options → Char → Read (Options × Char)
  | 0, _, _ => refuse
  | fuel + 1, o, c => do
    match o.withLetter? c with
    | none => refuse
    | some o =>
      require !o.contradictory
      match ← token with
      | .escaped _ => refuse
      | .plain d =>
        if d == ')' || d == '-' || d == ':' then return (o, d) else optionLetters fuel o d

/-- What a group says about options: to switch them on for the whole pattern, or on and off in itself. -/
inductive OptionChange where
  | everywhere (add : Options)
  | inside (add remove : Options)

/-- Reads option letters whose first character has been taken. -/
def optionChange (c : Char) : Read OptionChange := do
  let fuel := (← get).rest.length + 1
  let (add, last) ← if c == '-' then pure ({}, c) else optionLetters fuel {} c
  if last == ')' then return .everywhere add
  else
    require !add.noLoops
    let remove ←
      if last == '-' then
        match ← token with
        | .escaped _ => refuse
        | .plain d =>
          let (remove, last) ← optionLetters fuel {} d
          require (last == ':')
          pure remove
      else pure {}
    require !(remove.asciiOnly || remove.allScripts || remove.noLoops)
    require !(add.overlaps remove)
    return .inside add remove

/-! ## 5. Sequences and groups -/

/-- A pattern's blank, which the verbose notation skips. -/
def isSkipped (t : Token) : Bool :=
  match t with
  | .plain c => c == ' ' || (9 ≤ c.toNat && c.toNat ≤ 13)
  | .escaped _ => false

/-- What follows the line that a comment ends. -/
def afterLine : List Token → List Token
  | [] => []
  | t :: rest => if t = .plain '\n' then rest else afterLine rest

/-- What a parenthesis with a question mark opens. -/
inductive Opening where
  | capturing (name : Option (List Char))
  | wrapping
  | atomic
  | comment
  | look (behind wanted : Bool)
  | reference (index : Nat)
  | condition (index : Nat)
  | options (change : OptionChange)

/-- Reads what an opening parenthesis opens. -/
def opening : Read Opening := do
  if !(← accept '?') then return .capturing none
  match ← token with
  | .escaped _ => refuse
  | .plain ':' => return .wrapping
  | .plain '>' => return .atomic
  | .plain '#' => return .comment
  | .plain '=' => return .look false true
  | .plain '!' => return .look false false
  | .plain '<' =>
    if ← accept '=' then return .look true true
    else
      expect '!'
      return .look true false
  | .plain 'P' =>
    if ← accept '<' then
      let name ← nameUntil '>'
      require (Text.isName name)
      return .capturing (some name)
    else
      expect '='
      let name ← nameUntil ')'
      require (Text.isName name)
      return .reference (← named name)
  | .plain '(' =>
    let name ← nameUntil ')'
    if Text.isName name then
      let index ← named name
      requireBeforeBarrier index
      return .condition index
    else
      match groupNumber? name with
      | none => refuse
      | some index =>
        modify fun r => { r with mentioned := index :: r.mentioned }
        requireBeforeBarrier index
        return .condition index
  | .plain c => return .options (← optionChange c)

mutual

/-- Reads a sequence up to a bar, a closing parenthesis or the end. `leading` says that options for the whole
pattern may still be given; `slots` is what has been read, last first. -/
def sequence : Nat → Options → (leading : Bool) → List Slot → Read (List Piece)
  | 0, _, _, _ => refuse
  | fuel + 1, o, leading, slots => do
    let done : Read (List Piece) := return slots.reverse.flatMap Slot.pieces
    match ← peek with
    | none => done
    | some (.plain '|') => done
    | some (.plain ')') => done
    | some t =>
      let _ ← next
      let add (p : Piece) : Read (List Piece) := sequence fuel o leading (.piece p :: slots)
      if o.verbose && isSkipped t then sequence fuel o leading slots
      else if o.verbose && t = .plain '#' then
        modify fun r => { r with rest := afterLine r.rest }
        sequence fuel o leading slots
      else
        match t with
        | .escaped c => do add (← escape o c)
        | .plain '[' => do add (← bracketed)
        | .plain '.' => add .anyChar
        | .plain '^' => add (.anchor (if o.multiline then .lineStart else .textStart))
        | .plain '$' => add (.anchor (if o.multiline then .lineEnd else .textEnd))
        | .plain '(' => parenthesised fuel o leading slots
        | .plain c =>
          if c == '*' || c == '+' || c == '?' || c == '{' then
            match ← counts c with
            | none => add (.single false c.toNat)
            | some (minimum, maximum) =>
              sequence fuel o leading (← repeated o minimum maximum slots)
          else add (.single false c.toNat)

/-- Reads a group after its opening parenthesis, and the rest of the sequence that it stands in. -/
def parenthesised : Nat → Options → (leading : Bool) → List Slot → Read (List Piece)
  | 0, _, _, _ => refuse
  | fuel + 1, o, leading, slots => do
    let add (p : Piece) : Read (List Piece) := sequence fuel o leading (.piece p :: slots)
    match ← opening with
    | .capturing name =>
      let index ← openGroup name
      let body := Piece.sequenced o (← alternatives fuel o false [])
      expect ')'
      closeGroup index body
      add (.whole (.group index body) false)
    | .wrapping =>
      let body ← alternatives fuel o false []
      expect ')'
      sequence fuel o leading (.wrapped body :: slots)
    | .atomic =>
      let body := Piece.sequenced o (← alternatives fuel o false [])
      expect ')'
      add (.whole (.atomic body) false)
    | .comment =>
      let r ← get
      match until? ')' r.rest with
      | none => refuse
      | some (_, left) =>
        modify fun r => { r with rest := left }
        sequence fuel o leading slots
    | .look false wanted =>
      let body := Piece.sequenced o (← alternatives fuel o false [])
      expect ')'
      add (.whole (.look 0 wanted body) false)
    | .look true wanted =>
      let outer := (← get).barrier
      let free ← freeGroup
      modify fun r => { r with barrier := some (outer.getD free) }
      let body := Piece.sequenced o (← alternatives fuel o false [])
      modify fun r => { r with barrier := outer }
      expect ')'
      let width ← widthOf body
      expectFit width.fixed?.isSome
      add (.whole (.look width.least wanted body) false)
    | .reference index => do add (← reference index)
    | .condition index =>
      let thenBody ← sequence fuel o false []
      let elseBody ← if ← accept '|' then sequence fuel o false [] else pure []
      expect ')'
      add (.whole (.given index (Piece.sequenced o thenBody) (Piece.sequenced o elseBody)) false)
    | .options (.everywhere add) =>
      require (leading && slots.isEmpty)
      modify fun r => { r with options := r.options.union add }
      let o := (← get).options
      sequence fuel o leading slots
    | .options (.inside more fewer) =>
      let o' := o.adjusted more fewer
      let body ← alternatives fuel o' false []
      expect ')'
      add (.whole (Piece.sequenced o' body) false)

/-- Reads the branches of a choice; `branches` are those before. The branches of the whole pattern have the
options of the whole pattern. -/
def alternatives : Nat → Options → (outermost : Bool) → List (List Piece) → Read (List Piece)
  | 0, _, _, _ => refuse
  | fuel + 1, o, outermost, branches => do
    let branch ← sequence fuel o (outermost && branches.isEmpty) []
    let whole := (← get).options
    let o := if outermost then whole else o
    let branches := branches ++ [branch]
    if ← accept '|' then alternatives fuel o outermost branches
    else return Piece.alternated o branches

end

/-- Reads a whole pattern. Nothing may be left, conditions may ask only about groups that exist, and all parts
must be fit. -/
def program (fuel : Nat) : Read Program := do
  let pieces ← alternatives fuel (← get).options true []
  let r ← get
  if r.options.contradictory then throw .contradictoryOptions
  require r.rest.isEmpty
  require (r.mentioned.all fun index => decide (index ≤ r.groups.length))
  require !r.isUnfit
  let body := Piece.sequenced r.options pieces
  return ⟨body, (← widthOf body).least⟩

end Read

end Descent.Pattern

namespace Descent

/-- Reads the notation of a regular expression. -/
def Program.read (text : String) (caseSensitive : Bool) : Except PatternFlaw Program :=
  match Pattern.tokens? text.toList with
  | none => .error .malformed
  | some tokens =>
    let start : Pattern.Reading := ⟨tokens, [], [], none, { ignoreCase := !caseSensitive }, [], false⟩
    ((Pattern.Read.program (3 * tokens.length + 3)).run start).map (·.1)

end Descent
