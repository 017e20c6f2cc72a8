import Descent.Settings.EnvFile
import Descent.Text.Decimal
import Descent.Text.Lowering

/-!
# Settings

Four settings govern logging and reports. Each may be given, in falling order of priority, by an argument, by
the environment or by an environment file; otherwise it has a default. Names are read without regard to case; in
the environment and in the file they carry a fixed lead. What is given as text is read by the setting's own
rules, and every setting that cannot be read is reported, as is every name that means none: all of them at once,
in order.
-/

namespace Descent

/-- The settings of the library. -/
structure Settings where
  /-- how much contexts log by default: nothing, failures, and the start and time of each parse -/
  verbosity : Int
  /-- whether the time of each parse is logged -/
  logTiming : Bool
  /-- whether the furthest failure is reported, and not the last one -/
  reportFurthest : Bool
  /-- how many characters of the remaining input a report quotes -/
  snippetLength : Int
  deriving DecidableEq

namespace Settings

/-- The settings where nothing else is said. -/
def default : Settings := ⟨1, true, true, 40⟩

/-- The remaining input as a report quotes it: whole if it is short enough, and otherwise its beginning and an
ellipsis. A negative length says how many characters to leave out at the end. -/
def snippet (s : Settings) (text : List Char) : String :=
  if (text.length : Int) ≤ s.snippetLength then String.ofList text
  else
    let count := if s.snippetLength < 0 then text.length + s.snippetLength else s.snippetLength
    String.ofList (text.take count.toNat ++ ['.', '.', '.'])

/-! ## 1. Reading a setting -/

/-- A value that is given for a setting. -/
inductive Given where
  | text (text : List Char)
  | int (n : Int)
  /-- a floating-point number that is whole -/
  | whole (n : Int)
  /-- a floating-point number that is not whole -/
  | fraction
  /-- a floating-point number beyond all others -/
  | infinite
  | bool (b : Bool)
  | null
  | other

/-- Why a setting cannot be read. -/
inductive Refusal where
  | intParsing
  | intParsingSize
  | intType
  | intFromFloat
  | finiteNumber
  | boolParsing
  | boolType
  | tooSmall
  | unknownName
  deriving DecidableEq

def Refusal.code : Refusal → String
  | .intParsing => "int_parsing"
  | .intParsingSize => "int_parsing_size"
  | .intType => "int_type"
  | .intFromFloat => "int_from_float"
  | .finiteNumber => "finite_number"
  | .boolParsing => "bool_parsing"
  | .boolType => "bool_type"
  | .tooSmall => "greater_than_equal"
  | .unknownName => "extra_forbidden"

/-- A blank that may stand around a number: any but the information separators. -/
def isPadding (c : Char) : Bool := Text.isBlank c.toNat && !(28 ≤ c.toNat && c.toNat ≤ 31)

/-- A digit that no zero need precede, or a minus sign. -/
def isLeading (c : Char) : Bool := ('1' ≤ c && c ≤ '9') || c == '-'

/-- What is left of a number without leading zeros and the underscores among them. The last of these stays
before a point and at the end. Nothing else may come before the leading digit or minus sign. -/
def withoutZeros? : List Char → Option (List Char)
  | [] => none
  | '0' :: rest => go '0' rest
  | c :: rest => if isLeading c then some (c :: rest) else none
where
  /-- Goes on after a zero or an underscore. -/
  go (last : Char) : List Char → Option (List Char)
    | [] => some [last]
    | c :: rest =>
      if c = '0' ∨ c = '_' then go c rest
      else if c = '.' then some (last :: c :: rest)
      else if isLeading c then some (c :: rest)
      else none

/-- A number without a fraction, if this is a point and one or more zeros. -/
def withoutFraction (text : List Char) : List Char :=
  let fraction := text.dropWhile (· != '.')
  if 1 < fraction.length && fraction.tail.all (· == '0') then text.takeWhile (· != '.') else text

/-- A number without underscores, if they are apart from one another and from its ends. -/
def withoutUnderscores (text : List Char) : List Char :=
  let isBlocked := text.head? == some '_' || text.getLast? == some '_' ||
    (text.zip text.tail).contains ('_', '_')
  if isBlocked then text else text.filter (· != '_')

/-- The longest text that is read as a number. -/
def longestNumber : Nat := 4300

def int? (text : List Char) : Option Int := do
  let unsigned :=
    match text with
    | '+' :: '-' :: _ => []
    | '+' :: rest => rest
    | rest => rest
  Text.signed? Text.digitsValue? (withoutUnderscores (withoutFraction (← withoutZeros? unsigned)))

def bool? (text : List Char) : Option Bool :=
  let word := String.ofList (Text.lowerText text)
  if word ∈ ["1", "true", "t", "yes", "y", "on"] then some true
  else if word ∈ ["0", "false", "f", "no", "n", "off"] then some false
  else none

/-- The first number that is too large for a machine's word, `2 ^ 63`; those from its negative on are not too
small. -/
def wordLimit : Int := 0x8000000000000000

/-- A number, at least `least`. A floating-point number must be whole and lie inside of a machine's word. -/
def readInt (least : Int) (given : Given) : Except Refusal Int := do
  let n ←
    match given with
    | .text text =>
      let trimmed := Text.trim isPadding text
      if longestNumber < trimmed.length then .error .intParsingSize
      else
        match int? trimmed with
        | some n => .ok n
        | none => .error .intParsing
    | .int n => .ok n
    | .whole n => if -wordLimit < n ∧ n < wordLimit then .ok n else .error .intParsingSize
    | .fraction => .error .intFromFloat
    | .infinite => .error .finiteNumber
    | .bool b => .ok (if b then 1 else 0)
    | .null => .error .intType
    | .other => .error .intType
  if n < least then .error .tooSmall else .ok n

/-- A truth value; of the numbers, zero and one are. A number that is not whole, or does not fit a machine's word,
is not even of the right kind. -/
def readBool (given : Given) : Except Refusal Bool :=
  let ofInt (n : Int) : Except Refusal Bool :=
    if n = 1 then .ok true else if n = 0 then .ok false else .error .boolParsing
  match given with
  | .text text =>
    match bool? text with
    | some b => .ok b
    | none => .error .boolParsing
  | .bool b => .ok b
  | .int n => if -wordLimit ≤ n ∧ n < wordLimit then ofInt n else .error .boolType
  | .whole n => if -wordLimit < n ∧ n < wordLimit then ofInt n else .error .boolType
  | .fraction => .error .boolType
  | .infinite => .error .boolType
  | .null => .error .boolType
  | .other => .error .boolType

/-! ## 2. Collecting the settings -/

def names : List String := ["verbosity", "log_timing", "report_furthest_failure", "snippet_length"]

/-- What names in the environment begin with. -/
def lead : String := "prefixparse_"

/-- Where settings come from. -/
structure Sources where
  arguments : List (String × Given)
  environment : List (String × String)
  file : String

def lowerName (name : String) : String := String.ofList (Text.lowerText name.toList)

def loweredNames {α : Type} (table : List (String × α)) : List (String × α) :=
  table.map fun (name, value) => (lowerName name, value)

/-- The last entry of a name. -/
def last? {α : Type} (table : List (String × α)) (name : String) : Option α :=
  (table.reverse.find? (·.1 == name)).map (·.2)

namespace Sources

/-- The bindings of the file, under their names in lower case. -/
def bindings (s : Sources) : List (String × Option (List Char)) :=
  loweredNames (EnvFile.entries s.environment s.file)

/-- What is given for a setting, by the source of highest priority. Of arguments whose names differ in case only,
the first counts. -/
def given? (s : Sources) (name : String) : Option Given :=
  match s.arguments.find? (lowerName ·.1 == name) with
  | some (_, given) => some given
  | none =>
    match last? (loweredNames s.environment) (lead ++ name) with
    | some text => some (.text text.toList)
    | none => ((last? s.bindings (lead ++ name)).join).map .text

/-- The names that mean no setting: of arguments, and of bindings in the file that have a value. In the file the
bare name of a setting is passed over. -/
def unknownNames (s : Sources) : List String :=
  let bound := s.bindings.filter fun (name, value) =>
    !(value.getD []).isEmpty && !names.contains name && !names.any (lead ++ · == name)
  ((s.arguments.map (·.1)).filter (fun name => !names.contains (lowerName name)) ++ bound.map (·.1)).eraseDups

/-- Reads one setting, if it is given. -/
def read {α : Type} (s : Sources) (name : String) (default : α) (reader : Given → Except Refusal α) :
    Except (String × Refusal) α :=
  match s.given? name with
  | none => .ok default
  | some given => (reader given).mapError fun refusal => (name, refusal)

/-- The refusal of one setting. -/
def refusal? {α : Type} : Except (String × Refusal) α → List (String × Refusal)
  | .ok _ => []
  | .error refusal => [refusal]

/-- Whether one refusal is reported before another: by name, and then by code. -/
def reportedBefore (a b : String × Refusal) : Bool :=
  a.1 < b.1 || (a.1 == b.1 && a.2.code ≤ b.2.code)

end Sources

/-- The settings that some sources give, or everything that is wrong with them. -/
def ofSources (s : Sources) : Except (List (String × Refusal)) Settings :=
  let verbosity := s.read "verbosity" default.verbosity (readInt 0)
  let logTiming := s.read "log_timing" default.logTiming readBool
  let reportFurthest := s.read "report_furthest_failure" default.reportFurthest readBool
  let snippetLength := s.read "snippet_length" default.snippetLength (readInt 1)
  match verbosity, logTiming, reportFurthest, snippetLength, s.unknownNames with
  | .ok verbosity, .ok logTiming, .ok reportFurthest, .ok snippetLength, [] =>
    .ok ⟨verbosity, logTiming, reportFurthest, snippetLength⟩
  | _, _, _, _, unknown =>
    let refusals := Sources.refusal? verbosity ++ Sources.refusal? logTiming ++
      Sources.refusal? reportFurthest ++ Sources.refusal? snippetLength ++
      unknown.map fun name => (name, .unknownName)
    .error (refusals.mergeSort Sources.reportedBefore)

end Settings

end Descent
