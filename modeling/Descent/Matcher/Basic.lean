import Descent.Matcher.CharClass
import Descent.Pattern.Reader
import Descent.Text.Folding
import Descent.View

/-!
# Prefix matchers

A matcher tests whether, and how much of, the start of a window it consumes. It is anchored there and never
searches ahead; a match of width zero is a match. The matchers of this library look at the characters of the
window only, which the functions ending in `Width?` show in their types. A user may add matchers of his own
through `CustomMatcher`; those may answer with any span, so `Matcher.split` checks what it is told.

A run of a matcher (`many`) is taken at once where the matcher can do that itself, and otherwise one occurrence
after another, until the matcher does not apply or does not move on.
-/

namespace Descent

/-! ## 1. What matchers are made of -/

/-- A part of a source by absolute offsets. They are unchecked: a matcher written by a user may give any. -/
structure Span where
  start : Int
  stop : Int
  deriving DecidableEq

/-- The span of the first `width` characters of a window. -/
def Span.ofWidth (v : View) (width : Nat) : Span := ⟨v.start, v.start + width⟩

/-- Matchers that a user supplies: how they match, and how diagnostics name them. Such a matcher may also say how a
run of it is taken at once; a run that it does not find is no match. -/
class CustomMatcher (κ : Type) where
  run : κ → View → Except Fault (Option Span)
  runMany? : κ → Option (View → Except Fault (Option Span)) := fun _ => none
  description : κ → String

/-- A pattern with its notation, which has been read. -/
structure Regex where
  text : String
  caseSensitive : Bool
  program : Program
  read_eq : Program.read text caseSensitive = .ok program

namespace Regex

def ofText (text : String) (caseSensitive : Bool) : Except Fault Regex :=
  match h : Program.read text caseSensitive with
  | .ok program => .ok ⟨text, caseSensitive, program, h⟩
  | .error flaw => .error (.badPattern flaw)

/-- Patterns with the same notation and the same reading of case are the same. -/
theorem ext_text {r s : Regex} (h : r.text = s.text)
    (h' : r.caseSensitive = s.caseSensitive) : r = s := by
  obtain ⟨n, c, p, hp⟩ := r
  obtain ⟨n', c', p', hp'⟩ := s
  cases h
  cases h'
  have : p = p' := by
    have e := hp.symm.trans hp'
    exact Except.ok.inj e
  cases this
  rfl

instance : DecidableEq Regex := fun r s =>
  if h : r.text = s.text ∧ r.caseSensitive = s.caseSensitive then
    isTrue (ext_text h.1 h.2)
  else isFalse fun e => h (e ▸ ⟨rfl, rfl⟩)

end Regex

/-- A test of the start of a window. -/
inductive Matcher (κ : Type) where
  /-- a text, exactly or up to case -/
  | literal (text : String) (caseSensitive : Bool)
  | regex (regex : Regex)
  /-- one member of a class -/
  | charClass (members : CharClass)
  /-- the inner matcher, or nothing -/
  | optional (inner : Matcher κ)
  /-- one or more occurrences of the inner matcher -/
  | many (inner : Matcher κ)
  /-- nothing, at the end of the window -/
  | endOfInput
  | custom (matcher : κ)
  deriving DecidableEq

/-! ## 2. Widths -/

def literalWidth? (text chars : List Char) : Option Nat :=
  if text.isPrefixOf chars then some text.length else none

theorem literalWidth?_eq_some_iff {text chars : List Char} {n : Nat} :
    literalWidth? text chars = some n ↔ text <+: chars ∧ n = text.length := by
  rw [literalWidth?]
  split
  next h =>
    have h := List.isPrefixOf_iff_prefix.mp h
    constructor
    · intro e
      exact ⟨h, (Option.some.inj e).symm⟩
    · rintro ⟨_, rfl⟩
      rfl
  next h =>
    constructor
    · intro e
      cases e
    · rintro ⟨hp, _⟩
      exact absurd (List.isPrefixOf_iff_prefix.mpr hp) h

/-- The width of the shortest beginning whose folding is the given one. Characters are folded one at a time and
whole, so a folding that ends inside that of a character is not matched. -/
def foldedWidth? : (target chars : List Char) → Option Nat
  | [], _ => some 0
  | _ :: _, [] => none
  | t :: target, c :: chars =>
    let piece := Text.foldChar c
    if piece.isPrefixOf (t :: target) then
      (foldedWidth? ((t :: target).drop piece.length) chars).map (· + 1)
    else none

theorem foldedWidth?_le_length {target chars : List Char} {n : Nat}
    (h : foldedWidth? target chars = some n) : n ≤ chars.length := by
  induction chars generalizing target n with
  | nil =>
    cases target with
    | nil => cases h; exact Nat.le_refl _
    | cons t target => cases h
  | cons c chars ih =>
    cases target with
    | nil => cases h; exact Nat.zero_le _
    | cons t target =>
      rw [foldedWidth?] at h
      split at h
      · obtain ⟨m, hm, rfl⟩ := Option.map_eq_some_iff.mp h
        exact Nat.succ_le_succ (ih hm)
      · cases h

namespace CharClass

def singleWidth? (k : CharClass) : List Char → Option Nat
  | [] => none
  | c :: _ => if k.contains c then some 1 else none

theorem singleWidth?_eq_some_iff {k : CharClass} {chars : List Char} {n : Nat} :
    k.singleWidth? chars = some n ↔ n = 1 ∧ ∃ c, chars.head? = some c ∧ k.contains c = true := by
  cases chars with
  | nil => simp [singleWidth?]
  | cons c chars =>
    rw [singleWidth?]
    split
    next h =>
      constructor
      · intro e
        exact ⟨(Option.some.inj e).symm, c, rfl, h⟩
      · rintro ⟨rfl, _⟩
        rfl
    next h =>
      constructor
      · intro e
        cases e
      · rintro ⟨_, d, hd, hk⟩
        cases hd
        exact absurd hk h

/-- The width of a maximal run of members, if there is one. -/
def runWidth? (k : CharClass) (chars : List Char) : Option Nat :=
  match (chars.takeWhile k.contains).length with
  | 0 => none
  | n + 1 => some (n + 1)

theorem runWidth?_eq_some_iff {k : CharClass} {chars : List Char} {n : Nat} :
    k.runWidth? chars = some n ↔ 0 < n ∧ n = (chars.takeWhile k.contains).length := by
  rw [runWidth?]
  split
  next h =>
    constructor
    · intro e
      cases e
    · rintro ⟨hn, rfl⟩
      exact absurd h (Nat.ne_of_gt hn)
  next m h =>
    rw [h]
    constructor
    · intro e
      cases e
      exact ⟨Nat.succ_pos m, rfl⟩
    · rintro ⟨_, rfl⟩
      rfl

end CharClass

/-! ## 3. Descriptions -/

/-- A text in double quotes. Each backslash is written twice, and after that a backslash before each quote. -/
def doubleQuoted (text : String) : String :=
  let doubled := text.toList.flatMap fun c => if c = '\\' then ['\\', '\\'] else [c]
  let escaped := doubled.flatMap fun c => if c = '"' then ['\\', '"'] else [c]
  String.ofList ('"' :: escaped ++ ['"'])

namespace Matcher

variable {κ : Type} [CustomMatcher κ]

/-- How diagnostics name a matcher. -/
def description : Matcher κ → String
  | .literal text caseSensitive => (if caseSensitive then "^" else "~^") ++ doubleQuoted text
  | .regex r => (if r.caseSensitive then "/" else "~/") ++ doubleQuoted r.text
  | .charClass k => k.description
  | .optional inner => inner.description ++ "?"
  | .many inner => inner.description ++ "+"
  | .endOfInput => "$"
  | .custom m => CustomMatcher.description m

/-! ## 4. Matching -/

/-- Whether the matcher can take a whole run of itself at once. -/
def supportsMany : Matcher κ → Bool
  | .charClass _ => true
  | .optional _ => true
  | .many _ => true
  | .custom m => (CustomMatcher.runMany? m).isSome
  | _ => false

/-- Where a run taken occurrence by occurrence ends: after the last occurrence that moved on. Each occurrence is
sought in what the window `v` leaves after the one before. A matcher that only moves forward is asked at most
once at each place of the window; one that comes back to a place would come back for ever, which the fuel, one
unit for each place, finds out. -/
def extendRun (step : View → Except Fault (Option Span)) (v : View) :
    Nat → Option Int → View → Except Fault (Option Int)
  | 0, _, _ => .error .endlessRun
  | fuel + 1, stop, rest => do
    match ← step rest with
    | none => return stop
    | some span =>
      if span.stop = rest.start then return stop
      else extendRun step v fuel (some span.stop) (← v.advanceTo span.stop)

/-- The span of a run taken occurrence by occurrence. -/
def repeatedRun (step : View → Except Fault (Option Span)) (v : View) : Except Fault (Option Span) := do
  let stop ← extendRun step v (v.length + 1) none v
  return stop.map fun stop => ⟨v.start, stop⟩

/-- The span that a matcher consumes at the start of a window. -/
def run : Matcher κ → View → Except Fault (Option Span)
  | .literal text true, v => .ok ((literalWidth? text.toList v.chars).map (Span.ofWidth v))
  | .literal text false, v =>
    .ok ((foldedWidth? (Text.fold text.toList) v.chars).map (Span.ofWidth v))
  | .regex r, v => do return (← r.program.width? v.chars).map (Span.ofWidth v)
  | .charClass k, v => .ok ((k.singleWidth? v.chars).map (Span.ofWidth v))
  | .optional inner, v => do
    match ← run inner v with
    | some span => return some span
    | none => return some (Span.ofWidth v 0)
  | .many (.charClass k), v => .ok ((k.runWidth? v.chars).map (Span.ofWidth v))
  | .many (.optional inner), v => run (.optional inner) v
  | .many (.many inner), v => run (.many inner) v
  | .many (.custom m), v => (CustomMatcher.runMany? m).getD (repeatedRun (CustomMatcher.run m)) v
  | .many inner, v => repeatedRun (run inner) v
  | .endOfInput, v => .ok (if v.isEmpty then some (Span.ofWidth v 0) else none)
  | .custom m, v => CustomMatcher.run m v

/-- The span of a run, by a matcher that can take one at once; `none` for the others. -/
def runMany? : Matcher κ → Option (View → Except Fault (Option Span))
  | .charClass k => some fun v => .ok ((k.runWidth? v.chars).map (Span.ofWidth v))
  | .optional inner => some (run (.optional inner))
  | .many inner => some (run (.many inner))
  | .custom m => CustomMatcher.runMany? m
  | _ => none

/-- Matches, and cuts the window where the match ends. -/
def split (m : Matcher κ) (v : View) : Except Fault (Option (View × View)) := do
  match ← m.run v with
  | none => return none
  | some span =>
    if span.start ≠ v.start then throw (.awayFromStart m.description)
    return some (← v.split span.stop)

def zeroOrMore (inner : Matcher κ) : Matcher κ := .optional (.many inner)

/-- The complement of a character class; no other matcher has one. -/
def complement : Matcher κ → Except Fault (Matcher κ)
  | .charClass k => .ok (.charClass k.complement)
  | _ => .error .notAClass

end Matcher

end Descent
