import Descent.Fault

/-!
# Sources and views

A `Source` is a text that is being parsed; a `View` is a window onto it. Every view that is cut off another one
shares its source, and its bounds never leave the source: both facts are part of the type, so no operation has
to check them again. Offsets that come from outside (a matcher that a user wrote, a request for a window) are
integers and are checked once, where they become views.

Two sources may hold the same text and still be different buffers; the `id` tells them apart.
-/

namespace Descent

/-- A text, and which buffer it is. -/
structure Source where
  id : Nat
  chars : List Char
  deriving DecidableEq

def Source.length (s : Source) : Nat := s.chars.length

/-- The window of a source from `start` up to, not including, `stop`. -/
structure View where
  source : Source
  start : Nat
  stop : Nat
  start_le_stop : start ≤ stop
  stop_le_length : stop ≤ source.length
  deriving DecidableEq

namespace View

def ofSource (s : Source) : View := ⟨s, 0, s.length, Nat.zero_le _, Nat.le_refl _⟩

/-- The window between two offsets, if they lie in order inside the source. -/
def ofBounds (s : Source) (start stop : Int) : Except Fault View :=
  if h : 0 ≤ start ∧ start ≤ stop ∧ stop ≤ s.length then
    .ok ⟨s, start.toNat, stop.toNat, by omega, by omega⟩
  else .error (.viewBounds start stop s.length)

/-- The characters of the window. -/
def chars (v : View) : List Char := (v.source.chars.drop v.start).take (v.stop - v.start)

def text (v : View) : String := String.ofList v.chars

def length (v : View) : Nat := v.stop - v.start

@[simp] theorem length_chars (v : View) : v.chars.length = v.length := by
  have h := v.stop_le_length
  have h' := v.start_le_stop
  simp only [chars, length, List.length_take, List.length_drop, Source.length] at *
  omega

@[simp] theorem chars_ofSource (s : Source) : (ofSource s).chars = s.chars := by
  simp [chars, ofSource, Source.length]

def isEmpty (v : View) : Bool := v.start == v.stop

theorem isEmpty_iff {v : View} : v.isEmpty = true ↔ v.chars = [] := by
  rw [isEmpty, beq_iff_eq, ← List.length_eq_zero_iff, length_chars, length]
  have h := v.start_le_stop
  omega

def startsWith (v : View) (text : List Char) : Bool := text.isPrefixOf v.chars

/-- Both sides of a cut at an offset inside the window. -/
def cut (v : View) (offset : Nat) (h : v.start ≤ offset) (h' : offset ≤ v.stop) : View × View :=
  (⟨v.source, v.start, offset, h, Nat.le_trans h' v.stop_le_length⟩,
    ⟨v.source, offset, v.stop, h', v.stop_le_length⟩)

/-- A cut loses nothing. -/
theorem chars_cut_append (v : View) (offset : Nat) (h : v.start ≤ offset) (h' : offset ≤ v.stop) :
    (v.cut offset h h').1.chars ++ (v.cut offset h h').2.chars = v.chars := by
  have e : offset = v.start + (offset - v.start) := by omega
  have e' : v.stop - v.start = (offset - v.start) + (v.stop - offset) := by omega
  simp only [chars, cut]
  rw [e', List.take_add, List.drop_drop, ← e]

/-- Cuts the window in two at an absolute offset. -/
def split (v : View) (offset : Int) : Except Fault (View × View) :=
  if h : v.start ≤ offset ∧ offset ≤ v.stop then
    .ok (v.cut offset.toNat (by omega) (by omega))
  else .error (.splitOffset offset v.start v.stop)

/-- The cuts that can be made are those at the offsets of the window, both ends included. -/
theorem split_eq_ok_iff {v : View} {offset : Int} {halves : View × View} :
    v.split offset = .ok halves ↔
      ∃ (n : Nat) (h : v.start ≤ n) (h' : n ≤ v.stop), offset = n ∧ halves = v.cut n h h' := by
  rw [split]
  split
  next hb =>
    constructor
    · intro e
      exact ⟨offset.toNat, by omega, by omega, by omega, (Except.ok.inj e).symm⟩
    · rintro ⟨n, h, h', rfl, rfl⟩
      simp
  next hb =>
    constructor
    · intro e
      cases e
    · rintro ⟨n, h, h', rfl, rfl⟩
      exact absurd ⟨by omega, by omega⟩ hb

/-- What is left of the window from an absolute offset on. -/
def advanceTo (v : View) (offset : Int) : Except Fault View := do
  let (_, rest) ← v.split offset
  return rest

/-- Whether the window is a tail of that very buffer. -/
def IsSuffixOf (v : View) (s : Source) : Prop := v.source = s ∧ v.stop = s.length

instance (v : View) (s : Source) : Decidable (v.IsSuffixOf s) :=
  inferInstanceAs (Decidable (_ ∧ _))

/-- Whether two windows show the same part of the same text, whichever buffers they belong to. -/
def sameText (v w : View) : Bool :=
  v.source.chars == w.source.chars && v.start == w.start && v.stop == w.stop

/-- The greatest number of characters that a message shows of a window. -/
def previewLength : Nat := 20

/-- How a message shows a window: its bounds and the beginning of its text. -/
def shown (v : View) : String :=
  let preview :=
    if v.length ≤ previewLength then v.chars
    else v.chars.take previewLength ++ ['.', '.', '.']
  s!"View({v.start}:{v.stop} {Text.quoted preview})"

end View

end Descent
