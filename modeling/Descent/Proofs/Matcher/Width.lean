import Descent.Pattern.Bounds
import Descent.Proofs.Ensures
import Descent.Proofs.Run.Tail
import Descent.Proofs.UserCode

/-!
# Matchers as functions on text

A matcher is run on a window and answers with a span of the source, yet the library's own matchers know nothing of the
source. What such a matcher consumes is a number of characters, and this number is a function of the characters of the
window (`Matcher.width?`); the span is that width laid down where the window begins (`Matcher.run_eq_width`), and it
never ends behind the window (`Matcher.width?_le_length`).

The one matcher for which this takes an argument is a run taken occurrence by occurrence. It moves through the window by
absolute offsets, so that each occurrence has to be found again in the characters that the one before it left.
-/

namespace Descent

variable {κ : Type}

/-! ## 1. The characters of parts of a window -/

namespace View

variable {v : View}

/-- A part of a window that is as long as its characters is cut off without a fault. -/
theorem split_add_eq_ok {n : Nat} (h : n ≤ v.chars.length) :
    ∃ h' : v.start + n ≤ v.stop, v.split (v.start + n) = .ok (v.cut (v.start + n) (Nat.le_add_right _ _) h') := by
  have hle := v.start_le_stop
  rw [length_chars, length] at h
  refine ⟨by omega, split_eq_ok_iff.mpr ⟨v.start + n, Nat.le_add_right _ _, by omega, ?_, rfl⟩⟩
  exact (Int.natCast_add _ _).symm

/-- What is left of a tail when some of its characters are gone. -/
theorem advanceTo_add_eq_ok {rest : View} {n : Nat} (hrest : rest.TailOf v) (h : n ≤ rest.chars.length) :
    ∃ w : View, v.advanceTo (rest.start + n) = .ok w ∧ w.TailOf v ∧ w.start = rest.start + n ∧
      w.chars = rest.chars.drop n := by
  obtain ⟨hsource, hstop, hstart⟩ := hrest
  have hle := rest.start_le_stop
  rw [length_chars, length] at h
  have hlow : v.start ≤ rest.start + n := by omega
  have hhigh : rest.start + n ≤ v.stop := by omega
  have hcut : v.split (rest.start + n) = .ok (v.cut (rest.start + n) hlow hhigh) :=
    split_eq_ok_iff.mpr ⟨rest.start + n, hlow, hhigh, (Int.natCast_add _ _).symm, rfl⟩
  refine ⟨(v.cut (rest.start + n) hlow hhigh).2, ?_, ⟨rfl, rfl, hlow⟩, rfl, ?_⟩
  · rw [advanceTo, hcut]
    rfl
  · have htake : v.stop - (rest.start + n) = v.stop - rest.start - n := by omega
    simp only [chars, cut, hsource, hstop, List.drop_take, List.drop_drop, htake]

end View

/-! ## 2. Widths -/

/-- The width of a run taken occurrence by occurrence; zero if there is none. -/
def runWidth (width : List Char → Except Fault (Option Nat)) : Nat → List Char → Except Fault Nat
  | 0, _ => .error .endlessRun
  | fuel + 1, chars => do
    match ← width chars with
    | none => return 0
    | some 0 => return 0
    | some (n + 1) => return n + 1 + (← runWidth width fuel (chars.drop (n + 1)))

/-- How many characters a matcher consumes at the start of a text. What a user's matcher does is not up to the text. -/
def Matcher.width? : Matcher κ → List Char → Except Fault (Option Nat)
  | .literal text true, chars => .ok (literalWidth? text.toList chars)
  | .literal text false, chars => .ok (foldedWidth? (Text.fold text.toList) chars)
  | .regex r, chars => r.program.width? chars
  | .charClass k, chars => .ok (k.singleWidth? chars)
  | .optional inner, chars => do return some ((← width? inner chars).getD 0)
  | .many (.charClass k), chars => .ok (k.runWidth? chars)
  | .many (.optional inner), chars => width? (.optional inner) chars
  | .many (.many inner), chars => width? (.many inner) chars
  | .many inner, chars => do
    let n ← runWidth (width? inner) (chars.length + 1) chars
    return if n = 0 then none else some n
  | .endOfInput, chars => .ok (if chars.isEmpty then some 0 else none)
  | .custom _, _ => .ok none

section Width

variable {width : List Char → Except Fault (Option Nat)}

theorem runWidth_le_length (h : ∀ {chars n}, width chars = .ok (some n) → n ≤ chars.length) {fuel : Nat}
    {chars : List Char} {n : Nat} (hn : runWidth width fuel chars = .ok n) : n ≤ chars.length := by
  induction fuel generalizing chars n with
  | zero => cases hn
  | succ fuel ih =>
    obtain ⟨m, hm, hn⟩ := except_bind_eq_ok.mp hn
    match m with
    | none =>
      cases hn
      exact Nat.zero_le _
    | some 0 =>
      cases hn
      exact Nat.zero_le _
    | some (m + 1) =>
      obtain ⟨k, hk, hn⟩ := except_bind_eq_ok.mp hn
      cases hn
      have hm := h hm
      have hk := ih hk
      rw [List.length_drop] at hk
      omega

/-- A matcher consumes no more than there is. -/
theorem Matcher.width?_le_length {m : Matcher κ} {chars : List Char} {n : Nat} (h : m.width? chars = .ok (some n)) :
    n ≤ chars.length := by
  induction m generalizing chars n with
  | literal text caseSensitive =>
    cases caseSensitive with
    | false => exact foldedWidth?_le_length (Except.ok.inj h)
    | true =>
      obtain ⟨hbegins, rfl⟩ := literalWidth?_eq_some_iff.mp (Except.ok.inj h)
      exact hbegins.length_le
  | regex r => exact Program.width?_le_length h
  | charClass k =>
    obtain ⟨rfl, c, hc, -⟩ := CharClass.singleWidth?_eq_some_iff.mp (Except.ok.inj h)
    cases chars with
    | nil => cases hc
    | cons c chars => exact Nat.succ_le_succ (Nat.zero_le _)
  | optional inner ih =>
    obtain ⟨w, hw, h⟩ := except_bind_eq_ok.mp h
    cases w with
    | none =>
      cases h
      exact Nat.zero_le _
    | some w =>
      cases h
      exact ih hw
  | many inner ih =>
    have repeated (h : (do
        let n ← runWidth inner.width? (chars.length + 1) chars
        return if n = 0 then none else some n : Except Fault (Option Nat)) = .ok (some n)) : n ≤ chars.length := by
      obtain ⟨w, hw, h⟩ := except_bind_eq_ok.mp h
      have hle := runWidth_le_length (fun h => ih h) hw
      split at h
      · cases h
      · cases h
        exact hle
    cases inner with
    | charClass k =>
      obtain ⟨-, rfl⟩ := CharClass.runWidth?_eq_some_iff.mp (Except.ok.inj h)
      exact (List.takeWhile_prefix _).length_le
    | optional inner => exact ih h
    | many inner => exact ih h
    | _ => exact repeated h
  | endOfInput =>
    have h := Except.ok.inj h
    split at h
    · cases h
      exact Nat.zero_le _
    · cases h
  | custom c => cases Except.ok.inj h

end Width

/-! ## 3. Matching is by width -/

section Run

variable [CustomMatcher κ]

/-- A step that consumes a width of the text of its window. -/
def IsByText (step : View → Except Fault (Option Span)) (width : List Char → Except Fault (Option Nat)) : Prop :=
  ∀ v, step v = (do return (← width v.chars).map (Span.ofWidth v))

/-- A run taken occurrence by occurrence ends where its width says. -/
theorem Matcher.extendRun_eq {step : View → Except Fault (Option Span)} {width : List Char → Except Fault (Option Nat)}
    (h : IsByText step width) (hle : ∀ {chars n}, width chars = .ok (some n) → n ≤ chars.length) {v rest : View}
    (hrest : rest.TailOf v) (fuel : Nat) (stop : Option Int) :
    Matcher.extendRun step v fuel stop rest = (do
      let n ← runWidth width fuel rest.chars
      return if n = 0 then stop else some (rest.start + n)) := by
  induction fuel generalizing rest stop with
  | zero => rfl
  | succ fuel ih =>
    rw [Matcher.extendRun, runWidth, h rest]
    cases hw : width rest.chars with
    | error e => rfl
    | ok w =>
      match w with
      | none => rfl
      | some 0 =>
        show (if (rest.start : Int) + (0 : Nat) = rest.start then _ else _) = _
        rw [if_pos (by omega)]
        rfl
      | some (n + 1) =>
        -- the occurrence moves on, and what it leaves is a tail again
        obtain ⟨w, hadvance, htail, hstart, hchars⟩ := View.advanceTo_add_eq_ok hrest (hle hw)
        show (if (rest.start : Int) + (n + 1 : Nat) = rest.start then _ else _) = _
        rw [if_neg (by omega)]
        show (v.advanceTo (rest.start + (n + 1 : Nat)) >>= _) = _
        rw [hadvance]
        show Matcher.extendRun step v fuel (some (rest.start + (n + 1 : Nat))) w = _
        rw [ih htail, hchars, hstart]
        show _ = ((runWidth width fuel (rest.chars.drop (n + 1)) >>= fun k => pure (n + 1 + k)) >>= _)
        rw [bind_assoc]
        refine bind_congr fun k => ?_
        show Except.ok _ = Except.ok (if n + 1 + k = 0 then stop else some ((rest.start : Int) + (n + 1 + k : Nat)))
        rw [if_neg (show ¬ n + 1 + k = 0 by omega)]
        congr 1
        split
        next hk => rw [hk, Nat.add_zero]
        next => congr 1; push_cast; omega

theorem Matcher.repeatedRun_eq {step : View → Except Fault (Option Span)}
    {width : List Char → Except Fault (Option Nat)} (h : IsByText step width)
    (hle : ∀ {chars n}, width chars = .ok (some n) → n ≤ chars.length) :
    IsByText (Matcher.repeatedRun step) fun chars => do
      let n ← runWidth width (chars.length + 1) chars
      return if n = 0 then none else some n := by
  intro v
  rw [Matcher.repeatedRun, Matcher.extendRun_eq h hle (.refl v), ← View.length_chars, bind_assoc, bind_assoc]
  refine bind_congr fun n => ?_
  show Except.ok (Option.map _ (if n = 0 then none else _)) = Except.ok (Option.map _ (if n = 0 then none else _))
  split <;> rfl

/-- **A matcher of the library is run by its width.** -/
theorem Matcher.run_eq_width {m : Matcher κ} (hm : m.custom? = none) : IsByText m.run m.width? := by
  induction m with
  | literal text caseSensitive => cases caseSensitive <;> exact fun v => rfl
  | regex r => exact fun v => rfl
  | charClass k => exact fun v => rfl
  | optional inner ih =>
    intro v
    rw [Matcher.run, Matcher.width?, ih hm v, bind_assoc, bind_assoc]
    refine bind_congr fun w => ?_
    cases w <;> rfl
  | many inner ih =>
    cases inner with
    | charClass k => exact fun v => rfl
    | optional inner => exact ih hm
    | many inner => exact ih hm
    | custom c => cases hm
    | _ => exact Matcher.repeatedRun_eq (ih hm) fun h => Matcher.width?_le_length h
  | endOfInput =>
    intro v
    show Except.ok (if v.isEmpty then _ else none) = Except.ok (Option.map _ (if v.chars.isEmpty then _ else none))
    have empty : v.chars.isEmpty = v.isEmpty := by
      rw [Bool.eq_iff_iff, View.isEmpty_iff, List.isEmpty_iff]
    rw [empty]
    split <;> rfl
  | custom c => cases hm

/-- What the library's matchers cut off is as wide as they say, and there is nothing else that can come of it. -/
theorem Matcher.split_eq_width {m : Matcher κ} (hm : m.custom? = none) (v : View) :
    m.split v = (do
      match ← m.width? v.chars with
      | none => return none
      | some n => return some (← v.split (v.start + n))) := by
  rw [Matcher.split, Matcher.run_eq_width hm v, bind_assoc]
  refine bind_congr fun w => ?_
  cases w with
  | none => rfl
  | some n =>
    show (if (v.start : Int) ≠ v.start then _ else _) = _
    rw [if_neg (not_not_intro rfl)]
    rfl

end Run

end Descent
