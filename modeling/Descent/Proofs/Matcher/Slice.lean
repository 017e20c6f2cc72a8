import Descent.Matcher.Fixed
import Descent.Proofs.Matcher.Width

/-!
# Matchers keep to their slice

A matcher of the library comes to an answer on every window, and what it takes is the beginning of that window: from
where it starts to some place in it. So its span can always be cut off, and a cut loses nothing
(`Matcher.keeps_slice`).

Two things could go wrong inside. A run that is taken occurrence by occurrence could go on for ever; it does not, since
every occurrence that it goes on from has taken something (`runWidth_error`). And the engine of a pattern could break
down. That is the one thing that is assumed not to happen; where a matcher meets a fault, a pattern of it does
(`Matcher.width?_error`).
-/

namespace Descent

variable {κ : Type}

/-- The pattern that a matcher is made of, if there is one. -/
def Matcher.regex? : Matcher κ → Option Regex
  | .regex r => some r
  | .optional inner => inner.regex?
  | .many inner => inner.regex?
  | _ => none

/-- The engine comes to an answer on every text that the pattern of the matcher is asked about. -/
def Matcher.EngineAnswers (m : Matcher κ) : Prop :=
  ∀ r, m.regex? = some r → ∀ text, ∃ w, r.program.width? text = .ok w

/-! ## 1. Answers -/

/-- With more fuel than there is text, a run meets a fault only where an occurrence does. -/
theorem runWidth_error {width : List Char → Except Fault (Option Nat)}
    (hle : ∀ {chars n}, width chars = .ok (some n) → n ≤ chars.length) {fuel : Nat} {chars : List Char} {e : Fault}
    (hfuel : chars.length < fuel) (h : runWidth width fuel chars = .error e) : ∃ text, width text = .error e := by
  induction fuel generalizing chars with
  | zero => exact absurd hfuel (Nat.not_lt_zero _)
  | succ fuel ih =>
    rcases except_bind_eq_error.mp h with hw | ⟨w, hw, h⟩
    · exact ⟨chars, hw⟩
    · match w with
      | none => cases h
      | some 0 => cases h
      | some (n + 1) =>
        rcases except_bind_eq_error.mp h with hrest | ⟨k, -, h⟩
        · -- the occurrence has taken something, so that there is less text left for less fuel
          have htaken := hle hw
          refine ih ?_ hrest
          rw [List.length_drop]
          omega
        · cases h

/-- A matcher meets a fault only where the engine of its pattern does. -/
theorem Matcher.width?_error {m : Matcher κ} {chars : List Char} {e : Fault} (h : m.width? chars = .error e) :
    ∃ r text, m.regex? = some r ∧ r.program.width? text = .error e := by
  induction m generalizing chars with
  | literal text caseSensitive => cases caseSensitive <;> cases h
  | regex r => exact ⟨r, chars, rfl, h⟩
  | charClass k => cases h
  | endOfInput => cases h
  | custom c => cases h
  | optional inner ih =>
    rcases except_bind_eq_error.mp h with hw | ⟨w, -, h⟩
    · exact ih hw
    · cases h
  | many inner ih =>
    have repeated (h : (do
        let n ← runWidth inner.width? (chars.length + 1) chars
        return if n = 0 then none else some n : Except Fault (Option Nat)) = .error e) :
        ∃ r text, inner.regex? = some r ∧ r.program.width? text = .error e := by
      rcases except_bind_eq_error.mp h with hw | ⟨n, -, h⟩
      · obtain ⟨text, hw⟩ := runWidth_error (fun h => Matcher.width?_le_length h) (Nat.lt_succ_self _) hw
        exact ih hw
      · cases h
    cases inner with
    | charClass k => cases h
    | optional inner => exact ih h
    | many inner => exact ih h
    | _ => exact repeated h

theorem Matcher.EngineAnswers.exists_width {m : Matcher κ} (h : m.EngineAnswers) (chars : List Char) :
    ∃ w, m.width? chars = .ok w := by
  cases hw : m.width? chars with
  | ok w => exact ⟨w, rfl⟩
  | error e =>
    obtain ⟨r, text, hr, he⟩ := Matcher.width?_error hw
    obtain ⟨w, hanswer⟩ := h r hr text
    cases he.symm.trans hanswer

/-! ## 2. Cuts -/

section Run

variable [CustomMatcher κ]

/-- A matcher of the library is never stopped by where it would have to cut. -/
theorem Matcher.EngineAnswers.exists_split {m : Matcher κ} (h : m.EngineAnswers) (hm : m.custom? = none) (v : View) :
    ∃ halves, m.split v = .ok halves := by
  rw [Matcher.split_eq_width hm v]
  obtain ⟨w, hw⟩ := h.exists_width v.chars
  rw [hw]
  cases w with
  | none => exact ⟨none, rfl⟩
  | some n =>
    obtain ⟨hle, hcut⟩ := View.split_add_eq_ok (Matcher.width?_le_length hw)
    exact ⟨some (v.cut (v.start + n) (Nat.le_add_right _ _) hle), except_bind_of_ok hcut⟩

/-- **Matchers keep to their slice.** On every window a matcher of the library answers, and the span that it answers
with begins where the window does and ends inside it. So the window is cut there without a fault, into two windows that
lie side by side and whose texts make up its text. -/
theorem Matcher.keeps_slice (m : Matcher κ) (hm : m.custom? = none) (hengine : m.EngineAnswers) (v : View) :
    (∃ found, m.run v = .ok found ∧
      ∀ span, found = some span → span.start = v.start ∧ (v.start : Int) ≤ span.stop ∧ span.stop ≤ v.stop) ∧
    ∃ halves, m.split v = .ok halves ∧ (halves = none ↔ m.run v = .ok none) ∧
      ∀ matched rest, halves = some (matched, rest) →
        m.run v = .ok (some ⟨v.start, rest.start⟩) ∧ matched.text ++ rest.text = v.text ∧
          matched.source = v.source ∧ rest.source = v.source ∧
          matched.start = v.start ∧ matched.stop = rest.start ∧ rest.stop = v.stop := by
  have hrun : m.run v = (do return (← m.width? v.chars).map (Span.ofWidth v)) := Matcher.run_eq_width hm v
  have hsplit := Matcher.split_eq_width hm v
  obtain ⟨w, hw⟩ := hengine.exists_width v.chars
  rw [hw] at hrun hsplit
  cases w with
  | none =>
    refine ⟨⟨none, hrun, fun span h => nomatch h⟩, none, hsplit, ⟨fun _ => hrun, fun _ => rfl⟩, ?_⟩
    exact fun matched rest h => nomatch h
  | some n =>
    have hn : n ≤ v.chars.length := Matcher.width?_le_length hw
    obtain ⟨hle, hcut⟩ := View.split_add_eq_ok hn
    have hrun : m.run v = .ok (some ⟨v.start, v.start + n⟩) := hrun
    have hsplit : m.split v = .ok (some (v.cut (v.start + n) (Nat.le_add_right _ _) hle)) :=
      hsplit.trans (except_bind_of_ok hcut)
    refine ⟨⟨_, hrun, ?_⟩, _, hsplit, ?_, ?_⟩
    · rintro span ⟨⟩
      refine ⟨rfl, ?_, ?_⟩ <;> dsimp only <;> omega
    · rw [hrun]
      simp
    · rintro matched rest ⟨⟩
      refine ⟨hrun, ?_, rfl, rfl, rfl, rfl, rfl⟩
      rw [View.text, View.text, View.text, ← String.ofList_append]
      exact congrArg String.ofList (View.chars_cut_append v _ _ hle)

end Run

/-- The pattern of a single letter. -/
def letterPattern : Regex where
  text := "b"
  caseSensitive := true
  program := ⟨.one (.ofCode false 98 .exact false), 1⟩
  read_eq := by rfl

/-- It marks no groups, so its engine never breaks down. -/
theorem letterPattern_answers (text : List Char) : ∃ w, letterPattern.program.width? text = .ok w := by
  rw [Program.width?]
  split
  · exact ⟨none, rfl⟩
  · simp only [letterPattern, Pattern.run]
    cases CharTest.isAt text.toArray (.ofCode false 98 .exact false) 0 with
    | false => exact ⟨none, rfl⟩
    | true => exact ⟨some 1, rfl⟩

/-- A run of the pattern inside a run takes what it can of a window that ends before the letters do. -/
theorem keeps_slice_letterRuns :
    let m : Matcher FixedMatcher := .many (.optional (.many (.regex letterPattern)))
    let v : View := ⟨⟨0, ['c', 'b', 'b', 'b']⟩, 1, 3, by decide, by decide⟩
    m.custom? = none ∧ m.EngineAnswers ∧ ∃ matched rest, m.split v = .ok (some (matched, rest)) ∧
      matched.text ++ rest.text = v.text ∧ matched.stop = rest.start ∧ rest.start = 3 ∧ rest.stop = v.stop := by
  intro m v
  have hengine : m.EngineAnswers := by
    rintro r ⟨⟩ text
    exact letterPattern_answers text
  obtain ⟨-, halves, hsplit, hnone, hhalves⟩ := m.keeps_slice rfl hengine v
  refine ⟨rfl, hengine, ?_⟩
  have htaken : m.run v = .ok (some ⟨1, 3⟩) := rfl
  cases halves with
  | none => cases htaken.symm.trans (hnone.mp rfl)
  | some halves =>
    obtain ⟨hrun, htext, -, -, -, hmeet, hend⟩ := hhalves _ _ rfl
    have hstart : halves.2.start = 3 := by
      have h := hrun.symm.trans htaken
      simp only [Except.ok.injEq, Option.some.injEq, Span.mk.injEq] at h
      omega
    exact ⟨_, _, hsplit, htext, hmeet, hstart, hend⟩

end Descent
