import Descent.Matcher.Fixed
import Descent.Proofs.Matcher.Width

/-!
# Runs at once and one by one

A run of a matcher is taken at once by the matchers that can do that, and occurrence by occurrence otherwise
(`Matcher.run_many_eq`). The two ways should be one: what is taken at once should be what the plain loop takes,
`Matcher.repeatedRun` of the matcher itself.

For character classes it is, and a run of runs is a run, since a run is over only where nothing more can be taken
(`runWidth_stops`). But a matcher that may be left out takes *one* occurrence for its run, or none at all and calls that
a match of width zero. So the two ways agree on every matcher but those that are, under the runs around them, one that
may be left out; and these agree with the loop only where the loop happens to end after a single occurrence
(`Matcher.runs_agree`).
-/

namespace Descent

variable {κ : Type}

/-! ## 1. Widths of runs -/

/-- The width of a run by a plain loop, if anything was taken. -/
def loopWidth? (width : List Char → Except Fault (Option Nat)) (chars : List Char) : Except Fault (Option Nat) := do
  let n ← runWidth width (chars.length + 1) chars
  return if n = 0 then none else some n

section Width

variable {width : List Char → Except Fault (Option Nat)} {fuel n : Nat} {chars : List Char}

/-- A loop ends here: there is no match, or one that takes nothing. -/
def StopsAt (width : List Char → Except Fault (Option Nat)) (chars : List Char) : Prop :=
  width chars = .ok none ∨ width chars = .ok (some 0)

theorem runWidth_of_some (h : width chars = .ok (some (n + 1))) :
    runWidth width (fuel + 1) chars = (n + 1 + ·) <$> runWidth width fuel (chars.drop (n + 1)) := by
  rw [runWidth, h]
  rfl

theorem runWidth_eq_zero_iff : runWidth width (fuel + 1) chars = .ok 0 ↔ StopsAt width chars := by
  constructor
  · intro h
    obtain ⟨w, hw, h⟩ := except_bind_eq_ok.mp h
    match w with
    | none => exact .inl hw
    | some 0 => exact .inr hw
    | some (n + 1) =>
      obtain ⟨k, -, h⟩ := except_bind_eq_ok.mp h
      exact absurd (Except.ok.inj h) (by omega)
  · rintro (h | h) <;> (rw [runWidth, h]; rfl)

theorem loopWidth?_of_stopsAt (h : StopsAt width chars) : loopWidth? width chars = .ok none := by
  rw [loopWidth?, runWidth_eq_zero_iff.mpr h]
  rfl

/-- A run is over only where nothing more can be taken. -/
theorem runWidth_stops (h : runWidth width fuel chars = .ok n) : StopsAt width (chars.drop n) := by
  induction fuel generalizing chars n with
  | zero => cases h
  | succ fuel ih =>
    obtain ⟨w, hw, h⟩ := except_bind_eq_ok.mp h
    match w with
    | none =>
      cases h
      exact Or.inl hw
    | some 0 =>
      cases h
      exact Or.inr hw
    | some (m + 1) =>
      obtain ⟨k, hk, h⟩ := except_bind_eq_ok.mp h
      cases h
      rw [← List.drop_drop]
      exact ih hk

/-- A run of runs is a run. -/
theorem loopWidth?_loopWidth? (hle : ∀ {chars n}, width chars = .ok (some n) → n ≤ chars.length) (chars : List Char) :
    loopWidth? (loopWidth? width) chars = loopWidth? width chars := by
  cases hw : runWidth width (chars.length + 1) chars with
  | error e =>
    have once : loopWidth? width chars = .error e := except_bind_of_error hw
    rw [once, loopWidth?, runWidth, once]
    rfl
  | ok n =>
    have once : loopWidth? width chars = .ok (if n = 0 then none else some n) := except_bind_of_ok hw
    cases n with
    | zero => rw [loopWidth?_of_stopsAt (.inl once), once, if_pos rfl]
    | succ n =>
      rw [if_neg n.succ_ne_zero] at once
      -- a second run would begin where the first one is over
      have ended : StopsAt (loopWidth? width) (chars.drop (n + 1)) :=
        .inl (loopWidth?_of_stopsAt (runWidth_stops hw))
      obtain ⟨k, hk⟩ : ∃ k, chars.length = k + 1 :=
        Nat.exists_eq_succ_of_ne_zero (Nat.ne_of_gt (Nat.lt_of_lt_of_le n.succ_pos (runWidth_le_length hle hw)))
      rw [loopWidth?, runWidth_of_some once, hk, runWidth_eq_zero_iff.mpr ended, once]
      rfl

/-- The members of a class taken one by one are those taken at once. -/
theorem CharClass.runWidth_eq (k : CharClass) (h : chars.length < fuel) :
    runWidth (fun chars => .ok (k.singleWidth? chars)) fuel chars = .ok (chars.takeWhile k.contains).length := by
  induction fuel generalizing chars with
  | zero => exact absurd h (Nat.not_lt_zero _)
  | succ fuel ih =>
    cases chars with
    | nil => rfl
    | cons c chars =>
      cases hc : k.contains c with
      | false =>
        rw [List.takeWhile_cons_of_neg (by simp [hc]), runWidth_eq_zero_iff.mpr (.inl (by simp [singleWidth?, hc]))]
        rfl
      | true =>
        have one : Except.ok (ε := Fault) (k.singleWidth? (c :: chars)) = .ok (some 1) := by simp [singleWidth?, hc]
        rw [List.takeWhile_cons_of_pos hc, runWidth_of_some one, List.drop_one, List.tail_cons,
          ih (Nat.lt_of_succ_lt_succ h), List.length_cons]
        exact congrArg Except.ok (Nat.add_comm _ _)

/-- The width of a match or of nothing. -/
def widthOrZero (width : List Char → Except Fault (Option Nat)) (chars : List Char) : Except Fault (Option Nat) := do
  return some ((← width chars).getD 0)

theorem stopsAt_widthOrZero_iff : StopsAt (widthOrZero width) chars ↔ StopsAt width chars := by
  unfold StopsAt widthOrZero
  match width chars with
  | .error e => exact Iff.rfl
  | .ok none | .ok (some 0) => exact iff_of_true (.inr rfl) (by simp)
  | .ok (some (n + 1)) => simp [bind, Except.bind, pure, Except.pure]

/-- Where a loop would end at once, a match or nothing is still a match. -/
theorem widthOrZero_ne_loop (h : StopsAt width chars) :
    widthOrZero width chars ≠ loopWidth? (widthOrZero width) chars := by
  rw [loopWidth?_of_stopsAt (stopsAt_widthOrZero_iff.mpr h), widthOrZero]
  rcases h with h | h
  · rw [h]
    simp [bind, Except.bind, pure, Except.pure]
  · rw [h]
    simp [bind, Except.bind, pure, Except.pure]

/-- Where something was matched, the loop has taken as much, so it must take nothing more. -/
theorem widthOrZero_eq_loop_of_some (hw : width chars = .ok (some (n + 1))) (hle : n + 1 ≤ chars.length) :
    widthOrZero width chars = loopWidth? (widthOrZero width) chars ↔ StopsAt width (chars.drop (n + 1)) := by
  have found : widthOrZero width chars = .ok (some (n + 1)) := except_bind_of_ok hw
  obtain ⟨k, hk⟩ : ∃ k, chars.length = k + 1 :=
    Nat.exists_eq_succ_of_ne_zero (Nat.ne_of_gt (Nat.lt_of_lt_of_le n.succ_pos hle))
  have ends : runWidth (widthOrZero width) (k + 1) (chars.drop (n + 1)) = .ok 0 ↔ StopsAt width (chars.drop (n + 1)) :=
    runWidth_eq_zero_iff.trans stopsAt_widthOrZero_iff
  rw [← ends, loopWidth?, runWidth_of_some found, hk, found]
  cases runWidth (widthOrZero width) (k + 1) (chars.drop (n + 1)) with
  | error e =>
    show Except.ok (some (n + 1)) = Except.error e ↔ _
    simp
  | ok m =>
    show Except.ok (some (n + 1)) = Except.ok (if n + 1 + m = 0 then none else some (n + 1 + m)) ↔ _
    rw [if_neg (by omega), Except.ok.injEq, Except.ok.injEq, Option.some.injEq]
    omega

/-- A match or nothing is what the loop over it takes only where the loop ends after one occurrence, or where the match
cannot be made out at all. -/
theorem widthOrZero_eq_loop_iff (hle : ∀ {chars n}, width chars = .ok (some n) → n ≤ chars.length) :
    widthOrZero width chars = loopWidth? (widthOrZero width) chars ↔ (∃ e, width chars = .error e) ∨
      ∃ n, 0 < n ∧ width chars = .ok (some n) ∧ StopsAt width (chars.drop n) := by
  cases hw : width chars with
  | error e =>
    have failed : widthOrZero width chars = .error e := except_bind_of_error hw
    rw [loopWidth?, runWidth, failed]
    exact iff_of_true rfl (.inl ⟨e, rfl⟩)
  | ok w =>
    cases w with
    | none => exact iff_of_false (widthOrZero_ne_loop (.inl hw)) (by simp)
    | some n =>
      cases n with
      | zero =>
        refine iff_of_false (widthOrZero_ne_loop (.inr hw)) ?_
        rintro (⟨e, h⟩ | ⟨n, hn, h, -⟩)
        · cases h
        · cases h
          exact absurd hn (Nat.lt_irrefl 0)
      | succ n =>
        rw [widthOrZero_eq_loop_of_some hw (hle hw)]
        constructor
        · exact fun h => .inr ⟨n + 1, n.succ_pos, rfl, h⟩
        · rintro (⟨e, h⟩ | ⟨m, -, h, hstops⟩)
          · cases h
          · cases h
            exact hstops

end Width

/-! ## 2. Which runs are loops -/

namespace Matcher

/-- What is left of a matcher when the runs around it are taken off. -/
def core : Matcher κ → Matcher κ
  | .many inner => inner.core
  | m => m

theorem custom?_core (m : Matcher κ) : m.core.custom? = m.custom? := by
  induction m with
  | many inner ih => exact ih
  | _ => rfl

/-- The run of a matcher that cannot be left out is as wide as the loop over it. -/
theorem width?_many {m : Matcher κ} (h : ∀ inner, m.core ≠ .optional inner) (chars : List Char) :
    (Matcher.many m).width? chars = loopWidth? m.width? chars := by
  induction m generalizing chars with
  | charClass k =>
    rw [loopWidth?, width?, CharClass.runWidth?]
    show _ = (runWidth (fun chars => .ok (k.singleWidth? chars)) (chars.length + 1) chars >>= _)
    rw [CharClass.runWidth_eq k (Nat.lt_succ_self _)]
    cases (chars.takeWhile k.contains).length <;> rfl
  | optional inner => exact absurd rfl (h inner)
  | many inner ih =>
    have same : (Matcher.many inner).width? = loopWidth? inner.width? := funext (ih h)
    rw [same, loopWidth?_loopWidth? fun h => width?_le_length h]
    exact ih h chars
  | _ => rfl

section Run

variable [CustomMatcher κ]

/-- A run is taken at once where the matcher can do that, and occurrence by occurrence otherwise. -/
theorem run_many_eq (m : Matcher κ) (v : View) : (Matcher.many m).run v = m.runMany?.getD (repeatedRun m.run) v := by
  cases m <;> rfl

theorem isSome_runMany? (m : Matcher κ) : m.runMany?.isSome = m.supportsMany := by
  cases m <;> rfl

/-- The runs around a matcher that may be left out add nothing to it. -/
theorem run_of_core_optional {m inner : Matcher κ} (h : m.core = .optional inner) (v : View) :
    m.run v = (Matcher.optional inner).run v ∧ (Matcher.many m).run v = (Matcher.optional inner).run v := by
  induction m with
  | optional inner' =>
    cases h
    exact ⟨rfl, rfl⟩
  | many m ih => exact ⟨(ih h).2, (ih h).2⟩
  | _ => cases h

/-- A loop over the matcher ends here: it does not match, or it matches with width zero. -/
def Stops (m : Matcher κ) (v : View) : Prop :=
  m.run v = .ok none ∨ ∃ span, m.run v = .ok (some span) ∧ span.stop = v.start

/-- The matcher takes something here, and nothing more after that. -/
def TakesOnce (m : Matcher κ) (v : View) : Prop :=
  ∃ span rest, m.run v = .ok (some span) ∧ span.stop ≠ v.start ∧ v.advanceTo span.stop = .ok rest ∧ m.Stops rest

variable {m : Matcher κ} {v : View}

theorem run_eq_some_iff (hm : m.custom? = none) {span : Span} :
    m.run v = .ok (some span) ↔ ∃ n, m.width? v.chars = .ok (some n) ∧ span = .ofWidth v n := by
  rw [run_eq_width hm v]
  match m.width? v.chars with
  | .error e => exact iff_of_false nofun nofun
  | .ok none => exact iff_of_false nofun nofun
  | .ok (some n) =>
    show Except.ok (some _) = Except.ok (some span) ↔ _
    simp [eq_comm]

theorem run_eq_none_iff (hm : m.custom? = none) : m.run v = .ok none ↔ m.width? v.chars = .ok none := by
  rw [run_eq_width hm v]
  match m.width? v.chars with
  | .error e => exact iff_of_false nofun nofun
  | .ok none => exact iff_of_true rfl rfl
  | .ok (some n) => exact iff_of_false nofun nofun

theorem run_eq_error_iff (hm : m.custom? = none) {e : Fault} : m.run v = .error e ↔ m.width? v.chars = .error e := by
  rw [run_eq_width hm v]
  match m.width? v.chars with
  | .error e' =>
    show Except.error e' = _ ↔ _
    rw [Except.error.injEq, Except.error.injEq]
  | .ok w => exact iff_of_false nofun nofun

theorem stops_iff (hm : m.custom? = none) : m.Stops v ↔ StopsAt m.width? v.chars := by
  refine or_congr (run_eq_none_iff hm) ?_
  constructor
  · rintro ⟨span, hspan, hstop⟩
    obtain ⟨n, hn, rfl⟩ := (run_eq_some_iff hm).mp hspan
    have hzero : n = 0 := by
      simp only [Span.ofWidth] at hstop
      omega
    rw [hn, hzero]
  · exact fun h => ⟨.ofWidth v 0, (run_eq_some_iff hm).mpr ⟨0, h, rfl⟩, by simp [Span.ofWidth]⟩

theorem takesOnce_iff (hm : m.custom? = none) : m.TakesOnce v ↔
    ∃ n, 0 < n ∧ m.width? v.chars = .ok (some n) ∧ StopsAt m.width? (v.chars.drop n) := by
  constructor
  · rintro ⟨span, rest, hspan, hstop, hrest, hstops⟩
    obtain ⟨n, hn, rfl⟩ := (run_eq_some_iff hm).mp hspan
    obtain ⟨w, hw, -, -, hchars⟩ := View.advanceTo_add_eq_ok (.refl v) (width?_le_length hn)
    cases hw.symm.trans hrest
    refine ⟨n, Nat.pos_of_ne_zero fun h => hstop (by simp [Span.ofWidth, h]), hn, ?_⟩
    rw [← hchars]
    exact (stops_iff hm).mp hstops
  · rintro ⟨n, hpos, hn, hstops⟩
    obtain ⟨w, hw, -, -, hchars⟩ := View.advanceTo_add_eq_ok (.refl v) (width?_le_length hn)
    refine ⟨.ofWidth v n, w, (run_eq_some_iff hm).mpr ⟨n, hn, rfl⟩, ?_, hw, (stops_iff hm).mpr (hchars ▸ hstops)⟩
    simp only [Span.ofWidth]
    omega

end Run

end Matcher

theorem Span.ofWidth_injective (v : View) : Function.Injective (Span.ofWidth v) := by
  intro n m h
  have h := congrArg Span.stop h
  simp only [ofWidth] at h
  omega

/-- Steps by text are the same where their widths are. -/
theorem IsByText.eq_iff {step step' : View → Except Fault (Option Span)}
    {width width' : List Char → Except Fault (Option Nat)} (h : IsByText step width) (h' : IsByText step' width')
    (v : View) : step v = step' v ↔ width v.chars = width' v.chars := by
  rw [h v, h' v]
  cases width v.chars with
  | error e => cases width' v.chars <;> simp [bind, Except.bind, pure, Except.pure]
  | ok w =>
    cases width' v.chars with
    | error e => exact iff_of_false nofun nofun
    | ok w' =>
      show Except.ok _ = Except.ok _ ↔ _
      rw [Except.ok.injEq, Except.ok.injEq, (Option.map_injective (Span.ofWidth_injective v)).eq_iff]

/-- **Runs at once are loops, except of what may be left out.** For every matcher of the library and every window, the
run of a matcher is what the plain loop over it takes, unless there is a matcher that may be left out under the runs
around it. In that case the run is that matcher itself, and it is what the loop takes only where the loop cannot
make out the first occurrence, or takes one occurrence and stops. -/
theorem Matcher.runs_agree [CustomMatcher κ] (m : Matcher κ) (hm : m.custom? = none) (v : View) :
    ((∀ inner, m.core ≠ .optional inner) → (Matcher.many m).run v = repeatedRun m.run v) ∧
      ∀ inner, m.core = .optional inner →
        (Matcher.many m).run v = (Matcher.optional inner).run v ∧
          ((Matcher.many m).run v = repeatedRun m.run v ↔ (∃ e, inner.run v = .error e) ∨ inner.TakesOnce v) := by
  have byText {m : Matcher κ} (hm : m.custom? = none) : IsByText (repeatedRun m.run) (loopWidth? m.width?) :=
    repeatedRun_eq (run_eq_width hm) fun h => width?_le_length h
  constructor
  · intro hcore
    exact ((run_eq_width (m := .many m) hm).eq_iff (byText hm) v).mpr (width?_many hcore v.chars)
  · intro inner hcore
    have hinner : inner.custom? = none := (congrArg custom? hcore).symm.trans ((custom?_core m).trans hm)
    have hopt : (Matcher.optional inner).custom? = none := hinner
    have same : m.run = (Matcher.optional inner).run := funext fun v => (run_of_core_optional hcore v).1
    refine ⟨(run_of_core_optional hcore v).2, ?_⟩
    rw [(run_of_core_optional hcore v).2, same, (run_eq_width hopt).eq_iff (byText hopt) v, takesOnce_iff hinner]
    simp only [run_eq_error_iff hinner]
    exact widthOrZero_eq_loop_iff fun h => width?_le_length h

/-- A letter, `a`. -/
def letterA : Matcher FixedMatcher := .charClass ⟨.set (.between 'a' 'a'), "a", false⟩

/-- Of two letters in a row a run takes both; of a letter that may be left out it takes one, which is all that the loop
takes where no second letter follows. -/
theorem runs_agree_letterA :
    letterA.custom? = none ∧ (∀ inner, letterA.core ≠ .optional inner) ∧
      (Matcher.many letterA).run (.ofSource ⟨0, ['a', 'a', 'b']⟩) = .ok (some ⟨0, 2⟩) ∧
      (Matcher.many letterA).run (.ofSource ⟨0, ['a', 'a', 'b']⟩) =
        Matcher.repeatedRun letterA.run (.ofSource ⟨0, ['a', 'a', 'b']⟩) ∧
      letterA.TakesOnce (.ofSource ⟨0, ['a', 'b']⟩) ∧
      (Matcher.many (.optional letterA)).run (.ofSource ⟨0, ['a', 'b']⟩) =
        Matcher.repeatedRun (Matcher.optional letterA).run (.ofSource ⟨0, ['a', 'b']⟩) := by
  have once : letterA.TakesOnce (.ofSource ⟨0, ['a', 'b']⟩) := ⟨⟨0, 1⟩, _, rfl, by decide, rfl, .inl rfl⟩
  refine ⟨rfl, nofun, rfl, ?_, once, ?_⟩
  · exact (Matcher.runs_agree letterA rfl _).1 nofun
  · exact ((Matcher.runs_agree (.optional letterA) rfl _).2 letterA rfl).2.mpr (.inr once)

/-- Of three letters, each of which may be left out, the run takes one and the loop takes all. Where there is no letter,
the run matches and the loop does not. -/
theorem runs_differ_letterA :
    (Matcher.many (.optional letterA)).run (.ofSource ⟨0, ['a', 'a', 'a']⟩) = .ok (some ⟨0, 1⟩) ∧
      Matcher.repeatedRun (Matcher.optional letterA).run (.ofSource ⟨0, ['a', 'a', 'a']⟩) = .ok (some ⟨0, 3⟩) ∧
      (Matcher.many (.optional letterA)).run (.ofSource ⟨0, ['b']⟩) = .ok (some ⟨0, 0⟩) ∧
      Matcher.repeatedRun (Matcher.optional letterA).run (.ofSource ⟨0, ['b']⟩) = .ok none :=
  ⟨rfl, rfl, rfl, rfl⟩

end Descent
