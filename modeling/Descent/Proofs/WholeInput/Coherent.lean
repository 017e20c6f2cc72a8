import Descent.Matcher.Fixed
import Descent.Proofs.WholeInput.Outcome
import Mathlib.Data.List.Induction

/-!
# Reports are coherent

A report says where a failure is in three ways: as an offset, as a line and a column, and by what is left of the input
there. Each comes from elsewhere, and still they speak of one place of the source (`ParseError.IsCoherent`).

The offset is that of a remainder, and a remainder is looked up in the source before anything is said of it: it is what
is left of that very source from the offset on (`Source.locate_ok`). So all that is to be shown is what counting does.
Going through a text character by character counts the line feeds in it and measures what comes after the last one
(`Location.afterText_eq`).
-/

namespace Descent

/-! ## 1. Lines and columns -/

namespace Location

/-- What comes after the last line feed of a text. -/
def lastLine (text : List Char) : List Char := (text.reverse.takeWhile (· ≠ '\n')).reverse

@[simp] theorem lastLine_append_newline (text : List Char) : lastLine (text ++ ['\n']) = [] := by
  simp [lastLine]

@[simp] theorem lastLine_append_of_ne (text : List Char) {c : Char} (h : c ≠ '\n') :
    lastLine (text ++ [c]) = lastLine text ++ [c] := by
  simp [lastLine, h]

/-- A text is whole lines and a last one, in which there is no line feed. -/
theorem lastLine_spec (text : List Char) :
    '\n' ∉ lastLine text ∧ ∃ lines, text = lines ++ lastLine text ∧ (lines = [] ∨ ∃ l, lines = l ++ ['\n']) := by
  induction text using List.reverseRecOn with
  | nil => exact ⟨List.not_mem_nil, [], rfl, Or.inl rfl⟩
  | append_singleton text c ih =>
    by_cases hc : c = '\n'
    · subst hc
      rw [lastLine_append_newline]
      exact ⟨List.not_mem_nil, text ++ ['\n'], (List.append_nil _).symm, Or.inr ⟨text, rfl⟩⟩
    · obtain ⟨hno, lines, htext, hlines⟩ := ih
      rw [lastLine_append_of_ne text hc]
      refine ⟨fun h => ?_, lines, ?_, hlines⟩
      · rcases List.mem_append.mp h with h | h
        · exact hno h
        · exact hc (List.mem_singleton.mp h).symm
      · rw [← List.append_assoc, ← htext]

/-- The place after a text: one line more than there are line feeds, and as many columns as its last line has
characters. -/
theorem afterText_eq (text : List Char) : afterText text = ⟨text.count '\n' + 1, (lastLine text).length⟩ := by
  induction text using List.reverseRecOn with
  | nil => rfl
  | append_singleton text c ih =>
    rw [afterText_append, List.foldl_cons, List.foldl_nil, ih, after]
    by_cases hc : c = '\n'
    · subst hc
      simp
    · rw [if_neg hc, lastLine_append_of_ne text hc]
      simp [List.count_append, hc]

end Location

/-- Only what is left of that very source has a place in it. -/
theorem Source.locate_ok {source : Source} {rest : View} {place : Location} (h : source.locate rest = .ok place) :
    rest.IsSuffixOf source ∧ place = .afterText (source.chars.take rest.start) := by
  rw [Source.locate] at h
  split at h
  next hsuffix =>
    cases h
    exact ⟨hsuffix, rfl⟩
  next => cases h

theorem View.IsSuffixOf.start_le {source : Source} {rest : View} (h : rest.IsSuffixOf source) :
    rest.start ≤ source.length := by
  rw [← h.2]
  exact rest.start_le_stop

theorem View.IsSuffixOf.chars_eq {source : Source} {rest : View} (h : rest.IsSuffixOf source) :
    rest.chars = source.chars.drop rest.start := by
  have hall : (source.chars.drop rest.start).length ≤ source.length - rest.start := Nat.le_of_eq List.length_drop
  rw [View.chars, h.1, h.2, List.take_of_length_le hall]

/-! ## 2. What is quoted of the remaining input -/

namespace Settings

variable {settings : Settings} {text : List Char}

theorem snippet_of_le (h : (text.length : Int) ≤ settings.snippetLength) :
    settings.snippet text = String.ofList text :=
  if_pos h

theorem snippet_of_lt (hsettings : 0 ≤ settings.snippetLength) (h : settings.snippetLength < text.length) :
    settings.snippet text = String.ofList (text.take settings.snippetLength.toNat) ++ "..." := by
  rw [snippet, if_neg (Int.not_le.mpr h), if_neg (Int.not_lt.mpr hsettings), String.ofList_append]

/-- Nothing is quoted only if nothing is left: what is cut off is marked by an ellipsis. -/
theorem snippet_eq_empty_iff (hsettings : 0 ≤ settings.snippetLength) : settings.snippet text = "" ↔ text = [] := by
  by_cases h : (text.length : Int) ≤ settings.snippetLength
  · rw [snippet_of_le h]
    simp
  · have hlt := Int.not_le.mp h
    have hne : text ≠ [] := by
      rintro rfl
      exact absurd hsettings (by simpa using hlt)
    rw [snippet_of_lt hsettings hlt]
    simp [hne]

end Settings

/-! ## 3. Reports -/

/-- The report on a place of a source: the fields speak of one and the same place. -/
structure ParseError.IsCoherent (e : ParseError) (settings : Settings) (source : Source) : Prop where
  nonneg : 0 ≤ e.position
  le_length : e.position ≤ source.length
  line : e.line - 1 = (source.chars.take e.position.toNat).count '\n'
  column : e.column = (Location.lastLine (source.chars.take e.position.toNat)).length
  lineNumber : e.lineNumber = e.line
  columnNumber : e.columnNumber = e.column + 1
  /-- a short remainder is quoted whole -/
  whole : source.length - e.position ≤ settings.snippetLength →
    e.remaining = String.ofList (source.chars.drop e.position.toNat)
  /-- of a long one, no more than its beginning is -/
  cut : settings.snippetLength < source.length - e.position →
    e.remaining = String.ofList ((source.chars.drop e.position.toNat).take settings.snippetLength.toNat) ++ "..."
  /-- nothing is quoted just at the end of the input -/
  atEnd : e.remaining = "" ↔ e.position = source.length
  expected : e.expected.Nodup
  whitespace : e.whitespace.Nodup

/-- What a message ends with. -/
theorem ParseError.message_eq (e : ParseError) : ∃ lead, e.message =
    lead ++ "\n\nRemaining input:\n" ++ (if e.remaining = "" then "<end of input>" else e.remaining) := by
  let expected := listed e.expected "nothing"
  let whitespace := listed e.whitespace "none"
  refine ⟨s!"Line {e.line}, column {e.column}: expected one of {expected}\nWhitespace allowed: {whitespace}", ?_⟩
  simp only [message, String.append_assoc]
  rfl

variable {κ : Type} [CustomMatcher κ] {settings : Settings} {source : Source}

/-- A report is about a remainder of the source, and is made of nothing but the failure that it reports. -/
theorem Source.report_eq {f : Failure κ} {furthest : Option (Failure κ)} {e : ParseError}
    (h : source.report settings f furthest = .ok e) :
    let r := reported settings f furthest
    r.rest.IsSuffixOf source ∧
      e = ⟨(source.chars.take r.offset).count '\n' + 1, (Location.lastLine (source.chars.take r.offset)).length,
        r.offset, descriptions r.expected, descriptions r.whitespace,
        settings.snippet (source.chars.drop r.offset)⟩ := by
  intro r
  obtain ⟨place, hplace, h⟩ := except_bind_eq_ok.mp h
  obtain ⟨hsuffix, rfl⟩ := Source.locate_ok hplace
  cases h
  refine ⟨hsuffix, ?_⟩
  rw [Location.afterText_eq, hsuffix.chars_eq]
  rfl

theorem Source.report_isCoherent (hsettings : 0 ≤ settings.snippetLength) {f : Failure κ}
    {furthest : Option (Failure κ)} {e : ParseError} (h : source.report settings f furthest = .ok e) :
    e.IsCoherent settings source := by
  obtain ⟨hsuffix, rfl⟩ := Source.report_eq h
  have hle : (reported settings f furthest).offset ≤ source.length := hsuffix.start_le
  have hlength : ((source.chars.drop (reported settings f furthest).offset).length : Int) =
      source.length - (reported settings f furthest).offset := by
    rw [List.length_drop, ← Source.length]
    omega
  constructor
  case nonneg => exact Int.natCast_nonneg _
  case le_length => exact Int.ofNat_le.mpr hle
  case line => exact Int.add_sub_cancel _ _
  case column => rfl
  case lineNumber => rfl
  case columnNumber => rfl
  case whole => exact fun h => Settings.snippet_of_le (hlength ▸ h)
  case cut => exact fun h => Settings.snippet_of_lt hsettings (hlength ▸ h)
  case atEnd =>
    rw [Settings.snippet_eq_empty_iff hsettings, List.drop_eq_nil_iff, ← Source.length]
    dsimp only
    omega
  case expected => exact nodup_distinct _
  case whitespace => exact nodup_distinct _

variable [DecidableEq κ]

/-- **Reports are coherent.** Where a request for a whole input ends in a report, the run has failed, and all that the
report says is about one place of the source: the place of the failure that the settings choose. Its expectations are
the descriptions of what was expected there, all of them and no others, each once, and its message ends with what is
left, or says that nothing is. -/
theorem Session.report_is_coherent (settings : Settings) (hsettings : 0 ≤ settings.snippetLength) (o : Operand κ)
    (source : Source) (whitespace : Operand κ) (s : Session κ) {e : ParseError} {u : Session κ}
    (h : parseToEnd settings o source whitespace s = .error (.rejected e) u) :
    e.IsCoherent settings source ∧
    (∃ lead, e.message =
      lead ++ "\n\nRemaining input:\n" ++ (if e.position = source.length then "<end of input>" else e.remaining)) ∧
    ∃ p s' f t, prepared o whitespace s = .ok p s' ∧ p.run source s' = .ok (.failed f) t ∧
      let r := reported settings f t.context.furthest
      r.rest.IsSuffixOf source ∧ e.position = r.offset ∧ e.expected = descriptions r.expected ∧
        e.whitespace = descriptions r.whitespace ∧
        (∀ text, text ∈ e.expected ↔ ∃ m ∈ r.expected, m.description = text) ∧
        (∀ text, text ∈ e.whitespace ↔ ∃ m ∈ r.whitespace, m.description = text) := by
  cases hp : prepared o whitespace s with
  | error why u' =>
    -- what cannot be prepared ends in a fault, and not in a report
    obtain ⟨⟨fault, rfl⟩, -⟩ := (prepared_ensures o whitespace s).error hp
    rw [parseToEnd_eq, bind_apply_of_error hp] at h
    cases h
  | ok p s' =>
    obtain ⟨f, t, _, hrun, hreport, -⟩ := (parseToEnd_concludes settings source hp).of_rejected h
    have hcoherent := Source.report_isCoherent hsettings hreport
    refine ⟨hcoherent, ?_, p, s', f, t, rfl, hrun, ?_⟩
    · simp only [← hcoherent.atEnd]
      exact e.message_eq
    · obtain ⟨hsuffix, rfl⟩ := Source.report_eq hreport
      exact ⟨hsuffix, rfl, rfl, rfl, fun _ => mem_descriptions, fun _ => mem_descriptions⟩

/-- Leading line feeds are skipped; what follows them is no letter that was expected, on the third line. -/
theorem report_is_coherent_thirdLine :
    let settings : Settings := { Settings.default with snippetLength := 1 }
    let letter : Matcher FixedMatcher := .charClass ⟨.set (.between 'b' 'b'), "b", false⟩
    let lineFeeds : Matcher FixedMatcher := .charClass ⟨.set (.between '\n' '\n'), "line feed", false⟩
    let source : Source := ⟨0, ['\n', '\n', 'c', 'd']⟩
    0 ≤ settings.snippetLength ∧
    ∃ e u, Session.parseToEnd settings (.matcher letter) source (.matcher lineFeeds) Session.fresh =
        .error (.rejected e) u ∧
      e.IsCoherent settings source ∧ e.position = 2 ∧ e.line = 3 ∧ e.column = 0 ∧ e.remaining = "c..." ∧
      e.expected = [letter.description] ∧ e.whitespace = [lineFeeds.description ++ "+"] := by
  intro settings letter lineFeeds source
  obtain ⟨_, u, he, e, rfl, hposition, hremaining, hnames⟩ := Ensures.exists_error (s := Session.fresh)
    (x := Session.parseToEnd settings (.matcher letter) source (.matcher lineFeeds))
    (E := fun why _ => ∃ e, why = .rejected e ∧ e.position = 2 ∧ e.remaining = "c..." ∧
      e.expected = [letter.description] ∧ e.whitespace = [lineFeeds.description ++ "+"]) (by decide +kernel)
  obtain ⟨hcoherent, -⟩ := Session.report_is_coherent settings (by decide) _ _ _ _ he
  have hline := hcoherent.line
  have hcolumn := hcoherent.column
  rw [hposition] at hline hcolumn
  exact ⟨by decide, e, u, he, hcoherent, hposition, Int.sub_eq_iff_eq_add.mp hline, hcolumn, hremaining, hnames⟩

end Descent
