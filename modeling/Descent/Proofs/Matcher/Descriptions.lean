import Descent.Matcher.Fixed
import Descent.Proofs.WholeInput.Coherent
import Mathlib.Data.List.Nodup

/-!
# Descriptions that stand for one matcher

A report names what was expected by descriptions, and says each of them once. So two matchers with one description are
told as one. For a character class that may happen, since its label is what its author likes, and for a matcher of a
user it may happen too. **Of matchers that are made of texts, patterns and the end of the input, no two have one
description** (`Matcher.descriptions_identify`), however they are left out or repeated, and whatever quotes and
backslashes their texts hold.

The last character of a description tells how the matcher was put together, so that a layer can be taken off. What is
under all layers begins with a lead, which holds no quote, and then comes a text between quotes. In that text no quote
is bare, so that it is told from what is written up to the quote that closes it (`escape_flatMap_inj`).
-/

namespace Descent

/-! ## 1. Texts in quotes -/

/-- A character as it is written between quotes. -/
def escape (c : Char) : List Char := if c = '\\' ∨ c = '"' then ['\\', c] else [c]

/-- What is written for a character tells it, whatever comes after it. -/
theorem escape_append_inj {c d : Char} {rest rest' : List Char} (h : escape c ++ rest = escape d ++ rest') :
    c = d ∧ rest = rest' := by
  unfold escape at h
  by_cases hc : c = '\\' ∨ c = '"'
  · by_cases hd : d = '\\' ∨ d = '"'
    · simpa [hc, hd] using h
    · rw [if_pos hc, if_neg hd] at h
      exact absurd (Or.inl (List.cons.inj h).1.symm) hd
  · by_cases hd : d = '\\' ∨ d = '"'
    · rw [if_neg hc, if_pos hd] at h
      exact absurd (Or.inl (List.cons.inj h).1) hc
    · rw [if_neg hc, if_neg hd] at h
      exact List.cons.inj h

/-- A quote that is bare is none of the text. -/
theorem escape_append_ne_quote (c : Char) (rest rest' : List Char) : escape c ++ rest ≠ '"' :: rest' := by
  intro h
  unfold escape at h
  split at h
  next => exact absurd (List.cons.inj h).1 (by decide)
  next hc => exact hc (Or.inr (List.cons.inj h).1)

/-- A text is told from what is written for it up to the quote that closes it. -/
theorem escape_flatMap_inj {text text' rest rest' : List Char}
    (h : text.flatMap escape ++ '"' :: rest = text'.flatMap escape ++ '"' :: rest') : text = text' ∧ rest = rest' := by
  induction text generalizing text' with
  | nil =>
    cases text' with
    | nil => exact ⟨rfl, (List.cons.inj h).2⟩
    | cons c text' =>
      rw [List.flatMap_cons, List.append_assoc] at h
      exact absurd h.symm (escape_append_ne_quote c _ _)
  | cons c text ih =>
    rw [List.flatMap_cons, List.append_assoc] at h
    cases text' with
    | nil => exact absurd h (escape_append_ne_quote c _ _)
    | cons c' text' =>
      rw [List.flatMap_cons, List.append_assoc] at h
      obtain ⟨rfl, hrest⟩ := escape_append_inj h
      obtain ⟨rfl, rfl⟩ := ih hrest
      exact ⟨rfl, rfl⟩

/-- What comes before the first quote is told from the whole. -/
theorem append_quote_inj {lead lead' rest rest' : List Char} (hlead : '"' ∉ lead) (hlead' : '"' ∉ lead')
    (h : lead ++ '"' :: rest = lead' ++ '"' :: rest') : lead = lead' ∧ rest = rest' := by
  rcases List.append_eq_append_iff.mp h with ⟨between, rfl, hrest⟩ | ⟨between, rfl, hrest⟩
  · cases between with
    | nil => exact ⟨(List.append_nil _).symm, (List.cons.inj hrest).2⟩
    | cons c between =>
      cases (List.cons.inj hrest).1
      exact absurd (List.mem_append_right _ List.mem_cons_self) hlead'
  · cases between with
    | nil => exact ⟨List.append_nil _, (List.cons.inj hrest).2.symm⟩
    | cons c between =>
      cases (List.cons.inj hrest).1
      exact absurd (List.mem_append_right _ List.mem_cons_self) hlead

/-- It comes to the same to write two backslashes for each, and after that a backslash before each quote. -/
theorem escape_flatMap_in_turn (text : List Char) :
    text.flatMap escape = (text.flatMap fun c => if c = '\\' then ['\\', '\\'] else [c]).flatMap
      fun c => if c = '"' then ['\\', '"'] else [c] := by
  rw [List.flatMap_assoc]
  refine List.flatMap_congr fun c _ => ?_
  by_cases hbackslash : c = '\\'
  · subst hbackslash
    rfl
  · by_cases hquote : c = '"'
    · subst hquote
      rfl
    · simp [escape, hbackslash, hquote]

theorem doubleQuoted_toList (text : String) :
    (doubleQuoted text).toList = '"' :: (text.toList.flatMap escape ++ ['"']) := by
  rw [escape_flatMap_in_turn]
  exact String.toList_ofList

/-! ## 2. Descriptions -/

namespace Matcher

variable {κ : Type}

/-- A matcher made of texts, patterns and the end of the input, left out or repeated in any way. -/
def IsSpelled : Matcher κ → Prop
  | .literal _ _ | .regex _ | .endOfInput => True
  | .optional inner | .many inner => inner.IsSpelled
  | .charClass _ | .custom _ => False

instance decidableIsSpelled : (m : Matcher κ) → Decidable m.IsSpelled
  | .literal _ _ | .regex _ | .endOfInput => isTrue trivial
  | .optional inner | .many inner => decidableIsSpelled inner
  | .charClass _ | .custom _ => isFalse id

/-- What a description begins with, up to the text in quotes. -/
def lead (symbol : Char) (caseSensitive : Bool) : List Char := if caseSensitive then [symbol] else ['~', symbol]

/-- The character that the description of a spelled matcher ends with. -/
def mark : Matcher κ → Char
  | .literal _ _ | .regex _ => '"'
  | .optional _ => '?'
  | .many _ => '+'
  | .endOfInput => '$'
  | .charClass _ | .custom _ => ']'

theorem lead_inj {symbol symbol' : Char} {caseSensitive caseSensitive' : Bool}
    (h : lead symbol caseSensitive = lead symbol' caseSensitive') :
    symbol = symbol' ∧ caseSensitive = caseSensitive' := by
  match caseSensitive, caseSensitive', h with
  | true, true, h | false, false, h => simpa [lead] using h
  | true, false, h | false, true, h => simp [lead] at h

theorem quote_notMem_lead {symbol : Char} (h : symbol ≠ '"') (caseSensitive : Bool) :
    '"' ∉ lead symbol caseSensitive := by
  cases caseSensitive <;> simpa [lead] using h.symm

/-- A lead, and a text in quotes after it, are told from the two together. -/
theorem lead_quoted_inj {symbol symbol' : Char} {caseSensitive caseSensitive' : Bool} {text text' : String}
    (hsymbol : symbol ≠ '"') (hsymbol' : symbol' ≠ '"')
    (h : lead symbol caseSensitive ++ (doubleQuoted text).toList =
      lead symbol' caseSensitive' ++ (doubleQuoted text').toList) :
    symbol = symbol' ∧ caseSensitive = caseSensitive' ∧ text = text' := by
  rw [doubleQuoted_toList, doubleQuoted_toList] at h
  obtain ⟨hlead, hquoted⟩ := append_quote_inj (quote_notMem_lead hsymbol _) (quote_notMem_lead hsymbol' _) h
  obtain ⟨rfl, rfl⟩ := lead_inj hlead
  exact ⟨rfl, rfl, String.toList_injective (escape_flatMap_inj hquoted).1⟩

variable [CustomMatcher κ]

theorem description_literal (text : String) (caseSensitive : Bool) :
    (Matcher.literal text caseSensitive : Matcher κ).description.toList =
      lead '^' caseSensitive ++ (doubleQuoted text).toList := by
  rw [description, String.toList_append]
  cases caseSensitive <;> rfl

theorem description_regex (r : Regex) :
    (Matcher.regex r : Matcher κ).description.toList = lead '/' r.caseSensitive ++ (doubleQuoted r.text).toList := by
  rw [description, String.toList_append]
  cases r.caseSensitive <;> rfl

theorem description_optional (m : Matcher κ) :
    (Matcher.optional m).description.toList = m.description.toList ++ ['?'] := by
  rw [description, String.toList_append]
  rfl

theorem description_many (m : Matcher κ) : (Matcher.many m).description.toList = m.description.toList ++ ['+'] := by
  rw [description, String.toList_append]
  rfl

/-- The last character tells how a matcher was put together. -/
theorem getLast?_description {m : Matcher κ} (h : m.IsSpelled) : m.description.toList.getLast? = some m.mark := by
  cases m with
  | literal text caseSensitive =>
    rw [description_literal, doubleQuoted_toList, ← List.cons_append, ← List.append_assoc, List.getLast?_concat]
    rfl
  | regex r =>
    rw [description_regex, doubleQuoted_toList, ← List.cons_append, ← List.append_assoc, List.getLast?_concat]
    rfl
  | optional inner =>
    rw [description_optional, List.getLast?_concat]
    rfl
  | many inner =>
    rw [description_many, List.getLast?_concat]
    rfl
  | endOfInput =>
    rw [description, mark]
    decide
  | charClass k => exact h.elim
  | custom c => exact h.elim

theorem mark_eq_of_description_eq {m m' : Matcher κ} (hm : m.IsSpelled) (hm' : m'.IsSpelled)
    (h : m.description.toList = m'.description.toList) : m.mark = m'.mark := by
  have hlast := congrArg List.getLast? h
  rw [getLast?_description hm, getLast?_description hm'] at hlast
  exact Option.some.inj hlast

/-- **No two matchers that are spelled have one description.** The induction takes one layer off both. -/
theorem eq_of_description_eq {m m' : Matcher κ} (hm : m.IsSpelled) (hm' : m'.IsSpelled)
    (h : m.description.toList = m'.description.toList) : m = m' := by
  induction m generalizing m' with
  | literal text caseSensitive =>
    cases m' with
    | literal text' caseSensitive' =>
      rw [description_literal, description_literal] at h
      obtain ⟨-, rfl, rfl⟩ := lead_quoted_inj (by decide) (by decide) h
      rfl
    | regex r =>
      rw [description_literal, description_regex] at h
      exact absurd (lead_quoted_inj (by decide) (by decide) h).1 (by decide)
    | _ => exact absurd (mark_eq_of_description_eq hm hm' h) (by simp [mark])
  | regex r =>
    cases m' with
    | literal text caseSensitive =>
      rw [description_regex, description_literal] at h
      exact absurd (lead_quoted_inj (by decide) (by decide) h).1 (by decide)
    | regex r' =>
      rw [description_regex, description_regex] at h
      obtain ⟨-, hcase, htext⟩ := lead_quoted_inj (by decide) (by decide) h
      exact congrArg Matcher.regex (Regex.ext_text htext hcase)
    | _ => exact absurd (mark_eq_of_description_eq hm hm' h) (by simp [mark])
  | optional inner ih =>
    cases m' with
    | optional inner' =>
      rw [description_optional, description_optional] at h
      exact congrArg Matcher.optional (ih hm hm' (List.append_cancel_right h))
    | _ => exact absurd (mark_eq_of_description_eq hm hm' h) (by simp [mark])
  | many inner ih =>
    cases m' with
    | many inner' =>
      rw [description_many, description_many] at h
      exact congrArg Matcher.many (ih hm hm' (List.append_cancel_right h))
    | _ => exact absurd (mark_eq_of_description_eq hm hm' h) (by simp [mark])
  | endOfInput =>
    cases m' with
    | endOfInput => rfl
    | _ => exact absurd (mark_eq_of_description_eq hm hm' h) (by simp [mark])
  | charClass k => exact hm.elim
  | custom c => exact hm.elim

end Matcher

/-! ## 3. Reports -/

variable {κ : Type} [DecidableEq κ] [CustomMatcher κ]

/-- Names under which some matchers are told: each of them is among the names, those that are spelled under a name that
no other one of these has, and if all are, the names are theirs one by one. -/
structure TellsApart (ms : List (Matcher κ)) (names : List String) : Prop where
  named : ∀ m ∈ ms, m.description ∈ names
  apart : (((distinct ms).filter (·.IsSpelled)).map Matcher.description).Nodup
  one_by_one : (∀ m ∈ ms, m.IsSpelled) → names = (distinct ms).map Matcher.description

theorem tellsApart_descriptions (ms : List (Matcher κ)) : TellsApart ms (descriptions ms) where
  named m hm := mem_distinct.mpr (List.mem_map_of_mem hm)
  apart := by
    refine List.Nodup.map_on (fun m hm m' hm' h => ?_) ((nodup_distinct ms).filter _)
    have hspelled := of_decide_eq_true (List.mem_filter.mp hm).2
    have hspelled' := of_decide_eq_true (List.mem_filter.mp hm').2
    exact Matcher.eq_of_description_eq hspelled hspelled' (congrArg String.toList h)
  one_by_one hms :=
    distinct_map fun m hm m' hm' h => Matcher.eq_of_description_eq (hms m hm) (hms m' hm') (congrArg String.toList h)

/-- **Descriptions identify matchers.** Two matchers made of texts, patterns and the end of the input that have one
description are one matcher. So a report, which says each description once, tells all of them apart that were expected
or allowed where it stands; and if there are no others, it has one description for each. -/
theorem Matcher.descriptions_identify :
    (∀ m m' : Matcher κ, m.IsSpelled → m'.IsSpelled → m.description = m'.description → m = m') ∧
      ∀ (source : Source) (settings : Settings) (failed : Failure κ) (furthest : Option (Failure κ)) (e : ParseError),
        source.report settings failed furthest = .ok e →
          TellsApart (reported settings failed furthest).expected e.expected ∧
            TellsApart (reported settings failed furthest).whitespace e.whitespace := by
  constructor
  · intro m m' hm hm' h
    exact eq_of_description_eq hm hm' (congrArg String.toList h)
  · intro source settings failed furthest e h
    obtain ⟨-, rfl⟩ := Source.report_eq h
    exact ⟨tellsApart_descriptions _, tellsApart_descriptions _⟩

/-- A quote, and a backslash before a quote: both are expected, one of them twice, and the report names both. -/
theorem descriptions_identify_quotes :
    let quotes : Matcher FixedMatcher := .many (.literal "\"" true)
    let others : Matcher FixedMatcher := .many (.literal "\\\"" true)
    let source : Source := ⟨0, ['a']⟩
    let f : Failure FixedMatcher := ⟨.ofSource source, [quotes, others, quotes], []⟩
    quotes.IsSpelled ∧ others.IsSpelled ∧ quotes.description ≠ others.description ∧
      ∃ e, source.report Settings.default f none = .ok e ∧ e.expected = [quotes.description, others.description] := by
  intro quotes others source f
  have hidentify := Matcher.descriptions_identify (κ := FixedMatcher)
  have hne : quotes ≠ others := by decide
  refine ⟨trivial, trivial, fun h => hne (hidentify.1 quotes others trivial trivial h), _, rfl, ?_⟩
  have hapart := (hidentify.2 source Settings.default f none _ rfl).1
  exact hapart.one_by_one (by decide)

end Descent
