import Descent.Matcher.Fixed
import Descent.Proofs.Matcher.Caseless
import Descent.Proofs.Peg.Inert
import Descent.Proofs.Peg.Productive
import Descent.Proofs.WholeInput.Leading

/-!
# Lists are read back

A list is written as items with separators between them and whitespace around these. Where items are runs of one class
of characters, whitespace is made of another, and a separator begins with neither, there is one way to read such a text,
and `Build.separated` reads it so: the items come back in order, and what is left is just what stood behind the list
(`Build.separated_reads_back`).

What stands behind it may begin like another item, with whitespace or a separator or both. The repetition tries, and
fails where the item should be, and goes back to the end of the last item. So the proof has one lemma for the step that
finds an item (`Grammar.ReadsList.gap_parsed`) and one for the step that does not (`Grammar.ReadsList.gap_failed`), and
the rest is an induction on the items. All of it is about what a grammar gives; runs come in only at the end.
-/

namespace Descent

variable {κ : Type}

/-! ## 1. Parts of a window -/

/-- What is left of a window behind a part that it begins with. -/
structure View.Past (v : View) (part : List Char) (w : View) : Prop where
  tail : w.TailOf v
  chars_eq : v.chars = part ++ w.chars

namespace View.Past

variable {u v w : View} {part part' rest : List Char}

theorem refl (v : View) : v.Past [] v := ⟨.refl v, rfl⟩

theorem trans (h : v.Past part w) (h' : w.Past part' u) : v.Past (part ++ part') u :=
  ⟨h'.tail.trans h.tail, by rw [h.chars_eq, h'.chars_eq, List.append_assoc]⟩

theorem length_eq (h : v.Past part w) : v.length = part.length + w.length := by
  rw [← View.length_chars, h.chars_eq, List.length_append, View.length_chars]

theorem start_eq (h : v.Past part w) : w.start = v.start + part.length := by
  have hlength := h.length_eq
  have hstop := h.tail.2.1
  have hv := v.start_le_stop
  have hw := w.start_le_stop
  simp only [View.length] at hlength
  omega

/-- A part that is there can be passed by cutting the window. -/
theorem cut_of_chars (h : v.chars = part ++ rest) :
    ∃ halves : View × View, v.split (v.start + part.length) = .ok halves ∧ halves.1.chars = part ∧
      v.Past part halves.2 ∧ halves.2.chars = rest := by
  have hle : part.length ≤ v.chars.length := by simp [h]
  obtain ⟨hstop, hcut⟩ := View.split_add_eq_ok hle
  have happend := v.chars_cut_append (v.start + part.length) (Nat.le_add_right _ _) hstop
  have hlength : (v.cut (v.start + part.length) (Nat.le_add_right _ _) hstop).1.chars.length = part.length := by
    rw [View.length_chars]
    exact Nat.add_sub_cancel_left _ _
  obtain ⟨hfirst, hrest⟩ := List.append_inj (happend.trans h) hlength
  exact ⟨_, hcut, hfirst, ⟨View.tailOf_of_split hcut, hrest ▸ h⟩, hrest⟩

end View.Past

/-- A text that does not begin with a character of a class. -/
def CharClass.StopsAt (k : CharClass) (chars : List Char) : Prop := ∀ c ∈ chars.head?, k.contains c = false

namespace CharClass

variable {k : CharClass} {part rest : List Char}

theorem stopsAt_cons {c : Char} {chars : List Char} : k.StopsAt (c :: chars) ↔ k.contains c = false := by
  constructor
  · intro h
    exact h c rfl
  · rintro h _ ⟨⟩
    exact h

theorem StopsAt.append_of_ne_nil (h : k.StopsAt part) (hne : part ≠ []) (rest : List Char) : k.StopsAt (part ++ rest) := by
  cases part with
  | nil => exact absurd rfl hne
  | cons c part => exact stopsAt_cons.mpr (stopsAt_cons.mp h)

theorem StopsAt.append (h : k.StopsAt part) (h' : k.StopsAt rest) : k.StopsAt (part ++ rest) := by
  cases part with
  | nil => exact h'
  | cons c part => exact stopsAt_cons.mpr (stopsAt_cons.mp h)

/-- A run of a class ends where the class does. -/
theorem takeWhile_append (hpart : ∀ c ∈ part, k.contains c = true) (hrest : k.StopsAt rest) :
    (part ++ rest).takeWhile k.contains = part := by
  rw [List.takeWhile_append_of_pos hpart]
  cases rest with
  | nil => simp
  | cons c rest =>
    simp [stopsAt_cons.mp hrest]

/-- Every text is a run of a class and a text that does not go on with it. -/
theorem exists_run (k : CharClass) (chars : List Char) :
    ∃ part rest, chars = part ++ rest ∧ (∀ c ∈ part, k.contains c = true) ∧ k.StopsAt rest := by
  refine ⟨_, _, (List.takeWhile_append_dropWhile (p := k.contains)).symm, fun c hc => ?_, fun c hc => ?_⟩
  · exact List.all_eq_true.mp List.all_takeWhile c hc
  · have := List.head?_dropWhile_not k.contains chars
    rw [Option.mem_def.mp hc] at this
    simpa using this

theorem runWidth?_append (hpart : ∀ c ∈ part, k.contains c = true) (hne : part ≠ []) (hrest : k.StopsAt rest) :
    k.runWidth? (part ++ rest) = some part.length := by
  rw [runWidth?_eq_some_iff, takeWhile_append hpart hrest]
  exact ⟨List.length_pos_iff.mpr hne, rfl⟩

theorem StopsAt.runWidth?_eq_none (h : k.StopsAt part) : k.runWidth? part = none := by
  cases hn : k.runWidth? part with
  | none => rfl
  | some n =>
    obtain ⟨hpos, hn⟩ := runWidth?_eq_some_iff.mp hn
    have hrun : ([] ++ part).takeWhile k.contains = [] := takeWhile_append nofun h
    rw [List.nil_append] at hrun
    rw [hrun] at hn
    exact absurd hn hpos.ne'

end CharClass

/-- A part that a literal matches as a whole. -/
def Text.Spells (caseSensitive : Bool) (text part : List Char) : Prop :=
  if caseSensitive then part = text else fold part = fold text

@[simp] theorem Text.spells_self (caseSensitive : Bool) (text : List Char) : Spells caseSensitive text text := by
  cases caseSensitive <;> simp [Spells]

/-- A literal takes the beginnings that it spells. -/
theorem Matcher.literal_width?_iff {text : String} {caseSensitive : Bool} {chars : List Char} {n : Nat} :
    (Matcher.literal text caseSensitive : Matcher κ).width? chars = .ok (some n) ↔
      n ≤ chars.length ∧ Text.Spells caseSensitive text.toList (chars.take n) := by
  cases caseSensitive with
  | false => simp [width?, foldedWidth?_eq_some_iff, Text.Spells]
  | true =>
    simp only [width?, Except.ok.injEq, literalWidth?_eq_some_iff, Text.Spells, if_pos]
    constructor
    · rintro ⟨hbegins, rfl⟩
      exact ⟨hbegins.length_le, (List.prefix_iff_eq_take.mp hbegins).symm⟩
    · rintro ⟨hn, htake⟩
      refine ⟨htake ▸ List.take_prefix n chars, ?_⟩
      rw [← htake, List.length_take, Nat.min_eq_left hn]

/-! ## 2. Single steps -/

section Single

variable [CustomMatcher κ] {g : Grammar κ} {P : Option RuleId} {v w : View} {m : Matcher κ} {part rest : List Char}

/-- A matcher that takes a part gives what becomes of its text, and leaves what is past it. -/
theorem Matcher.matched_of_width (hm : m.custom? = none) (hw : m.width? v.chars = .ok (some part.length))
    (h : v.chars = part ++ rest) (f : Transform κ) {x : Value κ} (hf : f (.str (String.ofList part)) = .ok x) :
    ∃ w, m.matched v (fun text => f (.str text.text)) = .ok (.parsed x w) ∧ v.Past part w ∧ w.chars = rest := by
  obtain ⟨halves, hcut, hpart, hpast, hrest⟩ := View.Past.cut_of_chars h
  have hsplit : m.split v = .ok (some halves) := by
    rw [split_eq_width hm, hw]
    exact except_bind_of_ok hcut
  refine ⟨halves.2, ?_, hpast, hrest⟩
  rw [matched, hsplit]
  show (do return Ending.parsed (← f (.str halves.1.text)) halves.2 : Except Fault (Ending κ)) = _
  rw [View.text, hpart, hf]
  rfl

theorem Matcher.matched_of_no_width (hm : m.custom? = none) (hw : m.width? v.chars = .ok none)
    (value : View → Except Fault (Value κ)) : m.matched v value = .ok (.failed v) := by
  rw [matched, split_eq_width hm, hw]
  rfl

namespace Grammar.HasBody

variable {id : RuleId}

theorem rule_gives {b : Body κ} (hb : g.HasBody id b) {y : Verdict κ} (h : g.Gives P (.body b) v y) :
    g.Gives P (.rule id) v y := by
  obtain ⟨label, hr⟩ := hb
  exact .rule hr h

/-- The token of a matcher that takes a part gives its text. -/
theorem token_parsed (hb : g.HasBody id (.token m none)) (hm : m.custom? = none)
    (hw : m.width? v.chars = .ok (some part.length)) (h : v.chars = part ++ rest) :
    ∃ w, g.Gives P (.rule id) v (.ok (.parsed (.str (String.ofList part)) w)) ∧ v.Past part w ∧ w.chars = rest := by
  obtain ⟨w, hmatched, hpast, hrest⟩ := Matcher.matched_of_width hm hw h .ok rfl
  exact ⟨w, hb.rule_gives (.alone (congrArg some hmatched)), hpast, hrest⟩

theorem token_failed (hb : g.HasBody id (.token m none)) (hm : m.custom? = none) (hw : m.width? v.chars = .ok none) :
    g.Gives P (.rule id) v (.ok (.failed v)) :=
  hb.rule_gives (.alone (congrArg some (Matcher.matched_of_no_width hm hw _)))

/-- A policy of a class takes all characters of it. -/
theorem skip_gives {k : CharClass} (hb : g.HasBody id k.policyBody) (h : v.chars = part ++ rest)
    (hpart : ∀ c ∈ part, k.contains c = true) (hrest : k.StopsAt rest) :
    ∃ w, g.Gives (some id) .skip v (.ok (.parsed .none w)) ∧ v.Past part w ∧ w.chars = rest := by
  have width : (Matcher.many (.charClass k) : Matcher κ).width? v.chars = .ok (k.runWidth? v.chars) := rfl
  by_cases hne : part = []
  · -- there is none, and the policy fails
    subst hne
    have hstops : k.StopsAt v.chars := h ▸ hrest
    rw [hstops.runWidth?_eq_none] at width
    have hmatched := Matcher.matched_of_no_width rfl width fun _ => .ok (.none : Value κ)
    refine ⟨v, .skipFailed (hb.rule_gives (.alone (congrArg some hmatched))), .refl v, h⟩
  · rw [h, k.runWidth?_append hpart hne hrest, ← h] at width
    obtain ⟨w, hmatched, hpast, hchars⟩ := Matcher.matched_of_width rfl width h (fun _ => .ok (.none : Value κ)) rfl
    exact ⟨w, .skipParsed (hb.rule_gives (.alone (congrArg some hmatched))), hpast, hchars⟩

end Grammar.HasBody

end Single

/-! ## 3. Lists as they are written -/

/-- What lists are written with: a class of blanks, a class of letters, and a text between two words that begins with
neither. -/
structure ListSyntax where
  blank : CharClass
  letter : CharClass
  separator : String
  caseSensitive : Bool
  disjoint : ∀ c, letter.contains c = true → blank.contains c = false
  separator_ne : separator ≠ ""
  letter_stops : letter.StopsAt separator.toList
  blank_stops : blank.StopsAt separator.toList

namespace ListSyntax

/-- A row of letters, one at least. -/
structure Word (l : ListSyntax) where
  chars : List Char
  letters : ∀ c ∈ chars, l.letter.contains c = true
  ne_nil : chars ≠ []

/-- How a list goes on: a separator between blanks, and a word. -/
structure Next (l : ListSyntax) where
  before : List Char
  after : List Char
  word : l.Word
  before_blank : ∀ c ∈ before, l.blank.contains c = true
  after_blank : ∀ c ∈ after, l.blank.contains c = true

/-- A text with which a list does not go on. It begins with no letter, and after blanks, a separator and blanks there is
no letter either. -/
structure EndsAt (l : ListSyntax) (tail : List Char) : Prop where
  word : l.letter.StopsAt tail
  next : ∀ before part after rest, tail = before ++ (part ++ (after ++ rest)) →
    (∀ c ∈ before, l.blank.contains c = true) → Text.Spells l.caseSensitive l.separator.toList part →
    (∀ c ∈ after, l.blank.contains c = true) → l.letter.StopsAt rest

variable {l : ListSyntax}

def Word.value (word : l.Word) : Value κ := .str (String.ofList word.chars)

def Next.text (next : l.Next) : List Char :=
  next.before ++ (l.separator.toList ++ (next.after ++ next.word.chars))

theorem separator_ne_nil (l : ListSyntax) : l.separator.toList ≠ [] := by
  intro h
  exact l.separator_ne (String.toList_eq_nil_iff.mp h)

theorem letter_stops_of_blank {part : List Char} (h : ∀ c ∈ part, l.blank.contains c = true) :
    l.letter.StopsAt part := by
  intro c hc
  have hblank := h c (List.mem_of_mem_head? hc)
  by_contra hletter
  rw [l.disjoint c (by simpa using hletter)] at hblank
  cases hblank

theorem Word.blank_stops (word : l.Word) (rest : List Char) : l.blank.StopsAt (word.chars ++ rest) := by
  refine CharClass.StopsAt.append_of_ne_nil (fun c hc => ?_) word.ne_nil rest
  exact l.disjoint c (word.letters c (List.mem_of_mem_head? hc))

/-- A word ends where the list goes on. -/
theorem Next.letter_stops (next : l.Next) (rest : List Char) : l.letter.StopsAt (next.text ++ rest) := by
  rw [Next.text, List.append_assoc, List.append_assoc]
  exact (letter_stops_of_blank next.before_blank).append (l.letter_stops.append_of_ne_nil l.separator_ne_nil _)

theorem EndsAt.letter_stops {tail : List Char} (h : l.EndsAt tail) (others : List l.Next) :
    l.letter.StopsAt (others.flatMap Next.text ++ tail) := by
  cases others with
  | nil => exact h.word
  | cons next others =>
    rw [List.flatMap_cons, List.append_assoc]
    exact next.letter_stops _

end ListSyntax

/-! ## 4. Lists as they are read -/

section Read

variable [CustomMatcher κ]

/-- The rules that read a list, and the policy that they are meant for. -/
structure Grammar.ReadsList (g : Grammar κ) (l : ListSyntax) (policy word separator gap id : RuleId) : Prop where
  policy_body : g.HasBody policy l.blank.policyBody
  word_body : g.HasBody word (.token (.many (.charClass l.letter)) none)
  separator_body : g.HasBody separator (.token (.literal l.separator l.caseSensitive) none)
  gap_body : ∃ next pair behind, g.HasBody behind (.skipping word) ∧ g.HasBody pair (.sequence [separator, behind]) ∧
    g.HasBody next (.map pair (Value.element 1)) ∧ g.HasBody gap (.skipping next)
  list_body : ∃ others all, g.HasBody others (.repeated gap 0 gap) ∧ g.HasBody all (.sequence [word, others]) ∧
    g.HasBody id (.map all Value.consed)

namespace Grammar.ReadsList

variable {g : Grammar κ} {l : ListSyntax} {policy word separator gap id : RuleId} {v : View} {rest : List Char}

/-- A word is read up to where it ends. -/
theorem word_parsed (h : g.ReadsList l policy word separator gap id) (x : l.Word) (hrest : l.letter.StopsAt rest)
    (hv : v.chars = x.chars ++ rest) :
    ∃ w, g.Gives (some policy) (.rule word) v (.ok (.parsed x.value w)) ∧ v.Past x.chars w ∧ w.chars = rest := by
  refine h.word_body.token_parsed rfl ?_ hv
  show Except.ok (l.letter.runWidth? v.chars) = _
  rw [hv, CharClass.runWidth?_append x.letters x.ne_nil hrest]

theorem word_failed (h : g.ReadsList l policy word separator gap id) (hv : l.letter.StopsAt v.chars) :
    g.Gives (some policy) (.rule word) v (.ok (.failed v)) :=
  h.word_body.token_failed rfl (congrArg Except.ok hv.runWidth?_eq_none)

/-- **The list goes on**: blanks, a separator, blanks and a word are read, and the word is the value. -/
theorem gap_parsed (h : g.ReadsList l policy word separator gap id) (x : l.Next) (hrest : l.letter.StopsAt rest)
    (hv : v.chars = x.text ++ rest) :
    ∃ w, g.Gives (some policy) (.rule gap) v (.ok (.parsed x.word.value w)) ∧ v.Past x.text w ∧ w.chars = rest := by
  rw [ListSyntax.Next.text, List.append_assoc, List.append_assoc, List.append_assoc] at hv
  obtain ⟨v₁, hskip, hpast₁, hv₁⟩ := h.policy_body.skip_gives hv x.before_blank
    (l.blank_stops.append_of_ne_nil l.separator_ne_nil _)
  have spelled : (Matcher.literal l.separator l.caseSensitive : Matcher κ).width? v₁.chars =
      .ok (some l.separator.toList.length) := by
    rw [Matcher.literal_width?_iff, hv₁]
    simp
  obtain ⟨v₂, hseparator, hpast₂, hv₂⟩ := h.separator_body.token_parsed (P := some policy) rfl spelled hv₁
  obtain ⟨v₃, hskip', hpast₃, hv₃⟩ := h.policy_body.skip_gives hv₂ x.after_blank (x.word.blank_stops rest)
  obtain ⟨w, hword, hpast, hw⟩ := h.word_parsed x.word hrest hv₃
  obtain ⟨next, pair, behind, hbehind, hpair, hnext, hgap⟩ := h.gap_body
  have both : g.Gives (some policy) (.rule pair) v₁
      (.ok (.parsed (.tuple [.str (String.ofList l.separator.toList), x.word.value]) w)) :=
    hpair.rule_gives (.sequence (.partsCons hseparator
      (.partsCons (hbehind.rule_gives (.skipping hskip' hword)) .partsNil)))
  refine ⟨w, hgap.rule_gives (.skipping hskip (hnext.rule_gives (.map both rfl))), ?_, hw⟩
  exact hpast₁.trans (hpast₂.trans (hpast₃.trans hpast))

/-- **The list does not go on**: the separator is not there, or no word is behind it. -/
theorem gap_failed (h : g.ReadsList l policy word separator gap id) (hv : l.EndsAt v.chars) :
    ∃ w, g.Gives (some policy) (.rule gap) v (.ok (.failed w)) := by
  have failed (w : View) : ¬ Verdict.IsParsed (.ok (.failed w) : Verdict κ) := fun ⟨_, _, h⟩ => nomatch h
  obtain ⟨next, pair, behind, hbehind, hpair, hnext, hgap⟩ := h.gap_body
  obtain ⟨before, rest₁, hbefore, hblank, hstops⟩ := l.blank.exists_run v.chars
  obtain ⟨v₁, hskip, -, hv₁⟩ := h.policy_body.skip_gives hbefore hblank hstops
  suffices hpair : ∃ w, g.Gives (some policy) (.rule pair) v₁ (.ok (.failed w)) by
    obtain ⟨w, hw⟩ := hpair
    exact ⟨w, hgap.rule_gives (.skipping hskip (hnext.rule_gives (.mapStop hw (failed w))))⟩
  obtain ⟨found, hfound⟩ : ∃ found,
      (Matcher.literal l.separator l.caseSensitive : Matcher κ).width? v₁.chars = .ok found := by
    cases l.caseSensitive <;> exact ⟨_, rfl⟩
  cases found with
  | none =>
    have hseparator := h.separator_body.token_failed (P := some policy) rfl hfound
    exact ⟨v₁, hpair.rule_gives (.sequence (.partsStop hseparator (failed v₁)))⟩
  | some n =>
    obtain ⟨hn, hspells⟩ := Matcher.literal_width?_iff.mp hfound
    have hcut : v₁.chars = v₁.chars.take n ++ v₁.chars.drop n := (List.take_append_drop n _).symm
    have hlength : (v₁.chars.take n).length = n := List.length_take_of_le hn
    rw [← hlength] at hfound
    obtain ⟨v₂, hseparator, -, hv₂⟩ := h.separator_body.token_parsed (P := some policy) rfl hfound hcut
    obtain ⟨after, rest₂, hafter, hblank', hstops'⟩ := l.blank.exists_run v₂.chars
    obtain ⟨v₃, hskip', -, hv₃⟩ := h.policy_body.skip_gives hafter hblank' hstops'
    have hword : l.letter.StopsAt v₃.chars := by
      refine hv₃ ▸ hv.next before _ after rest₂ ?_ hblank hspells hblank'
      rw [← hafter, hv₂, List.take_append_drop, hv₁, hbefore]
    have hbehind := hbehind.rule_gives (.skipping hskip' (h.word_failed hword))
    exact ⟨v₃, hpair.rule_gives (.sequence (.partsCons hseparator (.partsStop hbehind (failed v₃))))⟩

/-- The rest of a list is read to its end, by induction on how it goes on. -/
theorem rounds_parsed (h : g.ReadsList l policy word separator gap id) {tail : List Char} (htail : l.EndsAt tail)
    (others : List l.Next) (hv : v.chars = others.flatMap ListSyntax.Next.text ++ tail) :
    ∃ o w, g.Gives (some policy) (.rule gap) v (.ok o) ∧ v.Past (others.flatMap ListSyntax.Next.text) w ∧
      w.chars = tail ∧ ∀ values, g.Gives (some policy) (.rounds gap 0 values o) v
        (.ok (.parsed (.list (values ++ others.map (·.word.value))) w)) := by
  induction others generalizing v with
  | nil =>
    obtain ⟨w, hw⟩ := h.gap_failed (v := v) (by simpa [hv] using htail)
    refine ⟨.failed w, v, hw, .refl v, hv, fun values => ?_⟩
    have hclosing : Ending.closing 0 values v (.failed w) = .parsed (.list values) v :=
      if_neg (Int.not_lt.mpr (Int.natCast_nonneg _))
    rw [List.map_nil, List.append_nil, ← hclosing]
    exact .roundsFailed
  | cons x others ih =>
    rw [List.flatMap_cons, List.append_assoc] at hv
    obtain ⟨u, hu, hpast, hchars⟩ := h.gap_parsed x (htail.letter_stops others) hv
    obtain ⟨o, w, ho, hpast', hw, hrounds⟩ := ih hchars
    refine ⟨_, w, hu, hpast.trans hpast', hw, fun values => ?_⟩
    have hmoved : u.start ≠ v.start := by
      have hlength := List.length_pos_iff.mpr x.word.ne_nil
      have hstart := hpast.start_eq
      simp only [ListSyntax.Next.text, List.length_append] at hstart
      omega
    have hrounds := hrounds (values ++ [x.word.value])
    rw [List.append_assoc] at hrounds
    exact .roundsNext hmoved ho hrounds

/-- **A list is read to its end**, and what stands behind it is left. -/
theorem list_parsed (h : g.ReadsList l policy word separator gap id) {tail : List Char} (htail : l.EndsAt tail)
    (first : l.Word) (others : List l.Next)
    (hv : v.chars = first.chars ++ (others.flatMap ListSyntax.Next.text ++ tail)) :
    ∃ w, g.Gives (some policy) (.rule id) v
      (.ok (.parsed (.list (first.value :: others.map (·.word.value))) w)) ∧ w.TailOf v ∧ w.chars = tail := by
  obtain ⟨u, hfirst, hpast, hu⟩ := h.word_parsed first (htail.letter_stops others) hv
  obtain ⟨o, w, hgap, hpast', hw, hrounds⟩ := h.rounds_parsed htail others hu
  obtain ⟨rounds, all, hothers, hall, hlist⟩ := h.list_body
  have whole : g.Gives (some policy) (.rule all) v
      (.ok (.parsed (.tuple [first.value, .list (others.map (·.word.value))]) w)) :=
    hall.rule_gives (.sequence (.partsCons hfirst
      (.partsCons (hothers.rule_gives (.repeated hgap (hrounds []))) .partsNil)))
  exact ⟨w, hlist.rule_gives (.map whole rfl), (hpast.trans hpast').tail, hw⟩

end Grammar.ReadsList

end Read

/-! ## 5. Lists as they are built -/

namespace Build

variable {g : Grammar κ} {E : Fault → Grammar κ → Prop}

theorem ensures_add_extends {label : Option String} {body : Body κ} (hbody : body.Fits g)
    {Q : RuleId → Grammar κ → Prop} (h : ∀ id g', g.Extends g' → g'.HasBody id body → Q id g') :
    Ensures (add label body) g Q E :=
  h g.rules.size (g.push label body) (hbody.extends_push label) ⟨label, Grammar.rule?_push_size⟩

theorem ensures_map_extends {inner : RuleId} {f : Transform κ} (hinner : inner < g.rules.size)
    {Q : RuleId → Grammar κ → Prop} (h : ∀ id g', g.Extends g' → g'.HasBody id (.map inner f) → Q id g') :
    Ensures (map inner f) g Q E :=
  show Ensures (add (g.label inner) (.map inner f)) g Q E from ensures_add_extends (.map hinner f) h

variable [CustomMatcher κ]

theorem ensures_skipping_extends {inner : RuleId} (hinner : inner < g.rules.size) {Q : RuleId → Grammar κ → Prop}
    (h : ∀ id g', g.Extends g' → g'.HasBody id (.skipping inner) → Q id g') :
    Ensures (skipping (.rule inner)) g Q E :=
  show Ensures (add (g.label inner) (.skipping inner)) g Q E from ensures_add_extends (.skipping hinner) h

/-- A class of characters makes a policy. -/
theorem ensures_policy_extends {k : CharClass} {Q : Option RuleId → Grammar κ → Prop}
    (h : ∀ p g', g.Extends g' → g'.HasBody p k.policyBody → Q (some p) g') :
    Ensures (policy (.matcher (.charClass k))) g Q E := by
  show Ensures (do return some (← add _ k.policyBody)) g Q E
  rw [ensures_bind]
  exact ensures_add_extends (.token _ _) h

/-- What stands for a matcher makes its token. -/
theorem ensures_token_extends {o : Operand κ} {m : Matcher κ} (ho : ∀ g, asMatcher o g = .ok m g)
    {Q : RuleId → Grammar κ → Prop} (h : ∀ id g', g.Extends g' → g'.HasBody id (.token m none) → Q id g') :
    Ensures (token o none) g Q E := by
  rw [token, ensures_bind, Ensures, ho]
  exact ensures_add_extends (.token m none) h

theorem asRule_eq_token {o : Operand κ} {m : Matcher κ} (ho : ∀ g, asMatcher o g = .ok m g) :
    asRule o = token o none := by
  cases o with
  | rule id => cases ho .empty
  | _ => rfl

/-- A separator and a word, with ambient whitespace between them. -/
theorem ensures_pair_extends {o : Operand κ} {m : Matcher κ} (ho : ∀ g, asMatcher o g = .ok m g) {word : RuleId}
    (hword : word < g.rules.size) {Q : RuleId → Grammar κ → Prop}
    (h : ∀ pair separator behind g', g.Extends g' → g'.HasBody behind (.skipping word) →
      g'.HasBody separator (.token m none) → g'.HasBody pair (.sequence [separator, behind]) → Q pair g') :
    Ensures (sequenceSkipping [o, .rule word]) g Q E := by
  rw [sequenceSkipping, List.mapM_cons, List.mapM_nil, bind_assoc, ensures_bind]
  refine ensures_skipping_extends hword fun behind g₁ h₁ hbehind => ?_
  simp only [pure_bind, sequence, List.isEmpty_cons, Bool.false_eq_true, if_false, List.map_cons, List.map_nil,
    List.mapM_cons, List.mapM_nil, asRule_eq_token ho, bind_assoc, ensures_bind]
  refine ensures_token_extends ho fun separator g₂ h₂ hseparator => ?_
  have hbehind := h₂.part.hasBody hbehind
  have parts : ∀ q ∈ [separator, behind], q < g₂.rules.size :=
    List.forall_mem_cons.mpr ⟨hseparator.lt_size, List.forall_mem_singleton.mpr hbehind.lt_size⟩
  show Ensures (add none (.sequence [separator, behind])) g₂ Q E
  refine ensures_add_extends (.sequence parts) fun pair g₃ h₃ hpair => ?_
  exact h pair separator behind g₃ (h₁.trans (h₂.trans h₃)) (h₃.part.hasBody hbehind) (h₃.part.hasBody hseparator) hpair

/-- The rules of a list are made. -/
theorem separated_ensures {l : ListSyntax} {o : Operand κ}
    (ho : ∀ g, asMatcher o g = .ok (.literal l.separator l.caseSensitive) g) {policy word : RuleId}
    (hpolicy : g.HasBody policy l.blank.policyBody)
    (hword : g.HasBody word (.token (.many (.charClass l.letter)) none)) :
    Ensures (separated (.rule word) o) g
      (fun id g' => g.Extends g' ∧ ∃ separator gap, g'.ReadsList l policy word separator gap id) E := by
  rw [separated, asRule, pure_bind, ensures_bind]
  refine ensures_pair_extends ho hword.lt_size fun pair separator behind g₁ h₁ hbehind hseparator hpair => ?_
  rw [second, ensures_bind]
  refine ensures_map_extends hpair.lt_size fun next g₂ h₂ hnext => ?_
  rw [ensures_bind]
  refine ensures_skipping_extends hnext.lt_size fun gap g₃ h₃ hgap => ?_
  rw [zeroOrMore, repeated, asRule, pure_bind, ensures_bind]
  refine ensures_add_extends (.repeated 0 hgap.lt_size hgap.lt_size) fun others g₄ h₄ hothers => ?_
  simp only [sequence, List.isEmpty_cons, Bool.false_eq_true, if_false, List.mapM_cons, List.mapM_nil, asRule, pure_bind,
    ensures_bind]
  have word₄ := (h₁.trans (h₂.trans (h₃.trans h₄))).part.hasBody hword
  have parts : ∀ q ∈ [word, others], q < g₄.rules.size :=
    List.forall_mem_cons.mpr ⟨word₄.lt_size, List.forall_mem_singleton.mpr hothers.lt_size⟩
  refine ensures_add_extends (.sequence parts) fun all g₅ h₅ hall => ?_
  refine ensures_map_extends hall.lt_size fun id g₆ h₆ hid => ?_
  have after₄ := h₅.trans h₆
  have after₂ := h₃.trans (h₄.trans after₄)
  refine ⟨h₁.trans (h₂.trans after₂), separator, gap, ?_, after₄.part.hasBody word₄,
    (h₂.trans after₂).part.hasBody hseparator, ?_, ?_⟩
  · exact (h₁.trans (h₂.trans after₂)).part.hasBody hpolicy
  · exact ⟨next, pair, behind, (h₂.trans after₂).part.hasBody hbehind, (h₂.trans after₂).part.hasBody hpair,
      after₂.part.hasBody hnext, (h₄.trans after₄).part.hasBody hgap⟩
  · exact ⟨others, all, after₄.part.hasBody hothers, h₆.part.hasBody hall, hid⟩

/-- The policy of a list, its words, and the list itself, with an operand for its separator. -/
def wordList (l : ListSyntax) (o : Operand κ) : Build κ (Option RuleId × RuleId) := do
  let policy ← Build.policy (.matcher (.charClass l.blank))
  let word ← token (.matcher (.many (.charClass l.letter))) none
  let id ← separated (.rule word) o
  return (policy, id)

theorem wordList_ensures {l : ListSyntax} {o : Operand κ}
    (ho : ∀ g, asMatcher o g = .ok (.literal l.separator l.caseSensitive) g) :
    Ensures (wordList l o) g (fun built g' => g.Extends g' ∧ ∃ policy word separator gap,
      built.1 = some policy ∧ g'.ReadsList l policy word separator gap built.2) E := by
  rw [wordList, ensures_bind]
  refine ensures_policy_extends fun policy g₁ h₁ hpolicy => ?_
  rw [ensures_bind]
  refine ensures_token_extends (fun _ => rfl) fun word g₂ h₂ hword => ?_
  rw [ensures_bind]
  refine (separated_ensures ho (h₂.part.hasBody hpolicy) hword).imp_ok ?_
  rintro id g' ⟨h', separator, gap, hreads⟩
  exact ⟨h₁.trans (h₂.trans h'), policy, word, separator, gap, rfl, hreads⟩

end Build

/-! ## 6. Runs -/

section Run

variable [DecidableEq κ] [CustomMatcher κ]

/-- A success that is found with some fuel is that of a run with as much. -/
theorem Grammar.parses_of_eval {g : Grammar κ} (hg : g.IsLibrary) (hclosed : g.IsClosed) (hguarded : g.IsGuarded)
    {P : Option RuleId} (hP : g.Has P) {id : RuleId} (hid : id < g.rules.size) {v w : View} {x : Value κ} {fuel : Nat}
    (h : g.eval fuel P id v = .ok (.parsed x w)) (s : ParseState κ) (hs : s.context.whitespace = P) :
    ∃ t, g.parse fuel id v s = .ok (.parsed x w) t := by
  rcases verdict_eval hg hclosed hP hid fuel s hs with ⟨e, he, -⟩ | heval
  · exact absurd hguarded he.1
  · have hverdict := (heval (.ok (.parsed x w))).mpr h
    cases hx : g.parse fuel id v s with
    | ok r t =>
      rw [hx] at hverdict
      cases r with
      | parsed y u =>
        cases hverdict
        exact ⟨t, rfl⟩
      | failed f => cases hverdict
    | error why t =>
      rw [hx] at hverdict
      cases why <;> cases hverdict

/-- A success that a grammar gives is that of every run with enough fuel. -/
theorem Grammar.Gives.parses {g : Grammar κ} (hg : g.IsLibrary) (hclosed : g.IsClosed) (hguarded : g.IsGuarded)
    {P : Option RuleId} (hP : g.Has P) {id : RuleId} (hid : id < g.rules.size) {v w : View} {x : Value κ}
    (h : g.Gives P (.rule id) v (.ok (.parsed x w))) :
    ∃ n, ∀ fuel ≥ n, ∀ s : ParseState κ, s.context.whitespace = P → ∃ t, g.parse fuel id v s = .ok (.parsed x w) t := by
  obtain ⟨n, hn⟩ := Filter.eventually_atTop.mp (h.finds trivial)
  exact ⟨n, fun fuel hfuel => Grammar.parses_of_eval hg hclosed hguarded hP hid (hn fuel hfuel)⟩

/-- **Lists are read back as they were written.** Take a class of blanks and a class of letters with no character in
common, and a separator that begins with neither. The rules for a list of words, added to any grammar of the library,
read every such list: from any state with the blanks as policy, a run with enough fuel succeeds with the words in order,
and leaves just the text behind them, whatever blanks and separators that begins with. -/
theorem Build.separated_reads_back {g₀ : Grammar κ} (hg : g₀.IsLibrary) (hclosed : g₀.IsClosed)
    (hguarded : g₀.IsGuarded) (l : ListSyntax) {o : Operand κ}
    (ho : ∀ g, Build.asMatcher o g = .ok (.literal l.separator l.caseSensitive) g) :
    Ensures (Build.wordList l o) g₀
      (fun built g => ∀ (first : l.Word) (others : List l.Next) (tail : List Char), l.EndsAt tail → ∀ v : View,
        v.chars = first.chars ++ (others.flatMap ListSyntax.Next.text ++ tail) → ∃ (w : View) (n : Nat),
          w.TailOf v ∧ w.chars = tail ∧ ∀ fuel ≥ n, ∀ s : ParseState κ, s.context.whitespace = built.1 →
            ∃ t, g.parse fuel built.2 v s =
              .ok (.parsed (.list (first.value :: others.map (·.word.value))) w) t)
      fun _ _ => False := by
  refine (Build.wordList_ensures ho).imp_ok ?_
  rintro ⟨_, id⟩ g ⟨hextends, policy, word, separator, gap, rfl, hreads⟩ first others tail htail v hv
  obtain ⟨w, hgives, hw, hchars⟩ := hreads.list_parsed htail first others hv
  obtain ⟨_, _, -, -, hid⟩ := hreads.list_body
  obtain ⟨n, hn⟩ := hgives.parses (hextends.library hg) (hextends.closed hclosed) (hextends.guarded hguarded)
    hreads.policy_body.has hid.lt_size
  exact ⟨w, n, hw, hchars, hn⟩

end Run

/-- Numbers with commas between them and spaces around these. -/
def numberSyntax : ListSyntax where
  blank := ⟨.set (.between ' ' ' '), " ", false⟩
  letter := .digits
  separator := ","
  caseSensitive := true
  disjoint := by
    intro c hc
    simp [CharClass.contains, ClassMembers.contains, CharSet.contains, CharSet.between, CharClass.digits,
      Text.inRanges] at hc ⊢
    omega
  separator_ne := by decide
  letter_stops := CharClass.stopsAt_cons.mpr (by decide)
  blank_stops := CharClass.stopsAt_cons.mpr (by decide)

/-- A comma behind the last number is left there, and so is the space behind it. -/
theorem Build.separated_reads_back_numbers :
    let v := View.ofSource ⟨0, ['1', ' ', ',', '2', '2', ',', ' ', 'x']⟩
    ∃ policy id g, (Build.wordList numberSyntax (.text ",") : Build FixedMatcher _) .empty = .ok (policy, id) g ∧
      ∃ (w : View) (n : Nat), w.TailOf v ∧ w.chars = [',', ' ', 'x'] ∧ ∀ fuel ≥ n, ∃ t,
        g.parse fuel id v ⟨.fresh, .fresh policy 0⟩ = .ok (.parsed (.list [.str "1", .str "22"]) w) t := by
  intro v
  let one : numberSyntax.Word := ⟨['1'], List.forall_mem_singleton.mpr (by decide), nofun⟩
  let two : numberSyntax.Word :=
    ⟨['2', '2'], List.forall_mem_cons.mpr ⟨by decide, List.forall_mem_singleton.mpr (by decide)⟩, nofun⟩
  let more : numberSyntax.Next := ⟨[' '], [], two, List.forall_mem_singleton.mpr (by decide), List.forall_mem_nil _⟩
  have ends : numberSyntax.EndsAt [',', ' ', 'x'] := by
    refine ⟨CharClass.stopsAt_cons.mpr (by decide), fun before part after rest htail hbefore hpart hafter => ?_⟩
    have hpart : part = [','] := hpart
    subst hpart
    -- what is skipped are blanks, so that there is no choice
    cases before with
    | cons c before =>
      obtain ⟨rfl, -⟩ := List.cons.inj htail
      exact absurd (hbefore ',' List.mem_cons_self) (by decide)
    | nil =>
      cases after with
      | nil =>
        cases htail
        exact CharClass.stopsAt_cons.mpr (by decide)
      | cons c after =>
        cases after with
        | nil =>
          cases htail
          exact CharClass.stopsAt_cons.mpr (by decide)
        | cons c' after =>
          simp only [List.cons_append, List.nil_append, List.cons.injEq] at htail
          obtain ⟨-, rfl, rfl, -⟩ := htail
          exact absurd (hafter 'x' (List.mem_cons_of_mem _ List.mem_cons_self)) (by decide)
  have hlibrary : (Grammar.empty : Grammar FixedMatcher).IsLibrary := by decide
  have hclosed : (Grammar.empty : Grammar FixedMatcher).IsClosed := by decide
  obtain ⟨⟨policy, id⟩, g, hbuilt, hreads⟩ := (Build.separated_reads_back hlibrary hclosed Grammar.isGuarded_empty
    numberSyntax (o := .text ",") fun _ => rfl).exists_ok
  obtain ⟨w, n, hw, hchars, hn⟩ := hreads one [more] [',', ' ', 'x'] ends v rfl
  exact ⟨policy, id, g, hbuilt, w, n, hw, hchars, fun fuel hfuel => hn fuel hfuel _ rfl⟩

end Descent
