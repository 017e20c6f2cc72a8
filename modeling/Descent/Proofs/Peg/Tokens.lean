import Descent.Matcher.Fixed
import Descent.Proofs.Counterpart.Run
import Descent.Proofs.Peg.Separated
import Descent.Proofs.WholeInput.Outcome
import Mathlib.Data.List.SplitBy

/-!
# A class and its complement tokenise everything

Every character is in a class or in its complement, and in one of them only. So every text falls into runs of the one
and of the other, in one way. The rules for a run of a class, a run of its complement, and any number of either, read
every source as a whole, and **the values are these runs in order** (`Session.tokenises_everything`).

A text is cut up where neighbours are of different kinds (`CharClass.runs`), and nothing else is a decomposition into
parts of one kind each with neighbours of opposite kinds (`CharClass.tokenises_iff`). What the rules do with a part is a
single step (`Grammar.ReadsTokens.choice_finds`), and the rounds are an induction on the parts. All of it is evaluated
with as much fuel as the rules are deep, so that the runs of a request have enough.
-/

namespace Descent

variable {κ : Type}

/-! ## 1. Runs of one kind -/

namespace CharClass

/-- Whether two characters are both in a class or both not. -/
def alike (k : CharClass) (c d : Char) : Bool := k.contains c == k.contains d

/-- A text cut up where neighbours are not both in a class or both not. -/
def runs (k : CharClass) (chars : List Char) : List (List Char) := chars.splitBy k.alike

/-- A part of a text that is in a class as a whole, or outside of it. -/
def IsOfKind (k : CharClass) (inside : Bool) (part : List Char) : Prop := ∀ c ∈ part, k.contains c = inside

/-- A decomposition of a text into parts of one kind each, with neighbours of opposite kinds. -/
structure Tokenises (k : CharClass) (parts : List (List Char)) (chars : List Char) : Prop where
  whole : parts.flatten = chars
  ne_nil : ∀ part ∈ parts, part ≠ []
  kind : ∀ part ∈ parts, ∃ inside, k.IsOfKind inside part
  opposite : parts.IsChain fun part next => ∀ c ∈ part, ∀ d ∈ next, k.contains c = !k.contains d

variable {k : CharClass} {part rest chars : List Char} {parts : List (List Char)} {inside : Bool}

theorem alike_iff {c d : Char} : k.alike c d = true ↔ k.contains c = k.contains d := beq_iff_eq

/-- A row of characters that are like their neighbours is of one kind. -/
theorem exists_isOfKind_iff : (∃ inside, k.IsOfKind inside part) ↔ part.IsChain fun c d => k.alike c d := by
  constructor
  · rintro ⟨inside, h⟩
    refine (List.pairwise_of_forall_mem_list fun c hc d hd => ?_).isChain
    exact alike_iff.mpr ((h c hc).trans (h d hd).symm)
  · intro h
    induction part with
    | nil => exact ⟨true, nofun⟩
    | cons c part ih =>
      refine ⟨k.contains c, List.forall_mem_cons.mpr ⟨rfl, ?_⟩⟩
      cases part with
      | nil => exact nofun
      | cons d part =>
        obtain ⟨hcd, hpart⟩ := List.isChain_cons_cons.mp h
        obtain ⟨inside, hinside⟩ := ih hpart
        rw [alike_iff.mp hcd, hinside d List.mem_cons_self]
        exact hinside

/-- **There is one such decomposition**, the one into maximal runs. -/
theorem tokenises_iff : k.Tokenises parts chars ↔ parts = k.runs chars := by
  rw [eq_comm, runs, List.splitBy_eq_iff]
  constructor
  · intro h
    have like := fun part hpart => exists_isOfKind_iff.mp (h.kind part hpart)
    refine ⟨h.whole.symm, fun hnil => h.ne_nil [] hnil rfl, like, ?_⟩
    refine h.opposite.imp_of_mem_imp fun part next hpart hnext hopposite => ?_
    have ha := h.ne_nil part hpart
    have hb := h.ne_nil next hnext
    refine ⟨ha, hb, ?_⟩
    rw [alike, hopposite _ (List.getLast_mem ha) _ (List.head_mem hb)]
    simp
  · rintro ⟨hwhole, hnil, hlike, hopposite⟩
    have kind := fun part hpart => exists_isOfKind_iff.mpr (hlike part hpart)
    refine ⟨hwhole.symm, fun part hpart h => hnil (h ▸ hpart), kind, ?_⟩
    refine hopposite.imp_of_mem_imp fun part next hpart hnext ⟨ha, hb, hends⟩ c hc d hd => ?_
    obtain ⟨inside, hinside⟩ := kind part hpart
    obtain ⟨inside', hinside'⟩ := kind next hnext
    rw [alike, hinside _ (List.getLast_mem ha), hinside' _ (List.head_mem hb)] at hends
    rw [hinside c hc, hinside' d hd]
    exact Bool.eq_not.mpr (beq_eq_false_iff_ne.mp hends)

namespace Tokenises

theorem nil (h : k.Tokenises [] chars) : chars = [] := h.whole.symm

theorem tail (h : k.Tokenises (part :: parts) chars) : k.Tokenises parts parts.flatten where
  whole := rfl
  ne_nil := (List.forall_mem_cons.mp h.ne_nil).2
  kind := (List.forall_mem_cons.mp h.kind).2
  opposite := h.opposite.tail

/-- A text begins with its first part, and does not go on with more of that kind. -/
theorem first (h : k.Tokenises (part :: parts) chars) :
    chars = part ++ parts.flatten ∧ part ≠ [] ∧
      ∃ inside, k.IsOfKind inside part ∧ ∀ d ∈ parts.flatten.head?, k.contains d = !inside := by
  have hne := h.ne_nil part List.mem_cons_self
  obtain ⟨inside, hinside⟩ := h.kind part List.mem_cons_self
  refine ⟨h.whole.symm, hne, inside, hinside, fun d hd => ?_⟩
  cases parts with
  | nil => cases hd
  | cons next parts =>
    have hnext := h.ne_nil next (List.mem_cons_of_mem _ List.mem_cons_self)
    rw [List.flatten_cons, List.head?_append_of_ne_nil _ hnext] at hd
    have hopposite := (List.isChain_cons_cons.mp h.opposite).1 _ (List.head_mem hne) d (List.mem_of_mem_head? hd)
    rw [hinside _ (List.head_mem hne)] at hopposite
    rw [hopposite, Bool.not_not]

end Tokenises

end CharClass

/-! ## 2. What the rules find -/

section Find

variable [CustomMatcher κ] {g : Grammar κ} {P : Option RuleId} {k : CharClass} {v : View} {part rest : List Char}

namespace Grammar.HasBody

variable {id : RuleId}

theorem eval_eq {b : Body κ} (hb : g.HasBody id b) (h : b ≠ .placeholder none) (fuel : Nat) :
    g.eval (fuel + 1) P id v = Eval.body (g.eval fuel) P v b := by
  obtain ⟨label, hr⟩ := hb
  exact eval_rule hr h

/-- The token of a class finds the run that a window begins with. -/
theorem token_finds (hb : g.HasBody id (.token (.many (.charClass k)) none)) (hpart : k.IsOfKind true part)
    (hne : part ≠ []) (hrest : k.StopsAt rest) (hv : v.chars = part ++ rest) (fuel : Nat) :
    ∃ w, g.eval (fuel + 1) P id v = .ok (.parsed (.str (String.ofList part)) w) ∧ v.Past part w ∧ w.chars = rest := by
  have width : (Matcher.many (.charClass k) : Matcher κ).width? v.chars = .ok (some part.length) := by
    show Except.ok (k.runWidth? v.chars) = _
    rw [hv, CharClass.runWidth?_append hpart hne hrest]
  obtain ⟨w, hmatched, hpast, hw⟩ := Matcher.matched_of_width rfl width hv .ok rfl
  refine ⟨w, ?_, hpast, hw⟩
  have alone : (Body.token (.many (.charClass k)) none : Body κ).alone? v = _ := congrArg some hmatched
  rw [hb.eval_eq (by simp), Eval.body_alone alone]
  rfl

theorem token_finds_none (hb : g.HasBody id (.token (.many (.charClass k)) none)) (hv : k.StopsAt v.chars)
    (fuel : Nat) : g.eval (fuel + 1) P id v = .ok (.failed v) := by
  have width : (Matcher.many (.charClass k) : Matcher κ).width? v.chars = .ok none :=
    congrArg Except.ok hv.runWidth?_eq_none
  have alone : (Body.token (.many (.charClass k)) none : Body κ).alone? v = _ :=
    congrArg some (Matcher.matched_of_no_width rfl width _)
  rw [hb.eval_eq (by simp), Eval.body_alone alone]
  rfl

end Grammar.HasBody

/-- A rule for a run of a class or of its complement, and one for any number of these. -/
structure Grammar.ReadsTokens (g : Grammar κ) (k : CharClass) (choice id : RuleId) : Prop where
  choice_body : ∃ inside outside, g.HasBody inside (.token (.many (.charClass k)) none) ∧
    g.HasBody outside (.token (.many (.charClass k.complement)) none) ∧ g.HasBody choice (.either [inside, outside])
  all_body : g.HasBody id (.repeated choice 0 choice)

/-- What is found for parts of a text. -/
def tokenValues (parts : List (List Char)) : List (Value κ) := parts.map fun part => .str (String.ofList part)

namespace Grammar.ReadsTokens

variable {choice id : RuleId}

omit [CustomMatcher κ] in
theorem of_isPartOf {g' : Grammar κ} (h : g.ReadsTokens k choice id) (hpart : g.IsPartOf g') :
    g'.ReadsTokens k choice id := by
  obtain ⟨inside, outside, hinside, houtside, hchoice⟩ := h.choice_body
  exact ⟨⟨inside, outside, hpart.hasBody hinside, hpart.hasBody houtside, hpart.hasBody hchoice⟩,
    hpart.hasBody h.all_body⟩

/-- **The part that a window begins with is found**, whichever kind it is of. -/
theorem choice_finds (h : g.ReadsTokens k choice id) {inside : Bool} (hpart : k.IsOfKind inside part) (hne : part ≠ [])
    (hrest : ∀ d ∈ rest.head?, k.contains d = !inside) (hv : v.chars = part ++ rest) (fuel : Nat) :
    ∃ w, g.eval (fuel + 2) P choice v = .ok (.parsed (.str (String.ofList part)) w) ∧ v.Past part w ∧
      w.chars = rest := by
  obtain ⟨one, other, hone, hother, hchoice⟩ := h.choice_body
  have hchoice : g.eval (fuel + 2) P choice v = Eval.branches (g.eval (fuel + 1)) P v [one, other] v :=
    hchoice.eval_eq (by simp) (fuel + 1)
  rw [hchoice]
  cases inside with
  | true =>
    obtain ⟨w, hw, hpast, hchars⟩ := hone.token_finds hpart hne hrest hv fuel
    exact ⟨w, except_bind_of_ok hw, hpast, hchars⟩
  | false =>
    have hnone : k.StopsAt v.chars := by
      rw [hv]
      exact CharClass.StopsAt.append_of_ne_nil (fun c hc => hpart c (List.mem_of_mem_head? hc)) hne rest
    have hcomplement : k.complement.IsOfKind true part := fun c hc => by simp [hpart c hc]
    have hstops : k.complement.StopsAt rest := fun d hd => by simp [hrest d hd]
    obtain ⟨w, hw, hpast, hchars⟩ := hother.token_finds hcomplement hne hstops hv fuel
    exact ⟨w, (except_bind_of_ok (hone.token_finds_none hnone fuel)).trans (except_bind_of_ok hw), hpast, hchars⟩

theorem choice_finds_none (h : g.ReadsTokens k choice id) (hv : v.chars = []) (fuel : Nat) :
    g.eval (fuel + 2) P choice v = .ok (.failed v) := by
  obtain ⟨one, other, hone, hother, hchoice⟩ := h.choice_body
  have stops (k : CharClass) : k.StopsAt v.chars := by
    rw [hv]
    exact nofun
  rw [hchoice.eval_eq (by simp)]
  exact (except_bind_of_ok (hone.token_finds_none (stops k) fuel)).trans
    (except_bind_of_ok (hother.token_finds_none (stops k.complement) fuel))

/-- The rounds of a repetition find the parts of a text, one in each round. -/
theorem rounds_find (h : g.ReadsTokens k choice id) {parts : List (List Char)} (hv : k.Tokenises parts v.chars)
    (fuel : Nat) :
    ∃ o w, g.eval (fuel + 2) P choice v = .ok o ∧ w.chars = [] ∧ ∀ values n, v.length < n →
      Eval.rounds (g.eval (fuel + 2)) P choice 0 n values v o =
        .ok (.parsed (.list (values ++ tokenValues parts)) w) := by
  induction parts generalizing v with
  | nil =>
    refine ⟨.failed v, v, h.choice_finds_none hv.nil fuel, hv.nil, fun values n hn => ?_⟩
    obtain ⟨n, rfl⟩ := Nat.exists_eq_add_of_lt hn
    have hclosing : Ending.closing 0 values v (.failed v) = .parsed (.list values) v :=
      if_neg (Int.not_lt.mpr (Int.natCast_nonneg _))
    rw [tokenValues, List.map_nil, List.append_nil, ← hclosing]
    rfl
  | cons part parts ih =>
    obtain ⟨hchars, hne, inside, hinside, hnext⟩ := hv.first
    obtain ⟨u, hu, hpast, hrest⟩ := h.choice_finds (P := P) hinside hne hnext hchars fuel
    obtain ⟨o, w, ho, hw, hrounds⟩ := ih (v := u) (hrest ▸ hv.tail)
    refine ⟨_, w, hu, hw, fun values n hn => ?_⟩
    have hlength := hpast.length_eq
    have hpos := List.length_pos_iff.mpr hne
    have hmoved : u.start ≠ v.start := by
      rw [hpast.start_eq]
      omega
    cases n with
    | zero => exact absurd hn (Nat.not_lt_zero _)
    | succ n =>
      have hrounds := hrounds (values ++ [.str (String.ofList part)]) n (by omega)
      rw [List.append_assoc] at hrounds
      exact (if_neg hmoved).trans ((except_bind_of_ok ho).trans hrounds)

/-- All parts of a text are found, and nothing is left. -/
theorem all_find (h : g.ReadsTokens k choice id) {parts : List (List Char)} (hv : k.Tokenises parts v.chars)
    (fuel : Nat) :
    ∃ w, g.eval (fuel + 3) P id v = .ok (.parsed (.list (tokenValues parts)) w) ∧ w.chars = [] := by
  obtain ⟨o, w, ho, hw, hrounds⟩ := h.rounds_find hv fuel
  refine ⟨w, ?_, hw⟩
  rw [h.all_body.eval_eq (by simp)]
  exact (except_bind_of_ok ho).trans (hrounds [] _ (Nat.lt_succ_self _))

end Grammar.ReadsTokens

end Find

/-! ## 3. Requests -/

namespace Build

variable [CustomMatcher κ] {g : Grammar κ} {E : Fault → Grammar κ → Prop}

/-- Any number of runs of a class and of its complement. -/
def tokens (k : CharClass) : Build κ RuleId := do
  let inside ← token (.matcher (.many (.charClass k))) none
  let outside ← token (.matcher (.many (.charClass k.complement))) none
  let choice ← either [.rule inside, .rule outside]
  zeroOrMore (.rule choice)

theorem tokens_ensures (k : CharClass) :
    Ensures (tokens k) g (fun id g' => g.Extends g' ∧ ∃ choice, g'.ReadsTokens k choice id) E := by
  rw [tokens, ensures_bind]
  refine ensures_token_extends (fun _ => rfl) fun inside g₁ h₁ hinside => ?_
  rw [ensures_bind]
  refine ensures_token_extends (fun _ => rfl) fun outside g₂ h₂ houtside => ?_
  have hinside := h₂.part.hasBody hinside
  have branches : ∀ q ∈ [inside, outside], q < g₂.rules.size :=
    List.forall_mem_cons.mpr ⟨hinside.lt_size, List.forall_mem_singleton.mpr houtside.lt_size⟩
  rw [ensures_bind]
  show Ensures (add none (.either [inside, outside])) g₂ _ E
  refine ensures_add_extends (.either branches) fun choice g₃ h₃ hchoice => ?_
  show Ensures (add none (.repeated choice 0 choice)) g₃ _ E
  refine ensures_add_extends (.repeated 0 hchoice.lt_size hchoice.lt_size) fun id g₄ h₄ hid => ?_
  have h := h₃.trans h₄
  exact ⟨h₁.trans (h₂.trans h), choice,
    ⟨inside, outside, h.part.hasBody hinside, h.part.hasBody houtside, h₄.part.hasBody hchoice⟩, hid⟩

end Build

namespace Session

variable [CustomMatcher κ] {E : Fault → Grammar κ → Prop}

/-- The rules of an anchor are made. -/
theorem anchored_extends {g : Grammar κ} {top : RuleId} (htop : top < g.rules.size) :
    Ensures (anchored top) g (fun _ g' => g.Extends g') E := by
  rw [anchored, ensures_bind]
  refine Build.ensures_skipping_extends htop fun body g₁ h₁ hbody => ?_
  rw [ensures_bind]
  refine Build.ensures_token_extends (fun _ => rfl) fun token g₂ h₂ htoken => ?_
  rw [ensures_bind]
  refine Build.ensures_skipping_extends htoken.lt_size fun last g₃ h₃ hlast => ?_
  rw [ensures_bind]
  have parts : ∀ q ∈ [body, last], q < g₃.rules.size :=
    List.forall_mem_cons.mpr ⟨(h₂.trans h₃).part.lt_size hbody.lt_size, List.forall_mem_singleton.mpr hlast.lt_size⟩
  show Ensures (Build.add none (.sequence [body, last])) g₃ _ E
  refine Build.ensures_add_extends (.sequence parts) fun all g₄ h₄ hall => ?_
  exact Build.ensures_map_extends hall.lt_size fun anchor g₅ h₅ _ => h₁.trans (h₂.trans (h₃.trans (h₄.trans h₅)))

/-- A request for a rule under the context's own policy adds an anchor to the grammar. -/
theorem prepared_extends {s : Session κ} {id : RuleId} (hid : id < s.grammar.rules.size) :
    Ensures (prepared (.rule id) .absent) s (fun _ s' => s.grammar.Extends s'.grammar) fun _ _ => False := by
  rw [prepared, Build.asRule, ensures_bind, ensures_building, ensures_pure, ensures_bind, modifyContext, ensures_modify,
    ensures_bind, chosenPolicy, ensures_bind, ensures_get, ensures_pure, ensures_bind, ensures_building]
  exact anchored_extends hid

variable [DecidableEq κ]

/-- A rule that takes a whole source without a policy gives its value to a request. -/
theorem parseToEnd_value (settings : Settings) {source : Source} {s : Session κ} {id : RuleId} {x : Value κ}
    (hid : id < s.grammar.rules.size) (hs : s.context.whitespace = none)
    (hrun : ∀ g, s.grammar.Extends g → ∀ u : ParseState κ, u.context.whitespace = none →
      ∃ w t, g.parse (runDepth - 3) id (.ofSource source) u = .ok (.parsed x w) t ∧ w.isEmpty = true) :
    ∃ u, parseToEnd settings (.rule id) source .absent s = .ok x u := by
  obtain ⟨p, s', hp, hgrows⟩ := (prepared_extends hid).exists_ok
  have hprepares := (prepared_ensures _ _ _).ok hp
  have hpolicy : (p.start s').context.whitespace = none := (hprepares.own rfl).trans hs
  obtain ⟨w, t, ht, hw⟩ := hrun s'.grammar hgrows (p.start s') hpolicy
  have hpolicy' : t.context.whitespace = none :=
    ((s'.grammar.parse_restored _ id (.ofSource source) (p.start s')).ok ht).whitespace.trans hpolicy
  -- there is no policy, so that nothing is skipped
  have skip (v : View) (u : ParseState κ) (hu : u.context.whitespace = none) :
      Parse.skip (s'.grammar.parse (runDepth - 3)) v u = .ok v u := by
    rw [← exec_skip (g := s'.grammar)]
    exact exec_skip_of_none hu
  have reads : Parse.ReadsWhole (s'.grammar.parse (runDepth - 3)) id (.ofSource source) (p.start s') x t :=
    ⟨_, _, w, t, w, skip _ _ hpolicy, ht, skip w t hpolicy', hw⟩
  rw [← hprepares.top id rfl] at reads
  obtain ⟨w', hanchor⟩ := hprepares.anchor.parsed_iff.mpr reads
  exact (parseToEnd_concludes settings source hp).value_iff.mpr ⟨w', t, hanchor⟩

/-- **A class and its complement tokenise everything.** Whatever the class is, and whatever the source, a request for
any number of runs of the class and of its complement gives a list of texts, without a policy: the one decomposition of
the source into parts of one kind each, none of them empty, with neighbours of opposite kinds. -/
theorem tokenises_everything (settings : Settings) (k : CharClass) (source : Source) (s : Session κ)
    (hg : s.grammar.IsLibrary) (hclosed : s.grammar.IsClosed) (hguarded : s.grammar.IsGuarded)
    (hs : s.context.whitespace = none) :
    ∃ parts u,
      (do
        let id ← building (Build.tokens k)
        parseToEnd settings (.rule id) source .absent) s = .ok (.list (tokenValues parts)) u ∧
      k.Tokenises parts source.chars ∧ ∀ parts', k.Tokenises parts' source.chars → parts' = parts := by
  obtain ⟨id, g, htokens, hextends, choice, hreads⟩ := (Build.tokens_ensures k (g := s.grammar)).exists_ok
  have hbuilt : building (Build.tokens k) s = .ok id { s with grammar := g } := by rw [building, htokens]
  have hparts : k.Tokenises (k.runs source.chars) (View.ofSource source).chars := by
    rw [View.chars_ofSource, CharClass.tokenises_iff]
  have run (g' : Grammar κ) (hg' : g.Extends g') (u : ParseState κ) (hu : u.context.whitespace = none) :
      ∃ w t, g'.parse (runDepth - 3) id (.ofSource source) u =
        .ok (.parsed (.list (tokenValues (k.runs source.chars))) w) t ∧ w.isEmpty = true := by
    have hnone : g'.Has none := nofun
    have hreads' := hreads.of_isPartOf hg'.part
    have hextends' := hextends.trans hg'
    obtain ⟨w, hfound, hw⟩ := hreads'.all_find (P := none) hparts (runDepth - 6)
    obtain ⟨t, ht⟩ := Grammar.parses_of_eval (hextends'.library hg) (hextends'.closed hclosed)
      (hextends'.guarded hguarded) hnone hreads'.all_body.lt_size hfound u hu
    exact ⟨w, t, ht, View.isEmpty_iff.mpr hw⟩
  obtain ⟨u, hu⟩ := parseToEnd_value settings (s := { s with grammar := g }) hreads.all_body.lt_size hs run
  refine ⟨k.runs source.chars, u, ?_, CharClass.tokenises_iff.mpr rfl, fun parts h => CharClass.tokenises_iff.mp h⟩
  rw [bind_apply_of_ok hbuilt, hu]

/-- Digits and what is between them. -/
theorem tokenises_everything_digits :
    let s : Session FixedMatcher := .fresh
    s.grammar.IsLibrary ∧ s.grammar.IsClosed ∧ s.grammar.IsGuarded ∧ s.context.whitespace = none ∧ ∃ u,
      (do
        let id ← building (Build.tokens .digits)
        parseToEnd .default (.rule id) ⟨0, ['a', '1', '2', ' ', 'b']⟩ .absent) s =
          .ok (.list [.str "a", .str "12", .str " b"]) u := by
  intro s
  have hlibrary : s.grammar.IsLibrary := by decide
  have hclosed : s.grammar.IsClosed := by decide
  refine ⟨hlibrary, hclosed, Grammar.isGuarded_empty, rfl, ?_⟩
  obtain ⟨parts, u, hu, -, hunique⟩ := tokenises_everything .default .digits ⟨0, ['a', '1', '2', ' ', 'b']⟩ s hlibrary
    hclosed Grammar.isGuarded_empty rfl
  have hparts := hunique [['a'], ['1', '2'], [' ', 'b']] (CharClass.tokenises_iff.mpr (by decide))
  subst hparts
  exact ⟨u, hu⟩

end Session

end Descent
