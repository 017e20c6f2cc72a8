import Descent.Proofs.Counterpart.Run
import Descent.Proofs.WholeInput.Anchor

/-!
# Rules that are built alike

What is built twice, in one grammar or in two, has other numbers each time, and there may be other rules around it. What
it has in common is told by following references from both at once: rules are *alike* if they are of one kind and have
rules in the same places that are alike (`Grammar.Alike`). References go in circles, so this is a greatest relation, not
an inductive one.

Alike rules are counterparts without any layers, so they run in step. Here is how such rules come about: **a combinator
that is given alike operands builds alike rules** (`Build.add_alike` and what follows it), in grammars whose derivations
meet no cycle and meet none afterwards. Nothing that was there before is changed by it, and all that was known of its
expectations is still right.
-/

namespace Descent

variable {κ : Type}

/-! ## 1. Alike rules -/

/-- Rules that cannot be told apart, wherever references lead from both. -/
def Grammar.Alike (g g' : Grammar κ) (p q : RuleId) : Prop :=
  ∃ ρ : RuleId → RuleId → Prop, (∀ p q, ρ p q → g.Mirrors g' ρ p q) ∧ ρ p q

namespace Grammar

variable {g g' G G' : Grammar κ} {ρ ρ' : RuleId → RuleId → Prop} {p q : RuleId}

theorem Mirrors.mono (h : g.Mirrors g' ρ p q) (hρ : ∀ p q, ρ p q → ρ' p q) : g.Mirrors g' ρ' p q := by
  obtain ⟨hr, hr', halike, hlabel⟩ := h
  exact ⟨hr, hr', halike.mono hρ (rel_mono hρ), hlabel⟩

theorem Alike.mirrors (h : g.Alike g' p q) : g.Mirrors g' (g.Alike g') p q := by
  obtain ⟨ρ, hρ, hpq⟩ := h
  exact (hρ p q hpq).mono fun p q hpq => ⟨ρ, hρ, hpq⟩

/-- Rules of one kind are alike if those in the same places are. -/
theorem Alike.intro (h : g.Mirrors g' (g.Alike g') p q) : g.Alike g' p q := by
  refine ⟨fun p' q' => g.Mirrors g' (g.Alike g') p' q', fun p' q' h => ?_, h⟩
  exact h.mono fun _ _ hpq => hpq.mirrors

theorem Alike.lt_size (h : g.Alike g' p q) : p < g.rules.size := by
  obtain ⟨hr, -⟩ := h.mirrors
  exact lt_size_of_rule? hr

theorem Alike.lt_size' (h : g.Alike g' p q) : q < g'.rules.size := by
  obtain ⟨-, hr', -⟩ := h.mirrors
  exact lt_size_of_rule? hr'

/-- A rule is like itself. -/
theorem Alike.refl (hg : g.IsLibrary) (hclosed : g.IsClosed) (hp : p < g.rules.size) : g.Alike g p p :=
  ⟨_, mirrors_self hg hclosed, rfl, hp⟩

/-- Alike rules are alike in grammars that have grown. -/
theorem Alike.grow (h : g.Alike g' p q) (hg : g.IsPartOf G) (hg' : g'.IsPartOf G') : G.Alike G' p q := by
  obtain ⟨ρ, hρ, hpq⟩ := h
  refine ⟨ρ, fun p q hpq => ?_, hpq⟩
  obtain ⟨hr, hr', halike, hlabel⟩ := hρ p q hpq
  exact ⟨hg p _ hr, hg' q _ hr', halike, hlabel⟩

theorem rel_grow {P P' : Option RuleId} (h : Option.Rel (g.Alike g') P P') (hg : g.IsPartOf G) (hg' : g'.IsPartOf G') :
    Option.Rel (G.Alike G') P P' :=
  rel_mono (fun _ _ hpq => Alike.grow hpq hg hg') P P' h

/-- Alike rules are counterparts, none of which is a layer. -/
def alikeRules (g g' : Grammar κ) : Counterpart g g' := .ofMirrors fun _ _ h => Alike.mirrors h

end Grammar

/-! ## 2. Grammars that grow -/

section Grow

variable {g G : Grammar κ} {label : Option String} {body : Body κ}

/-- A rule that refers to rules that are there closes no cycle. -/
theorem Grammar.IsStraight.push (hg : g.IsStraight) (hbody : body.IsLibrary)
    (hrefs : ∀ q ∈ body.refs, q < g.rules.size) (label : Option String) : (g.push label body).IsStraight := by
  obtain ⟨rank, hbound, hrank⟩ := hg.exists_rank
  refine .of_rank (hg.library.push hbody label) (hg.closed.push hrefs label)
    (fun id => if id < g.rules.size then rank id else g.rules.size + 1) fun id _ rule hr q hq => ?_
  rcases rule?_push_cases hr with hr | ⟨rfl, rfl⟩
  · have hb := hg.library id rule hr
    have hread : q ∈ rule.body.reads g := Body.reads_congr hb _ g ▸ hq
    have hlt := hg.closed id rule hr q (Body.reads_subset_refs hb g hread)
    rw [if_pos hlt, if_pos (lt_size_of_rule? hr)]
    exact hrank id q ⟨rule, hr, hread⟩
  · have hlt := hrefs q (Body.reads_subset_refs hbody _ hq)
    rw [if_pos hlt, if_neg (Nat.lt_irrefl _)]
    exact Nat.lt_succ_of_le (hbound q)

variable [DecidableEq κ]

/-- What a rule shows, it shows in a grammar that has grown. -/
theorem Grammar.Shows.grow {id : RuleId} {e : Expectation κ} (h : g.Shows id e) (hpart : g.IsPartOf G) :
    G.Shows id e := by
  induction h with
  | rule hr hb _ ih => exact .rule (hpart _ _ hr) hb fun q hq => ih q (Body.reads_congr hb G g ▸ hq)

/-- What is kept of a grammar is right after it has grown. -/
theorem Derivation.Sure.grow {d : Derivation κ} (hd : d.Sure g) (hpart : g.IsPartOf G) : d.Sure G :=
  ⟨hd.toAtRest, fun id e h => (hd.known id e h).grow hpart⟩

end Grow

/-! ## 3. Building in step -/

/-- Two grammars that have grown, and whose derivations still meet no cycle. -/
structure Grammar.GrowBoth (g g' G G' : Grammar κ) : Prop where
  part : g.IsPartOf G
  part' : g'.IsPartOf G'
  straight : G.IsStraight
  straight' : G'.IsStraight

theorem Grammar.GrowBoth.trans {g g' g₁ g₁' g₂ g₂' : Grammar κ} (h : g.GrowBoth g' g₁ g₁')
    (h' : g₁.GrowBoth g₁' g₂ g₂') : g.GrowBoth g' g₂ g₂' :=
  ⟨h.part.trans h'.part, h.part'.trans h'.part', h'.straight, h'.straight'⟩

/-- Operands that are the same, but for the places of rules. They can stand for rules. -/
inductive Operand.Alike (g g' : Grammar κ) : Operand κ → Operand κ → Prop
  | rule {p q : RuleId} (h : g.Alike g' p q) : Alike g g' (.rule p) (.rule q)
  | matcher (m : Matcher κ) : Alike g g' (.matcher m) (.matcher m)
  | text (text : String) : Alike g g' (.text text) (.text text)

/-- Operands that are the same, but for the places of rules. They can stand for whitespace policies. -/
inductive Operand.AlikeAsPolicy (g g' : Grammar κ) : Operand κ → Operand κ → Prop
  | absent : AlikeAsPolicy g g' .absent .absent
  | rule {o o' : Operand κ} (h : o.Alike g g' o') : AlikeAsPolicy g g' o o'

namespace Build

variable {g g' : Grammar κ} {p q : RuleId}

/-- Rules of one kind that are added to two grammars, with alike rules in the same places, are alike. -/
theorem add_alike (hg : g.IsStraight) (hg' : g'.IsStraight) {body body' : Body κ}
    (h : body.Alike (g.Alike g') (Option.Rel (g.Alike g')) body') (label label' : Option String)
    (hlabel : body = .placeholder none → label = label') :
    EnsuresBoth (add label body) g (add label' body') g' (fun p G q G' => g.GrowBoth g' G G' ∧ G.Alike G' p q)
      fun _ _ => False := by
  have hrefs := h.refs id
  have straight : (g.push label body).IsStraight := by
    refine hg.push h.isLibrary (fun q hq => ?_) label
    obtain ⟨q', -, hq⟩ := exists_of_forall₂_right hrefs.flip hq
    exact Grammar.Alike.lt_size hq
  have straight' : (g'.push label' body').IsStraight := by
    refine hg'.push h.isLibrary' (fun q hq => ?_) label'
    obtain ⟨q', -, hq⟩ := exists_of_forall₂_right hrefs hq
    exact hq.lt_size'
  have grown (p q : RuleId) (h : g.Alike g' p q) : (g.push label body).Alike (g'.push label' body') p q :=
    h.grow Grammar.isPartOf_push Grammar.isPartOf_push
  refine ⟨⟨Grammar.isPartOf_push, Grammar.isPartOf_push, straight, straight'⟩, .intro ?_⟩
  exact ⟨Grammar.rule?_push_size, Grammar.rule?_push_size, h.mono grown (rel_mono grown), hlabel⟩

theorem map_alike (hg : g.IsStraight) (hg' : g'.IsStraight) (h : g.Alike g' p q) (f : Transform κ) :
    EnsuresBoth (map p f) g (map q f) g' (fun p G q G' => g.GrowBoth g' G G' ∧ G.Alike G' p q) fun _ _ => False :=
  show EnsuresBoth (add (g.label p) (.map p f)) g (add (g'.label q) (.map q f)) g' _ _ from
    add_alike hg hg' (.map h f) _ _ nofun

variable [CustomMatcher κ]

theorem skipping_alike (hg : g.IsStraight) (hg' : g'.IsStraight) (h : g.Alike g' p q) :
    EnsuresBoth (skipping (.rule p)) g (skipping (.rule q)) g'
      (fun p G q G' => g.GrowBoth g' G G' ∧ G.Alike G' p q) fun _ _ => False :=
  show EnsuresBoth (add (g.label p) (.skipping p)) g (add (g'.label q) (.skipping q)) g' _ _ from
    add_alike hg hg' (.skipping h) _ _ nofun

theorem asRule_alike (hg : g.IsStraight) (hg' : g'.IsStraight) {o o' : Operand κ} (h : o.Alike g g' o') :
    EnsuresBoth (asRule o) g (asRule o') g' (fun p G q G' => g.GrowBoth g' G G' ∧ G.Alike G' p q)
      fun _ _ => False := by
  cases h with
  | rule h => exact ⟨⟨.refl g, .refl g', hg, hg'⟩, h⟩
  | matcher m => exact add_alike hg hg' (.token m none) _ _ nofun
  | text text => exact add_alike hg hg' (.token (.literal text true) none) _ _ nofun

theorem policy_alike (hg : g.IsStraight) (hg' : g'.IsStraight) {o o' : Operand κ} (h : o.AlikeAsPolicy g g' o') :
    EnsuresBoth (policy o) g (policy o') g'
      (fun P G P' G' => g.GrowBoth g' G G' ∧ Option.Rel (G.Alike G') P P') fun _ _ => False := by
  have ignored (m : Matcher κ) : EnsuresBoth (do return some (← ignore (.matcher m))) g
      (do return some (← ignore (.matcher m))) g'
      (fun P G P' G' => g.GrowBoth g' G G' ∧ Option.Rel (G.Alike G') P P') fun _ _ => False := by
    refine EnsuresBoth.bind (add_alike hg hg' (.token m (some fun _ => .ok .none)) _ _ nofun) ?_
    exact fun p G q G' h => ⟨h.1, .some h.2⟩
  cases h with
  | absent => exact ⟨⟨.refl g, .refl g', hg, hg'⟩, .none⟩
  | rule h =>
    cases h with
    | rule h => exact ⟨⟨.refl g, .refl g', hg, hg'⟩, .some h⟩
    | matcher m => cases m <;> exact ignored _
    | text text => exact ignored (.literal text true)

end Build

/-- Alike rules are anchored alike. -/
theorem Session.anchored_alike [CustomMatcher κ] {g g' : Grammar κ} (hg : g.IsStraight) (hg' : g'.IsStraight)
    {top top' : RuleId} (h : g.Alike g' top top') :
    EnsuresBoth (anchored top) g (anchored top') g' (fun p G q G' => g.GrowBoth g' G G' ∧ G.Alike G' p q)
      fun _ _ => False := by
  rw [anchored, anchored]
  refine (Build.skipping_alike hg hg' h).bind ?_
  rintro body g₁ body' g₁' ⟨h₁, hbody⟩
  refine (Build.add_alike h₁.straight h₁.straight' (.token .endOfInput none) _ _ (by simp)).bind ?_
  rintro token g₂ token' g₂' ⟨h₂, htoken⟩
  refine (Build.skipping_alike h₂.straight h₂.straight' htoken).bind ?_
  rintro last g₃ last' g₃' ⟨h₃, hlast⟩
  have hbody : g₃.Alike g₃' body body' := hbody.grow (h₂.trans h₃).part (h₂.trans h₃).part'
  refine (Build.add_alike h₃.straight h₃.straight' (.sequence (.cons hbody (.cons hlast .nil))) none none
    (by simp)).bind ?_
  rintro all g₄ all' g₄' ⟨h₄, hall⟩
  refine (Build.map_alike h₄.straight h₄.straight' hall (Value.element 0)).imp ?_ fun _ _ h => h
  rintro anchor g₅ anchor' g₅' ⟨h₅, hanchor⟩
  exact ⟨h₁.trans (h₂.trans (h₃.trans (h₄.trans h₅))), hanchor⟩

end Descent
