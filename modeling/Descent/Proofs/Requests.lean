import Descent.Proofs.Ensures
import Descent.Session

/-!
# Requests and their parts

A request is put together from parts that work on parts of the session: the grammar grows, a rule is run, a message is
logged. Each lemma says what such a part ensures of the session in terms of what it ensures of its own state, so that
a law about a request is a walk over its `do` block.
-/

namespace Descent

variable {κ α : Type}

/-- The problem that a run without a result is to a request. -/
def Stop.problem : Stop → Problem
  | .fault e => .fault e
  | .unfinished => .unfinished

/-- Whether a request was rejected, and with what report, can be decided. -/
instance (why : Problem) (p : ParseError → Prop) [DecidablePred p] : Decidable (∃ e, why = .rejected e ∧ p e) :=
  match why with
  | .rejected e => decidable_of_iff (p e) (by simp)
  | .fault e => isFalse (by simp)
  | .unfinished => isFalse (by simp)

namespace Session

variable {s : Session κ} {Q : α → Session κ → Prop} {E : Problem → Session κ → Prop}

theorem ensures_building {x : Build κ α} :
    Ensures (building x) s Q E ↔ Ensures x s.grammar (fun a g => Q a { s with grammar := g })
      (fun e g => E (.fault e) { s with grammar := g }) := by
  unfold Ensures building
  cases x s.grammar <;> rfl

theorem ensures_parsing {x : Parse κ α} :
    Ensures (parsing x) s Q E ↔ Ensures x ⟨s.derivation, s.context⟩
      (fun a t => Q a { s with derivation := t.derivation, context := t.context })
      (fun why t => E why.problem { s with derivation := t.derivation, context := t.context }) := by
  unfold Ensures parsing
  cases x ⟨s.derivation, s.context⟩ with
  | ok a t => rfl
  | error why t => cases why <;> rfl

theorem ensures_ofExcept {x : Except Fault α} (hok : ∀ a, x = .ok a → Q a s)
    (herror : ∀ e, x = .error e → E (.fault e) s) : Ensures (ofExcept x) s Q E := by
  cases x with
  | ok a => exact hok a rfl
  | error e => exact herror e rfl

theorem ensures_log {level : Int} {message : String} {Q : Unit → Session κ → Prop}
    (h : ∀ journal, Q ⟨⟩ { s with journal }) : Ensures (log level message) s Q E := by
  rw [log, ensures_modify]
  split
  · exact h _
  · exact h _

/-- What is done afterwards does not change how a request ended, if it ends well itself. -/
theorem ensures_afterwards {x : Request κ α} {last : Request κ Unit}
    (h : Ensures x s (fun a t => Ensures last t (fun _ => Q a) fun _ _ => False)
      fun p t => Ensures last t (fun _ => E p) fun _ _ => False) :
    Ensures (afterwards x last) s Q E := by
  unfold Ensures afterwards at *
  cases hx : x s with
  | ok a t =>
    simp only [hx] at h ⊢
    cases hl : last t with
    | ok u t' => simpa only [hl] using h
    | error p t' => simp only [hl] at h
  | error p t =>
    simp only [hx] at h ⊢
    cases hl : last t with
    | ok u t' => simpa only [hl] using h
    | error p t' => simp only [hl] at h

/-- A message about the time that something took changes the journal only. -/
theorem ensures_timed {settings : Settings} {x : Request κ α}
    (h : Ensures x s (fun a t => ∀ journal, Q a { t with journal }) fun p t => ∀ journal, E p { t with journal }) :
    Ensures (afterwards x (if settings.logTiming then log 2 "Time to parse" else pure ())) s Q E := by
  have last {t : Session κ} {R : Session κ → Prop} (h : ∀ journal, R { t with journal }) :
      Ensures (if settings.logTiming then log 2 "Time to parse" else pure ()) t (fun _ => R) fun _ _ => False := by
    split
    · exact ensures_log h
    · exact h t.journal
  exact ensures_afterwards (h.imp (fun _ _ => last) fun _ _ => last)

end Session

end Descent
