import Descent.Pattern.Run

/-!
# A match stays inside its text

Every place that a match sets aside lies in the text: tries that begin there end there, whether they succeed or
not (`StaysWithin`). All the ways of putting tries together keep this property, so a pattern has it if what
follows it has (`Pattern.run_staysWithin`). What a whole pattern consumes is therefore no longer than the text
(`Program.width?_le_length`).
-/

namespace Descent

/-- A try that begins within `size` sets no place aside beyond it. -/
def Try.StaysWithin (size : Nat) (go : Try) : Prop :=
  ∀ here t, here ≤ size → t.bookmark ≤ size → (go here t).trail.bookmark ≤ size

/-! ## 1. Putting tries together -/

namespace Outcome

variable {size : Nat}

theorem orElse_bookmark_le {o : Outcome} {other : Trail → Outcome} (h : o.trail.bookmark ≤ size)
    (h' : ∀ t, t.bookmark ≤ size → (other t).trail.bookmark ≤ size) : (o.orElse other).trail.bookmark ≤ size := by
  rw [orElse]
  split
  · exact h
  · exact h' _ h

theorem andThen_bookmark_le {o : Outcome} {other : Trail → Outcome} (h : o.trail.bookmark ≤ size)
    (h' : ∀ t, t.bookmark ≤ size → (other t).trail.bookmark ≤ size) : (o.andThen other).trail.bookmark ≤ size := by
  rw [andThen]
  split
  · exact h' _ h
  · exact h

theorem elseAside_bookmark_le {o : Outcome} {place : Nat} (h : o.trail.bookmark ≤ size) (hp : place ≤ size) :
    (o.elseAside place).trail.bookmark ≤ size :=
  orElse_bookmark_le h fun _ _ => hp

theorem ite_bookmark_le {c : Prop} [Decidable c] {o o' : Outcome} (h : o.trail.bookmark ≤ size)
    (h' : o'.trail.bookmark ≤ size) : (if c then o else o').trail.bookmark ≤ size := by
  split
  · exact h
  · exact h'

end Outcome

namespace Try.StaysWithin

open Outcome

variable {size : Nat} {go : Try}

theorem stop : Try.stop.StaysWithin size := fun _ _ h _ => h

theorem revocable (h : go.StaysWithin size) (inLoop : Bool) : (go.revocable inLoop).StaysWithin size := by
  intro here t hh ht
  exact orElse_bookmark_le (h here _ hh hh) fun _ ht => ht

end Try.StaysWithin

/-! ## 2. Looking at the text -/

section Text

variable (text : Array Char)

theorem lt_size_of_isAt {test : CharTest} {here : Nat} (h : test.isAt text here = true) : here < text.size := by
  rw [CharTest.isAt] at h
  split at h
  next hc => exact (Array.getElem?_eq_some_iff.mp hc).1
  next => cases h

theorem add_sweep_le (test : CharTest) (limit : Nat) :
    ∀ here, here ≤ text.size → here + test.sweep text limit here ≤ text.size := by
  induction limit with
  | zero => intro here h; exact h
  | succ limit ih =>
    intro here h
    rw [CharTest.sweep]
    split
    next hc =>
      have := ih (here + 1) (lt_size_of_isAt text hc)
      omega
    next => exact h

theorem add_le_of_comesAgain (rule : CaseRule) (count : Nat) :
    ∀ first here, here ≤ text.size → comesAgain text rule count first here = true →
      here + count ≤ text.size := by
  induction count with
  | zero => intro _ here h _; exact h
  | succ count ih =>
    intro first here _ hc
    rw [comesAgain] at hc
    split at hc
    next hd =>
      have hlt := (Array.getElem?_eq_some_iff.mp hd).1
      have := ih (first + 1) (here + 1) hlt ((Bool.and_eq_true _ _).mp hc).2
      omega
    next => cases hc

end Text

namespace Pattern

open Outcome Try

variable {text : Array Char}

/-! ## 3. Loops over one test -/

section One

variable {test : CharTest} {minimum : Nat} {maximum : Option Nat} {inLoop : Bool} {next : Next}

theorem counted_staysWithin {limit : Nat} {go : Nat → Trail → Outcome} {here : Nat} {t : Trail}
    (hh : here ≤ text.size) (ht : t.bookmark ≤ text.size)
    (h : ∀ count t, minimum ≤ count → here + count ≤ text.size → t.bookmark ≤ text.size →
      (go count t).trail.bookmark ≤ text.size) :
    (counted text test minimum limit go here t).trail.bookmark ≤ text.size := by
  have hc := add_sweep_le text test limit here hh
  have hb : (if test.isStepwise then here + test.sweep text limit here else here) ≤ text.size := by
    split
    · exact hc
    · exact hh
  rw [counted]
  split
  · exact ht
  · dsimp only
    split
    · exact hb
    next hm => exact h _ _ (Nat.le_of_not_lt hm) hc hb

theorem nearerEnds_staysWithin (hn : next.go.StaysWithin text.size) {nearest : Nat} (spare : Nat) :
    ∀ t : Trail, nearest + spare ≤ text.size → t.bookmark ≤ text.size →
      (nearerEnds text inLoop next nearest spare t).trail.bookmark ≤ text.size := by
  induction spare with
  | zero =>
    intro t hs ht
    rw [nearerEnds]
    exact ite_bookmark_le ht (hn.revocable inLoop _ _ hs ht)
  | succ spare ih =>
    intro t hs ht
    rw [nearerEnds]
    exact orElse_bookmark_le (ite_bookmark_le ht (hn.revocable inLoop _ _ hs ht))
      fun t ht => ih t (by omega) ht

theorem furtherEnds_staysWithin (hn : next.go.StaysWithin text.size) (ahead : Nat) :
    ∀ (count here : Nat) (t : Trail), here + ahead ≤ text.size → t.bookmark ≤ text.size →
      (furtherEnds test maximum inLoop next ahead count here t).trail.bookmark ≤ text.size := by
  induction ahead with
  | zero =>
    intro count here t hh ht
    rw [furtherEnds]
    exact orElse_bookmark_le (hn.revocable inLoop _ _ hh ht) fun _ _ => hh
  | succ ahead ih =>
    intro count here t hh ht
    rw [furtherEnds]
    refine orElse_bookmark_le (hn.revocable inLoop _ _ (by omega) ht) fun t _ => ?_
    have hb : (if test.isStepwise then (t.setAside here).setAside (here + 1) else t.setAside here).bookmark
        ≤ text.size := by
      split <;> dsimp only [Trail.setAside] <;> omega
    dsimp only
    split
    · exact ih _ _ _ (by omega) hb
    · exact hb

theorem runOneLoop_staysWithin (hn : next.go.StaysWithin text.size) (greed : Greed) :
    (runOneLoop text test minimum maximum inLoop next greed).StaysWithin text.size := by
  intro here t hh ht
  cases greed with
  | greedy =>
    refine counted_staysWithin hh ht fun count t hm hc ht => ?_
    exact nearerEnds_staysWithin hn _ t (by omega) ht
  | «lazy» =>
    refine counted_staysWithin hh ht fun count t hm hc ht => ?_
    exact furtherEnds_staysWithin hn _ _ _ _ (add_sweep_le text test _ _ (by omega)) ht
  | possessive =>
    exact counted_staysWithin hh ht fun count t _ hc ht => hn _ t hc ht

end One

/-! ## 4. Loops over any body -/

section Rounds

variable {body : Try → Try} {minimum : Nat} {maximum : Option Nat} {inLoop : Bool} {next : Next} {size : Nat}

theorem greedyRounds_staysWithin (hb : ∀ go : Try, go.StaysWithin size → (body go).StaysWithin size)
    (hn : next.go.StaysWithin size) (fuel : Nat) :
    ∀ count last, (greedyRounds body minimum maximum next fuel count last).StaysWithin size := by
  induction fuel with
  | zero => intro count last here t _ ht; exact ht
  | succ fuel ih =>
    intro count last here t hh ht
    have hr (last : Option Nat) := hb _ (ih (count + 1) last)
    have hnext (t : Trail) : (next.go here (t.setAside here)).trail.bookmark ≤ size := hn _ _ hh hh
    rw [greedyRounds]
    refine elseAside_bookmark_le ?_ hh
    split
    · exact hr last here _ hh hh
    · split
      · exact orElse_bookmark_le ((hr (some here)).revocable true here t hh ht) fun t _ => hnext t
      · exact hnext t

theorem lazyRounds_staysWithin (hb : ∀ go : Try, go.StaysWithin size → (body go).StaysWithin size)
    (hn : next.go.StaysWithin size) (fuel : Nat) :
    ∀ count last, (lazyRounds body minimum maximum inLoop next fuel count last).StaysWithin size := by
  induction fuel with
  | zero => intro count last here t _ ht; exact ht
  | succ fuel ih =>
    intro count last here t hh ht
    have hr (last : Option Nat) (t : Trail) := hb _ (ih (count + 1) last) here (t.setAside here) hh hh
    rw [lazyRounds]
    refine elseAside_bookmark_le ?_ hh
    split
    · exact hr last t
    · refine orElse_bookmark_le (hn.revocable inLoop here t hh ht) fun t ht => ?_
      split
      · exact hr (some here) t
      · exact ht

theorem neededRounds_bookmark_le (hb : (body .stop).StaysWithin size) {start : Nat} (hs : start ≤ size)
    (left : Nat) : ∀ t : Trail, t.bookmark ≤ size →
      (neededRounds body start left t).trail.bookmark ≤ size := by
  induction left with
  | zero => intro t ht; exact ht
  | succ left ih =>
    intro t ht
    rw [neededRounds]
    exact elseAside_bookmark_le (andThen_bookmark_le (hb _ t ht ht) ih) hs

theorem furtherRounds_bookmark_le (hb : (body .stop).StaysWithin size) (fuel : Nat) :
    ∀ (count : Nat) (last : Option Nat) (t : Trail), t.bookmark ≤ size →
      (furtherRounds body maximum fuel count last t).bookmark ≤ size := by
  induction fuel with
  | zero => intro _ _ t ht; exact ht
  | succ fuel ih =>
    intro count last t ht
    have hr := hb t.bookmark t ht ht
    rw [furtherRounds]
    split
    · split
      next t' he => rw [he] at hr; exact ih _ _ t' hr
      next t' he => rw [he] at hr; exact hr
    · exact ht

theorem runLoop_staysWithin {text : Array Char} (hb : ∀ go : Try, go.StaysWithin size → (body go).StaysWithin size)
    (hn : next.go.StaysWithin size) (greed : Greed) :
    (runLoop body minimum maximum inLoop next text greed).StaysWithin size := by
  intro here t hh ht
  cases greed with
  | greedy => exact greedyRounds_staysWithin hb hn _ _ _ here _ hh hh
  | «lazy» => exact lazyRounds_staysWithin hb hn _ _ _ here _ hh hh
  | possessive =>
    refine andThen_bookmark_le (neededRounds_bookmark_le (hb _ .stop) hh _ _ hh) fun t ht => ?_
    have hr : (furtherRounds body maximum (minimum + text.size + 3) minimum none t).bookmark ≤ size :=
      furtherRounds_bookmark_le (hb _ .stop) _ _ _ t ht
    exact hn _ _ hr hr

end Rounds

/-! ## 5. All patterns -/

theorem run_staysWithin (p : Pattern) : ∀ (inLoop : Bool) (next : Next), next.go.StaysWithin text.size →
    (run text p inLoop next).StaysWithin text.size := by
  induction p with
  | empty => intro inLoop next hn; exact hn
  | one test =>
    intro inLoop next hn here t hh ht
    unfold run
    split
    next hc => exact hn _ t (lt_size_of_isAt text hc) ht
    next => exact ht
  | anchor place =>
    intro inLoop next hn here t hh ht
    unfold run
    split
    · exact hn _ t hh ht
    · exact ht
  | seq first second ih₁ ih₂ =>
    intro inLoop next hn
    rw [run]
    exact ih₁ _ _ (ih₂ _ _ hn)
  | choice first second ih₁ ih₂ =>
    intro inLoop next hn here t hh ht
    rw [run]
    have hfirst := ih₁ inLoop ⟨next.go, none⟩ hn
    have hsecond := ih₂ inLoop ⟨next.go, none⟩ hn
    refine orElse_bookmark_le (ite_bookmark_le ht (hfirst.revocable inLoop here t hh ht)) fun t ht => ?_
    exact ite_bookmark_le (hsecond here t hh ht) (ite_bookmark_le ht (hsecond.revocable inLoop here t hh ht))
  | group index body ih =>
    intro inLoop next hn here t hh ht
    rw [run]
    exact ih inLoop ⟨fun there t => next.go there (t.mark (2 * index - 1) there), none⟩
      (fun there t hh ht => hn there _ hh ht) here (t.mark (2 * index - 2) here) hh ht
  | loop greed minimum maximum body ih =>
    intro inLoop next hn
    unfold run
    split
    · exact runOneLoop_staysWithin hn greed
    · exact runLoop_staysWithin (fun go hg => ih _ ⟨go, none⟩ hg) hn greed
  | look behind wanted body ih =>
    intro inLoop next hn here t hh ht
    unfold run
    split
    · split
      · exact ht
      · exact hn here t hh ht
    · have hs := ih inLoop ⟨.stop, none⟩ .stop (here - behind) (t.setAside (here - behind)) (by omega)
        (by dsimp only [Trail.setAside]; omega)
      dsimp only
      split
      · exact andThen_bookmark_le hs fun t ht => hn here t hh ht
      · split
        · exact hs
        · exact hn here _ hh hs
  | atomic body ih =>
    intro inLoop next hn here t hh ht
    rw [run]
    refine andThen_bookmark_le (elseAside_bookmark_le ?_ hh) fun t ht => hn _ t ht ht
    exact ih inLoop ⟨.stop, none⟩ .stop here _ hh hh
  | again index rule =>
    intro inLoop next hn here t hh ht
    unfold run
    split
    · exact ht
    · dsimp only
      split
      next hc => exact hn _ t (add_le_of_comesAgain text rule _ _ here hh hc) ht
      next => exact ht
  | given index thenBody elseBody ih₁ ih₂ =>
    intro inLoop next hn here t hh ht
    unfold run
    split
    · refine ih₁ _ _ ?_ here t hh ht
      split
      · exact hn
      · exact hn
    · exact ih₂ _ _ hn here t hh ht

end Pattern

/-- A pattern consumes no more than there is. -/
theorem Program.width?_le_length {p : Program} {chars : List Char} {n : Nat}
    (h : p.width? chars = .ok (some n)) : n ≤ chars.length := by
  have hw : (p.body.run chars.toArray false ⟨.stop, none⟩ 0 .start).trail.bookmark ≤ chars.toArray.size :=
    Pattern.run_staysWithin p.body false ⟨.stop, none⟩ .stop 0 .start (Nat.zero_le _) (Nat.zero_le _)
  rw [Program.width?] at h
  split at h
  · cases h
  · split at h
    · cases h
    next t he =>
      rw [he] at hw
      split at h
      · cases h
        simpa using hw
      · cases h

end Descent
