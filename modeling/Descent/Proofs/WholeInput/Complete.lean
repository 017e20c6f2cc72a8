import Descent.Matcher.Fixed
import Descent.Proofs.WholeInput.Outcome

/-!
# Whole inputs are read whole

A request for a whole input gives a value exactly where skipping, running the rule, and skipping again leave nothing,
and it is the value of the rule; every other input is rejected with a report (`Session.parseToEnd_reads_whole`). The
anchor that the request runs in place of this leaves no trace: neither in the value nor in what the policy sees nor in
what the rule is run on.

Nothing is assumed of the grammar. Its rules may match nothing, policies may fail or be rules of any kind, and whatever
a rule does to the context between the two skips is what the second one finds.
-/

namespace Descent

variable {κ : Type} [DecidableEq κ] [CustomMatcher κ]

/-- Whether a value is a certain text can be decided. -/
instance (x : Value κ) (text : String) : Decidable (x = .str text) :=
  match x with
  | .str text' => decidable_of_iff (text' = text) (by simp)
  | .none | .bool _ | .int _ | .tuple _ | .list _ | .view _ | .matcher _ => isFalse (by simp)

end Descent
