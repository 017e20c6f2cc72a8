import Descent.Proofs.Choice
import Descent.Proofs.Counterpart.Bare
import Descent.Proofs.Derivation.Covers
import Descent.Proofs.Derivation.Early
import Descent.Proofs.Derivation.Abandoned
import Descent.Proofs.Derivation.Repeats
import Descent.Proofs.Furthest
import Descent.Proofs.Insulated
import Descent.Proofs.Likeness.Shift
import Descent.Proofs.Location
import Descent.Proofs.Mapping
import Descent.Proofs.OneOf
import Descent.Proofs.Matcher.Caseless
import Descent.Proofs.Matcher.Descriptions
import Descent.Proofs.Matcher.Occurrences
import Descent.Proofs.Matcher.Runs
import Descent.Proofs.Peg.Inert
import Descent.Proofs.Peg.Lossless
import Descent.Proofs.Peg.Productive
import Descent.Proofs.Peg.Tokens
import Descent.Proofs.Repetition
import Descent.Proofs.Run.Quiet
import Descent.Proofs.Run.Unrepeated
import Descent.Proofs.Scoping
import Descent.Proofs.Strides
import Descent.Proofs.Suspension
import Descent.Proofs.WholeInput.Complete
import Descent.Proofs.WholeInput.Independent
import Descent.Proofs.WholeInput.Leading
import Descent.Proofs.WholeInput.Modes
