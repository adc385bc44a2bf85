import TextPattern.Pattern.LookAhead
import TextPattern.Pattern.Match
import TextPattern.Pattern.Parentheses
import TextPattern.Proofs.Cursor.Reads
import TextPattern.Proofs.Log.Messages
import TextPattern.Proofs.Log.Reports
import TextPattern.Proofs.Pattern.Alternatives
import TextPattern.Proofs.Pattern.Chain
import TextPattern.Proofs.Pattern.Composition
import TextPattern.Proofs.Pattern.Conduct
import TextPattern.Proofs.Pattern.Counted
import TextPattern.Proofs.Pattern.Course
import TextPattern.Proofs.Pattern.Deterministic
import TextPattern.Proofs.Pattern.Displacement
import TextPattern.Proofs.Pattern.Exchange
import TextPattern.Proofs.Pattern.Extent
import TextPattern.Proofs.Pattern.Folds
import TextPattern.Proofs.Pattern.Limit
import TextPattern.Proofs.Pattern.Literal
import TextPattern.Proofs.Pattern.LookAhead
import TextPattern.Proofs.Pattern.Nullable
import TextPattern.Proofs.Pattern.Parentheses
import TextPattern.Proofs.Pattern.Printed
import TextPattern.Proofs.Pattern.RepetitionLaws
import TextPattern.Proofs.Pattern.Shortcut
import TextPattern.Proofs.Pattern.Soundness
import TextPattern.Proofs.Pattern.Termination
import TextPattern.Proofs.Pattern.Tokens
import TextPattern.Proofs.Pattern.Unrolled
import TextPattern.Proofs.Repetition.Denoted
