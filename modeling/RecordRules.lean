import RecordRules.Main
import RecordRules.Record.Tuple
import RecordRules.Proofs.Calls
import RecordRules.Proofs.Footprint
import RecordRules.Proofs.GrammarExact
import RecordRules.Proofs.RoundTrip
import RecordRules.Proofs.Distinct
import RecordRules.Proofs.JsonTuple
import RecordRules.Proofs.Stored
import RecordRules.Proofs.Comparing
import RecordRules.Proofs.Describing
import RecordRules.Proofs.Composition
import RecordRules.Proofs.Loaded
import RecordRules.Proofs.Parts
import RecordRules.Proofs.Sameness
import RecordRules.Proofs.ShortCircuit
import RecordRules.Proofs.Tracing
import RecordRules.Proofs.PathTokens
import RecordRules.Proofs.Faults
import RecordRules.Proofs.Positions.Scan
import RecordRules.Proofs.Positions.Path
import RecordRules.Proofs.Positions.Parse
import RecordRules.Proofs.Positions.ParseAgrees
import RecordRules.Proofs.Positions.Compile
import RecordRules.Proofs.Flattening
import RecordRules.Proofs.Reordering
import RecordRules.Proofs.Nesting
import RecordRules.Proofs.SideBySide
import RecordRules.Proofs.Limit
import RecordRules.Proofs.Spacing
import RecordRules.Proofs.Equivalence
import RecordRules.Proofs.Equating
import RecordRules.Proofs.IgnoringCase
import RecordRules.Proofs.Exactness
import RecordRules.Proofs.Overflow
import RecordRules.Proofs.Lookups
import RecordRules.Proofs.Accounting
import RecordRules.Proofs.RuleOrder
import RecordRules.Proofs.Leaves
import RecordRules.Proofs.Kinds
import RecordRules.Proofs.PathGrammar
import RecordRules.Proofs.PathOperands
import RecordRules.Proofs.JsonNormal
import RecordRules.Proofs.StrayParenthesis
import RecordRules.Proofs.OrderingOption
import RecordRules.Proofs.Mentions
import RecordRules.Proofs.Stages
import RecordRules.Proofs.Explained
import RecordRules.Proofs.QuotedKeys
import RecordRules.Proofs.Insertions
