import CrateSafety.Analysis.Console
import CrateSafety.Analysis.Log
import CrateSafety.Analysis.Markup
import CrateSafety.Analysis.Run
import CrateSafety.Config
import CrateSafety.Interval
import CrateSafety.Model.Build
import CrateSafety.Model.Entity
import CrateSafety.Model.Scope
import CrateSafety.Number.Double
import CrateSafety.Number.Shortest
import CrateSafety.Obligation.Edge
import CrateSafety.Obligation.Graph
import CrateSafety.Obligation.Template
import CrateSafety.Path
import CrateSafety.Predicate.Contact
import CrateSafety.Predicate.Expr
import CrateSafety.Predicate.Grammar
import CrateSafety.Predicate.Literal
import CrateSafety.Predicate.Names
import CrateSafety.Predicate.Token
import CrateSafety.Requirement.Atom
import CrateSafety.Requirement.Claim
import CrateSafety.Requirement.Condition
import CrateSafety.Requirement.Coverage
import CrateSafety.Requirement.Entailment
import CrateSafety.Requirement.Hidden
import CrateSafety.Requirement.Key
import CrateSafety.Requirement.Prose
import CrateSafety.Requirement.Reading
import CrateSafety.Snapshot.Declaration
import CrateSafety.Snapshot.Decode
import CrateSafety.Snapshot.Display
import CrateSafety.Snapshot.Encode
import CrateSafety.Snapshot.Fault
import CrateSafety.Snapshot.Json
import CrateSafety.Snapshot.Read
import CrateSafety.Sorting
import CrateSafety.Text.Basic
import CrateSafety.Text.CaseRanges
import CrateSafety.Text.Class
import CrateSafety.Text.HiddenRanges
import CrateSafety.Text.IdentifierRanges
import CrateSafety.Text.Lower
import CrateSafety.Text.Quoted
import CrateSafety.Text.WordRanges
import CrateSafety.Traced
import CrateSafety.Verdict.Check
import CrateSafety.Verdict.Finding
import CrateSafety.Verdict.Rule
import CrateSafety.Visibility
import CrateSafety.Proofs.IntervalMembership
import CrateSafety.Proofs.Outcome
import CrateSafety.Proofs.Valuation
import CrateSafety.Proofs.NormalForm
import CrateSafety.Proofs.CoverageMeaning
import CrateSafety.Proofs.Consistency
import CrateSafety.Proofs.ObligationEdges
import CrateSafety.Proofs.CompletedRun
import CrateSafety.Proofs.SoundVerdict
import CrateSafety.Proofs.AssumedContract
import CrateSafety.Proofs.ReadyOrder
import CrateSafety.Proofs.CalleeFirst
import CrateSafety.Proofs.ScopeResolution
import CrateSafety.Proofs.CheckTotality
import CrateSafety.Proofs.Widening
import CrateSafety.Proofs.LeastModel
import CrateSafety.Proofs.LineMeaning
import CrateSafety.Proofs.Interface
import CrateSafety.Proofs.BodyIndependence
import CrateSafety.Proofs.ModuleRegistration
import CrateSafety.Proofs.DeclarationOrder
import CrateSafety.Proofs.EnclosingScopes
import CrateSafety.Proofs.ReportAgreement
import CrateSafety.Proofs.SimultaneousRenaming
import CrateSafety.Proofs.TraitDemands
import CrateSafety.Proofs.Legibility
import CrateSafety.Proofs.RunOutcome
import CrateSafety.Proofs.IntervalOrder
import CrateSafety.Proofs.CoverageRefinement
import CrateSafety.Proofs.StrictBuild
import CrateSafety.Proofs.RoundTrip
import CrateSafety.Proofs.SnapshotStructure
import CrateSafety.Proofs.Recommendations
import CrateSafety.Proofs.PlainVerdict
import CrateSafety.Proofs.CoverageExactness
import CrateSafety.Proofs.IntervalExactness
import CrateSafety.Proofs.SortedLists
import CrateSafety.Proofs.Discharge
import CrateSafety.Proofs.KeyTokens
import CrateSafety.Proofs.Marks
import CrateSafety.Proofs.Spelling
import CrateSafety.Proofs.EntailmentOrder
import CrateSafety.Proofs.Opposites
import CrateSafety.Proofs.LiteralRounding
import CrateSafety.Proofs.LiteralReasoning
import CrateSafety.Proofs.MemberRenaming
import CrateSafety.Proofs.InternalsEdges
import CrateSafety.Proofs.InvariantTransfer
import CrateSafety.Proofs.WrittenField
import CrateSafety.Proofs.ReceiverInvariant
import CrateSafety.Proofs.CallContracts
import CrateSafety.Proofs.CallClaims
import CrateSafety.Proofs.CastWords
import CrateSafety.Proofs.LexemeExtension
import CrateSafety.Proofs.CastTokens
import CrateSafety.Proofs.OperandText
import CrateSafety.Proofs.CastOperands
import CrateSafety.Proofs.ReducedForm
import CrateSafety.Proofs.Exposure
import CrateSafety.Proofs.ReadNames
import CrateSafety.Proofs.VariableUses
import CrateSafety.Proofs.ProseRenaming
import CrateSafety.Proofs.VariableRenaming
import CrateSafety.Proofs.ObtainableAtoms
import CrateSafety.Proofs.ReversibleRenaming
import CrateSafety.Proofs.ScopeTermination
import CrateSafety.Proofs.SharedPaths
import CrateSafety.Proofs.KeySpacing
import CrateSafety.Proofs.ReasonSplit
