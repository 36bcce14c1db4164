import Treatise.CommandLine.Arguments
import Treatise.CommandLine.Host
import Treatise.CommandLine.Programs
import Treatise.CommandLine.Reasoner
import Treatise.CommandLine.Run
import Treatise.Decimal
import Treatise.Element.Address
import Treatise.Element.Catalog
import Treatise.Grouping
import Treatise.Inference
import Treatise.Json.Codec
import Treatise.Json.Parse
import Treatise.Json.Print
import Treatise.Json.Records
import Treatise.Main
import Treatise.N3.Document
import Treatise.N3.Lint
import Treatise.N3.Tokenize
import Treatise.Proofs.CommandLine.AssertedAnswers
import Treatise.Proofs.CommandLine.Echo
import Treatise.Proofs.CommandLine.FailingReasoner
import Treatise.Proofs.CommandLine.Precomputed
import Treatise.Proofs.CommandLine.Reasoner
import Treatise.Proofs.Decimal.Natural
import Treatise.Proofs.Element.Address
import Treatise.Proofs.Element.Catalog
import Treatise.Proofs.Element.Label
import Treatise.Proofs.FirstOccurrence
import Treatise.Proofs.Inference.BreadthFirst
import Treatise.Proofs.Inference.Chaining
import Treatise.Proofs.Inference.ClosureOrder
import Treatise.Proofs.Inference.LeastModel
import Treatise.Proofs.Json.Codecs
import Treatise.Proofs.Json.Compact
import Treatise.Proofs.Json.Records
import Treatise.Proofs.N3.CanonicalText
import Treatise.Proofs.N3.Concatenation
import Treatise.Proofs.N3.Grammar
import Treatise.Proofs.N3.Lines
import Treatise.Proofs.N3.Lint
import Treatise.Proofs.N3.LiteralSuffix
import Treatise.Proofs.N3.Moves
import Treatise.Proofs.N3.PredicateSpelling
import Treatise.Proofs.N3.Reader
import Treatise.Proofs.N3.RoundTrip
import Treatise.Proofs.N3.RuleBlocks
import Treatise.Proofs.N3.Runs
import Treatise.Proofs.Relationships
import Treatise.Proofs.Report.Citations
import Treatise.Proofs.Report.Counts
import Treatise.Proofs.Report.MultiProof
import Treatise.Proofs.Report.Validation
import Treatise.Proofs.Session.Chains
import Treatise.Proofs.Session.Operations
import Treatise.Proofs.Store.Lookup
import Treatise.Proofs.Weights.Breakdown
import Treatise.Proofs.Weights.Chain
import Treatise.Proofs.Weights.Depth
import Treatise.Proofs.Weights.FreshDependent
import Treatise.Proofs.Weights.Influence
import Treatise.Proofs.Weights.Locality
import Treatise.Proofs.Weights.Reordering
import Treatise.Proofs.Weights.Score
import Treatise.Proofs.Weights.Settled
import Treatise.Relationships
import Treatise.Rendering
import Treatise.Report
import Treatise.Session
import Treatise.Statement
import Treatise.Store.Basic
import Treatise.Store.Index
import Treatise.Text.Classes
import Treatise.Text.Cut
import Treatise.Weights.Analysis
import Treatise.Weights.Config
