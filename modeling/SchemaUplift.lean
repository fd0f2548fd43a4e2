import SchemaUplift.Request.Setup
import SchemaUplift.Proofs.Sample.Range
import SchemaUplift.Proofs.Journal.Restoration
import SchemaUplift.Proofs.Journal.Reversal
import SchemaUplift.Proofs.Rule.Reversal
import SchemaUplift.Proofs.Request.Placement
import SchemaUplift.Proofs.Request.Reversal
import SchemaUplift.Proofs.Attempt
import SchemaUplift.Proofs.Schema.Grouping
import SchemaUplift.Proofs.Schema.Versions
import SchemaUplift.Proofs.Schema.Path
import SchemaUplift.Proofs.Rule.Routing
import SchemaUplift.Proofs.Interpretation.Basic
import SchemaUplift.Proofs.Interpretation.Chain
import SchemaUplift.Proofs.Interpretation.Stages
import SchemaUplift.Proofs.Interpretation.Compilation
import SchemaUplift.Proofs.Request.Batches
import SchemaUplift.Proofs.Request.Idempotence
import SchemaUplift.Proofs.Rule.Conservation
import SchemaUplift.Proofs.Schema.Conservation
import SchemaUplift.Proofs.AdaptiveMap
import SchemaUplift.Proofs.Rename
import SchemaUplift.Proofs.Interpretation.Preservation
import SchemaUplift.Proofs.Rule.DistinctKeys
import SchemaUplift.Proofs.Request.DistinctKeys
import SchemaUplift.Proofs.Interpretation.Redeclaration
import SchemaUplift.Proofs.Schema.Batching
import SchemaUplift.Proofs.Schema.Reordering
import SchemaUplift.Proofs.Schema.Declarations
import SchemaUplift.Proofs.Rule.MergeSplit
import SchemaUplift.Proofs.Request.Frame
import SchemaUplift.Proofs.Request.Concatenation
import SchemaUplift.Proofs.Rekeying
import SchemaUplift.Proofs.Schema.AllTelemetry
import SchemaUplift.Proofs.Rule.MergeOutcome
import SchemaUplift.Proofs.Rule.SplitOutcome
import SchemaUplift.Proofs.Request.Rebasing
import SchemaUplift.Proofs.Rule.SplitFrame
import SchemaUplift.Proofs.Telemetry.Sameness
import SchemaUplift.Proofs.Rule.Series
import SchemaUplift.Proofs.Rule.Telescoping
import SchemaUplift.Proofs.Rule.DeltaOrder
import SchemaUplift.Proofs.Text.Trimming
import SchemaUplift.Proofs.Version.Lexicographic
import SchemaUplift.Proofs.Version.Grammar
import SchemaUplift.Proofs.Version.SchemaUrl
import SchemaUplift.Proofs.AdaptiveMap.Agreement
import SchemaUplift.Proofs.Schema.Refusal
import SchemaUplift.Proofs.Schema.Pruning
import SchemaUplift.Proofs.Schema.Chains
import SchemaUplift.Proofs.Rule.Partition
