import ContentSchema.Main
import ContentSchema.Files.Tree
import ContentSchema.Model.Writer
import ContentSchema.Options.Writer
import ContentSchema.Validator.Equality
import ContentSchema.Validator.Accepts
import ContentSchema.Proofs.Json.Cutting
import ContentSchema.Proofs.Json.TextRoundTrip
import ContentSchema.Proofs.Json.Reading
import ContentSchema.Proofs.Validator.Stored
import ContentSchema.Proofs.Graph.Mapping
import ContentSchema.Proofs.Report
import ContentSchema.Proofs.Graph.Assembly
import ContentSchema.Proofs.Graph.Keyed
import ContentSchema.Proofs.Graph.Stored
import ContentSchema.Proofs.Graph.Order
import ContentSchema.Proofs.Validator.Structure
import ContentSchema.Proofs.Graph.References
import ContentSchema.Proofs.Validator.Inlining
import ContentSchema.Proofs.Graph.Inlining
import ContentSchema.Proofs.Graph.Coverage
import ContentSchema.Proofs.Graph.Permuted
import ContentSchema.Proofs.Graph.Policy
import ContentSchema.Proofs.Graph.Closure
import ContentSchema.Proofs.Graph.Proper
import ContentSchema.Proofs.Source.Expr
import ContentSchema.Proofs.Source.Inlined
import ContentSchema.Proofs.Source.Flat
import ContentSchema.Proofs.Source.Agreement
import ContentSchema.Proofs.Graph.Links
import ContentSchema.Proofs.Source.Layout
import ContentSchema.Proofs.Source.Linked
import ContentSchema.Proofs.Graph.LinkSets
import ContentSchema.Proofs.Source.Rebuilt
import ContentSchema.Proofs.Graph.Failures
import ContentSchema.Proofs.Source.Printed
import ContentSchema.Proofs.Source.Silent
import ContentSchema.Proofs.Source.Policy
import ContentSchema.Proofs.Naming.Table
import ContentSchema.Proofs.Naming.Registration
import ContentSchema.Proofs.Options.Layers
import ContentSchema.Proofs.Source.Statements
import ContentSchema.Proofs.Source.Names
import ContentSchema.Proofs.Naming.Standard
import ContentSchema.Proofs.Source.Identifiers
import ContentSchema.Proofs.Graph.Genuine
import ContentSchema.Proofs.Source.Uses
import ContentSchema.Proofs.Source.Scope
import ContentSchema.Proofs.Source.Provided
import ContentSchema.Proofs.Validator.Acceptance
import ContentSchema.Proofs.Graph.Produced
import ContentSchema.Proofs.Graph.Discriminated
import ContentSchema.Proofs.Graph.Satisfiable
import ContentSchema.Proofs.Naming.Unnumbered
import ContentSchema.Proofs.Source.Tagged
import ContentSchema.Proofs.Validator.Levels
import ContentSchema.Proofs.Graph.Levels
import ContentSchema.Proofs.Source.Readable
import ContentSchema.Proofs.Graph.Sorted
import ContentSchema.Proofs.Validator.KeyPolicy
import ContentSchema.Proofs.Graph.KeyPolicy
import ContentSchema.Proofs.CommandLine.Arguments
import ContentSchema.Proofs.Files.Atomic
import ContentSchema.Proofs.Log
import ContentSchema.Proofs.CommandLine.Run
import ContentSchema.Proofs.Model.Unmodelled
import ContentSchema.Proofs.Graph.Stable
import ContentSchema.Proofs.Validator.Outermost
import ContentSchema.Proofs.Source.References
import ContentSchema.Proofs.Source.Circles
import ContentSchema.Proofs.Validator.Degraded
import ContentSchema.Proofs.Source.Dangling
import ContentSchema.Proofs.Text.Apart
import ContentSchema.Proofs.Source.Unambiguous
import ContentSchema.Proofs.Graph.Closing
import ContentSchema.Proofs.Model.RoundTrip
import ContentSchema.Proofs.Graph.Isolated
import ContentSchema.Proofs.Source.Needed
import ContentSchema.Proofs.Text.Spelling
import ContentSchema.Proofs.Text.Keys
import ContentSchema.Proofs.Naming.Constants
import ContentSchema.Proofs.Naming.Types
