import RecordFilter.Main
import RecordFilter.Proofs.Text.Trimming
import RecordFilter.Proofs.Text.Occurrences
import RecordFilter.Proofs.Expression.Scanning
import RecordFilter.Proofs.Expression.Masking
import RecordFilter.Proofs.Arithmetic.Reading
import RecordFilter.Proofs.Condition.Reading
import RecordFilter.Proofs.Precedence.Chain
import RecordFilter.Proofs.Precedence.Dialect
import RecordFilter.Proofs.Condition.Connectives
import RecordFilter.Proofs.Condition.Precedence
import RecordFilter.Proofs.Number.Shape
import RecordFilter.Proofs.Arithmetic.Operators
import RecordFilter.Proofs.Arithmetic.Root
import RecordFilter.Proofs.Arithmetic.Operands
import RecordFilter.Proofs.Arithmetic.Precedence
import RecordFilter.Proofs.Comparison.Residue
import RecordFilter.Proofs.Comparison.NumericSides
import RecordFilter.Proofs.Expression.Frame
import RecordFilter.Proofs.Expression.Cutting
import RecordFilter.Proofs.Comparison.Literals
import RecordFilter.Proofs.Condition.Literals
import RecordFilter.Proofs.Comparison.Names
import RecordFilter.Proofs.Comparison.Sides
import RecordFilter.Proofs.Comparison.Fields
import RecordFilter.Proofs.Comparison.NameOrder
import RecordFilter.Proofs.Expression.Parentheses
import RecordFilter.Proofs.Condition.Parentheses
import RecordFilter.Proofs.Condition.Evaluation
import RecordFilter.Proofs.Condition.Printing
import RecordFilter.Proofs.Query.Failing
import RecordFilter.Proofs.Number.Notation
import RecordFilter.Proofs.Json.Characters
import RecordFilter.Proofs.Text.Lines
import RecordFilter.Proofs.Report.Stream
import RecordFilter.Proofs.Command.Tallies
import RecordFilter.Proofs.Command.Run
import RecordFilter.Proofs.Json.Members
import RecordFilter.Proofs.Json.Numbers
import RecordFilter.Proofs.Number.Finite
import RecordFilter.Proofs.Json.Magnitudes
import RecordFilter.Proofs.Json.Fitting
import RecordFilter.Proofs.Json.Strings
import RecordFilter.Proofs.Json.RoundTrip
import RecordFilter.Proofs.Enrichment.Stability
import RecordFilter.Proofs.Report.Refiltering
import RecordFilter.Proofs.Record.Integral
import RecordFilter.Proofs.Query.Shape
import RecordFilter.Proofs.Comparison.Operands
import RecordFilter.Proofs.Comparison.Soundness
import RecordFilter.Proofs.Query.Semicolons
import RecordFilter.Proofs.Query.Statements
import RecordFilter.Proofs.Toml.Lines
import RecordFilter.Proofs.Toml.Documents
import RecordFilter.Proofs.Settings.RoundTrip
import RecordFilter.Proofs.Enrichment.Lookups
import RecordFilter.Proofs.Comparison.Converse
import RecordFilter.Proofs.Outline.Nodes
import RecordFilter.Proofs.Expression.Outside
import RecordFilter.Proofs.Text.Bytes
import RecordFilter.Proofs.Expression.Groups
import RecordFilter.Proofs.Expression.Indices
import RecordFilter.Proofs.Expression.Layers
import RecordFilter.Proofs.Command.Verdicts
import RecordFilter.Proofs.FileTree.Listing
