import SqlScript.File.Tree
import SqlScript.Main
import SqlScript.Proofs.Splitting.Composition
import SqlScript.Proofs.Splitting.Pieces
import SqlScript.Proofs.Splitting.Described
import SqlScript.Proofs.Splitting.Rendering
import SqlScript.Proofs.Batch.Run
import SqlScript.Proofs.Batch.Aggregate
import SqlScript.Proofs.Batch.Permits
import SqlScript.Proofs.Batch.Driven
import SqlScript.Proofs.Lexing.Reach
import SqlScript.Proofs.Lexing.Enclosed
import SqlScript.Proofs.Splitting.Opaque
import SqlScript.Proofs.Registry
import SqlScript.Proofs.Splitting.Whole
import SqlScript.Proofs.Splitting.Opened
import SqlScript.Proofs.Splitting.Directive
import SqlScript.Proofs.Splitting.Truncated
import SqlScript.Proofs.Splitting.Ends
import SqlScript.Proofs.Splitting.Padding
import SqlScript.Proofs.Vendor.Opening
import SqlScript.Proofs.Splitting.Kind
import SqlScript.Proofs.Location.Walk
import SqlScript.Proofs.Vendor.Writing
import SqlScript.Proofs.Vendor.Expansion
import SqlScript.Proofs.Text.Case
import SqlScript.Proofs.Vendor.Case
import SqlScript.Proofs.Splitting.Case
import SqlScript.Proofs.Json
import SqlScript.Proofs.CommandLine
import SqlScript.Proofs.Splitting.Progress
