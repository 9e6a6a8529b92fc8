import GraphSchema.Checker.Table
import GraphSchema.Error
import GraphSchema.Files.Tree
import GraphSchema.Main
import GraphSchema.Proofs.Document.Loading
import GraphSchema.Proofs.Graph.Acceptance
import GraphSchema.Proofs.Graph.Aliases
import GraphSchema.Proofs.Graph.Arrangements
import GraphSchema.Proofs.Graph.Endings
import GraphSchema.Proofs.Graph.Entering
import GraphSchema.Proofs.Graph.Flattening
import GraphSchema.Proofs.Graph.Foreign
import GraphSchema.Proofs.Graph.Interning
import GraphSchema.Proofs.Graph.OwnMembers
import GraphSchema.Proofs.Graph.Simultaneous
import GraphSchema.Proofs.Graph.Termination
import GraphSchema.Proofs.Graph.Viewing
import GraphSchema.Proofs.Inheritance
import GraphSchema.Proofs.Json.Strings
import GraphSchema.Proofs.Literal.Layout
import GraphSchema.Proofs.Literal.Omission
import GraphSchema.Proofs.Literal.Reading
import GraphSchema.Proofs.Literal.Refusals
import GraphSchema.Proofs.Literal.Schemas
import GraphSchema.Proofs.Resolution.Appending
import GraphSchema.Proofs.Resolution.Required
import GraphSchema.Proofs.Table.Limits
import GraphSchema.Proofs.Table.Renaming
import GraphSchema.Proofs.Table.Sequences
import GraphSchema.Proofs.Table.Warnings
import GraphSchema.Recognition.Described
