import RecordSchema.Annotation
import RecordSchema.Default
import RecordSchema.Fault
import RecordSchema.Field.Arguments
import RecordSchema.Field.Factory
import RecordSchema.Field.Kind
import RecordSchema.Field.Legality
import RecordSchema.Field.Resolver
import RecordSchema.Field.Spec
import RecordSchema.Field.Type
import RecordSchema.Graph.Catalogue
import RecordSchema.Graph.Execute
import RecordSchema.Graph.Input
import RecordSchema.Graph.Request
import RecordSchema.Graph.Scalar
import RecordSchema.Graph.Script
import RecordSchema.Graph.Type
import RecordSchema.Json.Reader
import RecordSchema.Json.Writer
import RecordSchema.Number.Base36
import RecordSchema.Number.Binary64
import RecordSchema.Number.Decimal
import RecordSchema.Number.Digits
import RecordSchema.Obligation
import RecordSchema.Relation.Input
import RecordSchema.Relation.Plan
import RecordSchema.Relation.Shapes
import RecordSchema.Request.Context
import RecordSchema.Request.Gather
import RecordSchema.Request.Read
import RecordSchema.Request.Resolve
import RecordSchema.Request.Search
import RecordSchema.Request.Write
import RecordSchema.Schema
import RecordSchema.Schema.Declaration
import RecordSchema.Schema.Names
import RecordSchema.Shape
import RecordSchema.Shape.Conforms
import RecordSchema.Shape.Derive
import RecordSchema.Shape.Printer
import RecordSchema.Shape.Subtype
import RecordSchema.Shape.Union
import RecordSchema.Sorting
import RecordSchema.Spelling
import RecordSchema.Store
import RecordSchema.Store.Cell
import RecordSchema.Store.Column
import RecordSchema.Store.Condition
import RecordSchema.Store.Expression
import RecordSchema.Store.Filter
import RecordSchema.Store.Layout
import RecordSchema.Store.Links
import RecordSchema.Store.Query
import RecordSchema.Store.Record
import RecordSchema.Supply
import RecordSchema.Text.Case
import RecordSchema.Text.CaseTable
import RecordSchema.Text.CharSet
import RecordSchema.Text.Generated
import RecordSchema.Text.Name
import RecordSchema.Text.Plural
import RecordSchema.Text.Quoted
import RecordSchema.Time.DateTime
import RecordSchema.Time.Iso
import RecordSchema.TypeExpr
import RecordSchema.Value
import RecordSchema.Value.Plain
import RecordSchema.Value.Printer
import RecordSchema.Proofs.Request.Work
import RecordSchema.Proofs.Schema.Compiled
import RecordSchema.Proofs.Relation.OneToOne
import RecordSchema.Proofs.Relation.Quantified
import RecordSchema.Proofs.Relation.Update
import RecordSchema.Proofs.Shape.Subtype
import RecordSchema.Proofs.Store.Searching
import RecordSchema.Proofs.Relation.Filtered
import RecordSchema.Proofs.Store.Order
import RecordSchema.Proofs.Store.Paging
import RecordSchema.Proofs.Field.Generates
import RecordSchema.Proofs.Field.Identity
import RecordSchema.Proofs.Relation.Agreement
import RecordSchema.Proofs.Request.Driver
import RecordSchema.Proofs.Request.Output
import RecordSchema.Proofs.Request.Growth
import RecordSchema.Proofs.Request.Refused
import RecordSchema.Proofs.Store.Clashes
import RecordSchema.Proofs.Relation.JoinNames
import RecordSchema.Proofs.Relation.Symmetry
import RecordSchema.Proofs.Request.Stamped
import RecordSchema.Proofs.Request.Identified
import RecordSchema.Proofs.Request.KeptIds
import RecordSchema.Proofs.Graph.RootFields
import RecordSchema.Proofs.Relation.LinkCalls
import RecordSchema.Proofs.Request.Frame
import RecordSchema.Proofs.Store.Connectives
import RecordSchema.Proofs.Store.Folding
import RecordSchema.Proofs.Request.Counting
import RecordSchema.Proofs.Shape.Preorder
import RecordSchema.Proofs.Shape.Records
import RecordSchema.Proofs.Request.SearchArgs
import RecordSchema.Proofs.Value.Plain
import RecordSchema.Proofs.Relation.Verbs
import RecordSchema.Proofs.Relation.Reordered
import RecordSchema.Proofs.Field.Filling
import RecordSchema.Proofs.Field.Foreseen
import RecordSchema.Proofs.Schema.Reports
import RecordSchema.Proofs.Relation.Missing
import RecordSchema.Proofs.Request.Isolated
import RecordSchema.Proofs.Number.Base36
import RecordSchema.Proofs.Text.SnakeCase
import RecordSchema.Proofs.Request.Restricted
import RecordSchema.Proofs.Request.Computed
import RecordSchema.Proofs.Request.Mapping
import RecordSchema.Proofs.Graph.KeyNames
