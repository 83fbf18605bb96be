import EntityTypings.Attribute.Basic
import EntityTypings.Attribute.Codec
import EntityTypings.Catalog
import EntityTypings.Decimal.Layout
import EntityTypings.Decimal.Shortest
import EntityTypings.Dialect
import EntityTypings.Generation.Notice
import EntityTypings.Generation.Output
import EntityTypings.Generation.Pass
import EntityTypings.Generation.Report
import EntityTypings.Generation.SoftError
import EntityTypings.Json.Decode
import EntityTypings.Json.Error
import EntityTypings.Json.Reader
import EntityTypings.Json.Scan
import EntityTypings.Json.Skip
import EntityTypings.Json.TextRecord
import EntityTypings.Json.Value
import EntityTypings.Json.Writer
import EntityTypings.Listing
import EntityTypings.NameTable
import EntityTypings.Proofs.First
import EntityTypings.Proofs.Generation.Attributes
import EntityTypings.Proofs.Generation.Comparison
import EntityTypings.Proofs.Generation.Declarations
import EntityTypings.Proofs.Generation.EntityTypeMap
import EntityTypings.Proofs.Generation.Failure
import EntityTypings.Proofs.Generation.FirstFailure
import EntityTypings.Proofs.Generation.Insertion
import EntityTypings.Proofs.Generation.InterfaceMembers
import EntityTypings.Proofs.Generation.Layout
import EntityTypings.Proofs.Generation.Members
import EntityTypings.Proofs.Generation.Names
import EntityTypings.Proofs.Generation.Notices
import EntityTypings.Proofs.Generation.Outcome
import EntityTypings.Proofs.Generation.Recording
import EntityTypings.Proofs.Generation.Redeclaration
import EntityTypings.Proofs.Generation.Reordering
import EntityTypings.Proofs.Generation.Sessions
import EntityTypings.Proofs.Generation.Settings
import EntityTypings.Proofs.Generation.SoftErrors
import EntityTypings.Proofs.Generation.Strictness
import EntityTypings.Proofs.Generation.Subtypes
import EntityTypings.Proofs.Generation.TypedListings
import EntityTypings.Proofs.Generation.Walk
import EntityTypings.Proofs.Inheritance.Acyclicity
import EntityTypings.Proofs.Inheritance.Catalog
import EntityTypings.Proofs.Inheritance.Chain
import EntityTypings.Proofs.Inheritance.Insertion
import EntityTypings.Proofs.Inheritance.Reordering
import EntityTypings.Proofs.Inheritance.Resolution
import EntityTypings.Proofs.Inheritance.Retention
import EntityTypings.Proofs.Inheritance.TypedContext
import EntityTypings.Proofs.Json.Parts
import EntityTypings.Proofs.Json.ReadBack
import EntityTypings.Proofs.Json.Records
import EntityTypings.Proofs.Json.Settled
import EntityTypings.Proofs.Json.Tokens
import EntityTypings.Proofs.Json.Writer
import EntityTypings.Proofs.Listing.Acceptance
import EntityTypings.Proofs.Listing.RoundTrip
import EntityTypings.Proofs.NameTable
import EntityTypings.Proofs.Sample.Declarations
import EntityTypings.Proofs.Sample.Schemas
import EntityTypings.Proofs.Schema.Consistency
import EntityTypings.Proofs.Schema.Violations
import EntityTypings.Proofs.Settings.Banner
import EntityTypings.Proofs.Text.Bytes
import EntityTypings.Proofs.Text.Lines
import EntityTypings.Proofs.TypeScript.Canonical
import EntityTypings.Proofs.TypeScript.Comments
import EntityTypings.Proofs.TypeScript.DocComments
import EntityTypings.Proofs.TypeScript.Faults
import EntityTypings.Proofs.TypeScript.Gaps
import EntityTypings.Proofs.TypeScript.Grammar
import EntityTypings.Proofs.TypeScript.Grouping
import EntityTypings.Proofs.TypeScript.InterfaceText
import EntityTypings.Proofs.TypeScript.Lines
import EntityTypings.Proofs.TypeScript.Literals
import EntityTypings.Proofs.TypeScript.Mapping
import EntityTypings.Proofs.TypeScript.MemberLines
import EntityTypings.Proofs.TypeScript.Narrowing
import EntityTypings.Proofs.TypeScript.References
import EntityTypings.Proofs.TypeScript.Tokens
import EntityTypings.Proofs.TypeScript.Typing
import EntityTypings.Proofs.TypeScript.Written
import EntityTypings.Sample
import EntityTypings.Schema.Basic
import EntityTypings.Schema.Codec
import EntityTypings.Schema.Consistency
import EntityTypings.Schema.DeclaredType
import EntityTypings.Settings.Basic
import EntityTypings.Settings.Reader
import EntityTypings.Settings.Timestamp
import EntityTypings.Settings.TimestampText
import EntityTypings.Text.Blank
import EntityTypings.Text.Escaped
import EntityTypings.Text.Printable
import EntityTypings.TypeScript.DocComment
import EntityTypings.TypeScript.Interface
import EntityTypings.TypeScript.Literal
import EntityTypings.TypeScript.Mapping
import EntityTypings.TypeScript.Narrowing
import EntityTypings.TypeScript.Registry
import EntityTypings.TypeScript.TypeExpr
