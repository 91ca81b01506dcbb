import RouteBook.Json.Parse
import RouteBook.Main
import RouteBook.Proofs.Describe.Answers
import RouteBook.Proofs.Schema.WellFormed
import RouteBook.Proofs.Describe.WellFormed
import RouteBook.Proofs.Describe.Wrappers
import RouteBook.Proofs.Describe.Run
import RouteBook.Proofs.Describe.Context
import RouteBook.Proofs.Describe.Registry
import RouteBook.Proofs.Schema.Branch
import RouteBook.Proofs.Describe.Nesting
import RouteBook.Proofs.Spring.RequestRows
import RouteBook.Proofs.Spring.RequestShape
import RouteBook.Proofs.Http.Compose
import RouteBook.Proofs.Spring.Routes
import RouteBook.Proofs.Pattern.Slashes
import RouteBook.Proofs.Pattern.Alignment
import RouteBook.Proofs.Pattern.Filter
import RouteBook.Proofs.Extract.Chapter
import RouteBook.Proofs.Extract.Grouping
import RouteBook.Proofs.Extract.Identifiers
import RouteBook.Proofs.Document.Renderable
import RouteBook.Proofs.Run.FileNames
import RouteBook.Proofs.Run.Merged
import RouteBook.Proofs.Run.OutputDirectory
import RouteBook.Proofs.Run.Overrides
import RouteBook.Proofs.Schema.Rows
import RouteBook.Proofs.Run.Modules
import RouteBook.Proofs.Declared.Index
import RouteBook.Proofs.Describe.Lookups
import RouteBook.Proofs.Source.Parsing
import RouteBook.Proofs.Source.Scanning
import RouteBook.Proofs.Declared.ReadTypes
import RouteBook.Proofs.Describe.Arrays
import RouteBook.Proofs.Spring.Names
import RouteBook.Proofs.Schema.Places
import RouteBook.Proofs.Schema.RowPlaces
import RouteBook.Proofs.Schema.Coverage
import RouteBook.Proofs.Document.RowKeys
import RouteBook.Proofs.Describe.Invariants
import RouteBook.Proofs.Describe.Samples
import RouteBook.Proofs.Describe.Records
import RouteBook.Proofs.Schema.Merging
import RouteBook.Proofs.Declared.Substitution
import RouteBook.Proofs.Describe.Generics
import RouteBook.Proofs.Spring.Nameless
import RouteBook.Proofs.Declared.SerdeItems
import RouteBook.Proofs.Pattern.Grammar
import RouteBook.Proofs.Pattern.OwnText
import RouteBook.Proofs.Spring.MergedParams
import RouteBook.Proofs.Schema.Bracketing
import RouteBook.Proofs.Spring.Bracketing
import RouteBook.Proofs.AsciiDoc.Writing
import RouteBook.Proofs.Document.Query
import RouteBook.Proofs.AsciiDoc.Table
import RouteBook.Proofs.AsciiDoc.Listings
import RouteBook.Proofs.Http.Headers
import RouteBook.Proofs.Text.Trimming
import RouteBook.Proofs.Text.Words
import RouteBook.Proofs.Doc.Blocks
import RouteBook.Proofs.Doc.EmptyLines
import RouteBook.Proofs.Doc.Chunks
import RouteBook.Proofs.Decimal.Numerals
import RouteBook.Proofs.Schema.Fallbacks
import RouteBook.Proofs.Declared.Composition
import RouteBook.Proofs.Declared.TypeTexts
import RouteBook.Proofs.Describe.TypeStack
import RouteBook.Proofs.Source.Numbers
import RouteBook.Proofs.Declared.IntegerArguments
