import SchemaTypes.Acquisition
import SchemaTypes.Command
import SchemaTypes.CommandLine.Flag
import SchemaTypes.CommandLine.Help
import SchemaTypes.CommandLine.Parsing
import SchemaTypes.Decimal.Nearest
import SchemaTypes.Decimal.Shortest
import SchemaTypes.Entries
import SchemaTypes.Files.Fault
import SchemaTypes.Files.Tree
import SchemaTypes.Finding
import SchemaTypes.Format
import SchemaTypes.Generation
import SchemaTypes.Host
import SchemaTypes.Json.Failure
import SchemaTypes.Json.Numeral
import SchemaTypes.Json.Quoted
import SchemaTypes.Json.Reading
import SchemaTypes.Json.Tree
import SchemaTypes.Marker
import SchemaTypes.Merging
import SchemaTypes.Outline
import SchemaTypes.Path
import SchemaTypes.Program
import SchemaTypes.Rendering
import SchemaTypes.Schema.Catalogue
import SchemaTypes.Schema.Document
import SchemaTypes.Schema.Node
import SchemaTypes.Schema.Parsing
import SchemaTypes.Schema.Reading
import SchemaTypes.Search
import SchemaTypes.Settings
import SchemaTypes.Settings.Loading
import SchemaTypes.Shape
import SchemaTypes.Shape.Lowering
import SchemaTypes.Shape.Typing
import SchemaTypes.Text.Blank
import SchemaTypes.Text.CaseTable
import SchemaTypes.Text.Digit
import SchemaTypes.Text.HiddenTable
import SchemaTypes.Text.Lowercase
import SchemaTypes.Text.Part
import SchemaTypes.Text.Shown
import SchemaTypes.Toml.Document
import SchemaTypes.Toml.Quoted
import SchemaTypes.Toml.Reader
import SchemaTypes.Toml.Term
import SchemaTypes.Toml.Word
import SchemaTypes.TypeScript.Interface
import SchemaTypes.TypeScript.Name
import SchemaTypes.Value
import SchemaTypes.World
import SchemaTypes.Yaml.Block
import SchemaTypes.Yaml.Cursor
import SchemaTypes.Yaml.Folding
import SchemaTypes.Yaml.Lexer
import SchemaTypes.Yaml.Node
import SchemaTypes.Yaml.Plain
import SchemaTypes.Yaml.Quoted
import SchemaTypes.Yaml.Reading
import SchemaTypes.Yaml.Scalar
import SchemaTypes.Yaml.Token
import SchemaTypes.Main
import SchemaTypes.Proofs.Entries.Alike
import SchemaTypes.Proofs.Entries.History
import SchemaTypes.Proofs.Finding.Agreement
import SchemaTypes.Proofs.Finding.Subject
import SchemaTypes.Proofs.Generation.Closed
import SchemaTypes.Proofs.Generation.Isolation
import SchemaTypes.Proofs.Json.Form
import SchemaTypes.Proofs.Json.Replacement
import SchemaTypes.Proofs.Merging.History
import SchemaTypes.Proofs.Merging.Overlay
import SchemaTypes.Proofs.Schema.Keyword
import SchemaTypes.Proofs.Schema.Reading
import SchemaTypes.Proofs.Schema.Replacement
import SchemaTypes.Proofs.TypeScript.Comment
import SchemaTypes.Proofs.TypeScript.Emission
import SchemaTypes.Proofs.TypeScript.Grammar
import SchemaTypes.Proofs.TypeScript.Precedence
import SchemaTypes.Proofs.TypeScript.Reader
import SchemaTypes.Proofs.Entries.Order
import SchemaTypes.Proofs.Generation.Options
import SchemaTypes.Proofs.Merging.Disjoint
import SchemaTypes.Proofs.Decimal.Magnitude
import SchemaTypes.Proofs.Json.Number
import SchemaTypes.Proofs.Schema.Acceptance
import SchemaTypes.Proofs.Files.Place
import SchemaTypes.Proofs.Files.Parent
import SchemaTypes.Proofs.World.Writing
import SchemaTypes.Proofs.World.Acquiring
import SchemaTypes.Proofs.Command.Atomic
import SchemaTypes.Proofs.Schema.Definition
import SchemaTypes.Proofs.Schema.Insertion
import SchemaTypes.Proofs.Schema.Members
import SchemaTypes.Proofs.Schema.Listed
import SchemaTypes.Proofs.Files.Alike
import SchemaTypes.Proofs.World.Alike
import SchemaTypes.Proofs.Command.Address
import SchemaTypes.Proofs.Schema.Layers
import SchemaTypes.Proofs.Text.Sigma
import SchemaTypes.Proofs.Text.LetterCase
import SchemaTypes.Proofs.Search.Selection
import SchemaTypes.Proofs.TypeScript.Literal
import SchemaTypes.Proofs.Json.Printed
import SchemaTypes.Proofs.Command.Encodings
import SchemaTypes.Proofs.Toml.Distinct
import SchemaTypes.Proofs.Settings.Layers
import SchemaTypes.Proofs.Command.Layering
import SchemaTypes.Proofs.World.Retrying
