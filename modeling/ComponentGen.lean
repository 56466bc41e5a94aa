import ComponentGen.CommandLine
import ComponentGen.Component.Node
import ComponentGen.Component.Overlay
import ComponentGen.Component.Reading
import ComponentGen.Component.Sample
import ComponentGen.Composition.Dispatcher
import ComponentGen.Composition.Record
import ComponentGen.Declaration.Extraction
import ComponentGen.Declaration.Token
import ComponentGen.FileTree
import ComponentGen.Generated.ComponentModule
import ComponentGen.Generated.Import
import ComponentGen.Generated.Renderer
import ComponentGen.Generated.RendererStory
import ComponentGen.Generated.Story
import ComponentGen.Generation
import ComponentGen.Interface
import ComponentGen.JavaScript.Expr
import ComponentGen.JavaScript.Literal
import ComponentGen.Json.Basic
import ComponentGen.Json.Number
import ComponentGen.Json.Text
import ComponentGen.Jsx.Markup
import ComponentGen.Main
import ComponentGen.Naming
import ComponentGen.Number.Binary64
import ComponentGen.Number.Shortest
import ComponentGen.Options
import ComponentGen.OrderedMap
import ComponentGen.Placeholder.Index
import ComponentGen.Project
import ComponentGen.Resolved.Tree
import ComponentGen.Run
import ComponentGen.Style.Declaration
import ComponentGen.Style.Stylesheet
import ComponentGen.Template.Basic
import ComponentGen.Template.Command
import ComponentGen.Template.Expression
import ComponentGen.Template.Library
import ComponentGen.Template.Value
import ComponentGen.Text.LowerCase
import ComponentGen.Text.Ranges
import ComponentGen.Text.Split
import ComponentGen.Text.WordChar
import ComponentGen.Proofs.FileTree
import ComponentGen.Proofs.Induction
import ComponentGen.Proofs.Naming
import ComponentGen.Proofs.Naming.FileStems
import ComponentGen.Proofs.Naming.Hyphens
import ComponentGen.Proofs.Naming.RoundTrips
import ComponentGen.Proofs.OrderedMap
import ComponentGen.Proofs.Outcome
import ComponentGen.Proofs.Placeholder.Collisions
import ComponentGen.Proofs.Placeholder.Declared
import ComponentGen.Proofs.Resolved.Positions
import ComponentGen.Proofs.Resolved.Preorder
import ComponentGen.Proofs.Resolved.Spelling
import ComponentGen.Proofs.Style.ClassNames
import ComponentGen.Proofs.Style.ClassTable
import ComponentGen.Proofs.Style.Modes
import ComponentGen.Proofs.Text.Ascii
import ComponentGen.Proofs.Declaration.Braces
import ComponentGen.Proofs.Declaration.Seam
import ComponentGen.Proofs.Declaration.Modular
import ComponentGen.Proofs.Declaration.Members
import ComponentGen.Proofs.Declaration.Reading
import ComponentGen.Proofs.Declaration.RoundTrip
import ComponentGen.Proofs.Generated.Reads
import ComponentGen.Proofs.Generated.DeclaredReads
import ComponentGen.Proofs.Generated.ClassMarkup
import ComponentGen.Proofs.Generation.Outcome
import ComponentGen.Proofs.Generation.CommonSheet
import ComponentGen.Proofs.Generation.Strict
import ComponentGen.Proofs.Project
import ComponentGen.Proofs.Generation.Paths
import ComponentGen.Proofs.Declaration.Lossless
import ComponentGen.Proofs.Declaration.Positions.Basic
import ComponentGen.Proofs.Declaration.Positions.Windows
import ComponentGen.Proofs.Declaration.Positions.Faultless
import ComponentGen.Proofs.Declaration.TypeExpr
import ComponentGen.Proofs.Declaration.TopLevel
import ComponentGen.Proofs.Composition.Registry
import ComponentGen.Proofs.Composition.Rendering
import ComponentGen.Proofs.Component.Serialization
import ComponentGen.Proofs.Folders
import ComponentGen.Proofs.Run.Definitions
import ComponentGen.Proofs.Run.Steps
import ComponentGen.Proofs.Run.Effects
import ComponentGen.Proofs.Run.Again
import ComponentGen.Proofs.Run.Loading
import ComponentGen.Proofs.Jsx.Grammar
import ComponentGen.Proofs.JavaScript.Brackets
import ComponentGen.Proofs.Generated.TagTree
import ComponentGen.Proofs.Jsx.Reading
import ComponentGen.Proofs.JavaScript.Identifiers
import ComponentGen.Proofs.Generated.RendererRecords
import ComponentGen.Proofs.Generated.ImportLines
import ComponentGen.Proofs.Generation.Imports
import ComponentGen.Proofs.Generation.InlineMode
import ComponentGen.Proofs.Placeholder.CollisionLog
import ComponentGen.Proofs.Naming.Spellings
import ComponentGen.Proofs.Placeholder.SharedForms
import ComponentGen.Proofs.Component.Merging
import ComponentGen.Proofs.Component.Samples
import ComponentGen.Proofs.Generated.StoryArguments
import ComponentGen.Proofs.Composition.Pruning
import ComponentGen.Proofs.Text.Reading
import ComponentGen.Proofs.JavaScript.Strings
import ComponentGen.Proofs.JavaScript.UniqueReading
import ComponentGen.Proofs.Composition.Printing
import ComponentGen.Proofs.Positions
import ComponentGen.Proofs.Component.Leaves
import ComponentGen.Proofs.Generation.References
import ComponentGen.Proofs.Generated.RendererNames
import ComponentGen.Proofs.Generation.Bindings
import ComponentGen.Proofs.Number.Shortest
import ComponentGen.Proofs.Generated.RecordCalls
import ComponentGen.Proofs.Declaration.ClosedBlocks
import ComponentGen.Proofs.JavaScript.SelfDelimiting
import ComponentGen.Proofs.Text.Pieces
import ComponentGen.Proofs.Generated.PrintedReads
import ComponentGen.Proofs.Generated.PrintedVariables
import ComponentGen.Proofs.Generated.InsertedText
