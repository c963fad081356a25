import EntityRelation.Cardinality
import EntityRelation.Catalog
import EntityRelation.ClassPlan
import EntityRelation.ColumnType
import EntityRelation.CommandLine
import EntityRelation.CommandLine.Arguments
import EntityRelation.CommandLine.Help
import EntityRelation.Compile
import EntityRelation.Dependency.Graph
import EntityRelation.Dependency.OfSchema
import EntityRelation.Dependency.Order
import EntityRelation.Dependency.Strength
import EntityRelation.Diagram
import EntityRelation.Diagram.Decode
import EntityRelation.Diagram.Encode
import EntityRelation.Diagram.Format
import EntityRelation.Event
import EntityRelation.Event.Line
import EntityRelation.Failure
import EntityRelation.FieldCall
import EntityRelation.FileSystem
import EntityRelation.FileSystem.Path
import EntityRelation.FileSystem.Tree
import EntityRelation.FileSystem.World
import EntityRelation.ForeignKey
import EntityRelation.Json.Number
import EntityRelation.Json.Printer
import EntityRelation.Json.Reader
import EntityRelation.Json.Text
import EntityRelation.Junction
import EntityRelation.KeyPlace
import EntityRelation.Logged
import EntityRelation.Main
import EntityRelation.Number
import EntityRelation.Number.Binary64
import EntityRelation.Number.Read
import EntityRelation.Number.Shortest
import EntityRelation.Outline
import EntityRelation.Outline.Page
import EntityRelation.Publish
import EntityRelation.Run
import EntityRelation.Schema
import EntityRelation.Settings
import EntityRelation.Settings.Codec
import EntityRelation.Settings.Load
import EntityRelation.TableModule
import EntityRelation.Text.Blank
import EntityRelation.Text.LetterCase
import EntityRelation.Text.Lines
import EntityRelation.Text.Lowercase
import EntityRelation.Text.Quoted
import EntityRelation.Toml.Reader
import EntityRelation.Toml.Scalar
import EntityRelation.Toml.Table
import EntityRelation.Toml.Text
import EntityRelation.Tree
import EntityRelation.Tree.Read
import EntityRelation.Tree.Word
import EntityRelation.Yaml.Cursor
import EntityRelation.Yaml.Reader
import EntityRelation.Yaml.Scalar
import EntityRelation.Yaml.Token
import EntityRelation.Proofs.Dependency.History
import EntityRelation.Proofs.Dependency.Rounds
import EntityRelation.Proofs.Dependency.Respect
import EntityRelation.Proofs.Schema.Resolution
import EntityRelation.Proofs.Dependency.OfSchema
import EntityRelation.Proofs.Catalog.Acceptance
import EntityRelation.Proofs.Catalog.Between
import EntityRelation.Proofs.Catalog.Checking
import EntityRelation.Proofs.Compile.Outcome
import EntityRelation.Proofs.Compile.Realisation
import EntityRelation.Proofs.Cycle
import EntityRelation.Proofs.Dependency.Loop
import EntityRelation.Proofs.Dependency.SoftFirst
import EntityRelation.Proofs.Compile.Deferral
import EntityRelation.Proofs.Compile.ClassNames
import EntityRelation.Proofs.SortedByKey
import EntityRelation.Proofs.Dependency.Layers
import EntityRelation.Proofs.Dependency.Behind
import EntityRelation.Proofs.Dependency.Answers
import EntityRelation.Proofs.Dependency.Rearranged
import EntityRelation.Proofs.Module.SameKeys
import EntityRelation.Proofs.Schema.Ends
import EntityRelation.Proofs.Schema.Exchange
import EntityRelation.Proofs.Compile.Exchange
import EntityRelation.Proofs.Compile.Independence
import EntityRelation.Proofs.Dependency.Edges
import EntityRelation.Proofs.Dependency.Parts
import EntityRelation.Proofs.Dependency.Unrelated
import EntityRelation.Proofs.Module.Blocks
import EntityRelation.Proofs.Module.Origins
import EntityRelation.Proofs.Module.Paging
import EntityRelation.Proofs.Text.OneLine
import EntityRelation.Proofs.Module.OneLine
import EntityRelation.Proofs.Compile.OneLine
import EntityRelation.Proofs.Text.TripleQuoted
import EntityRelation.Proofs.Module.DocStrings
import EntityRelation.Proofs.Schema.Building
import EntityRelation.Proofs.Compile.JunctionKeys
import EntityRelation.Proofs.Module.Fields
import EntityRelation.Proofs.Module.Arguments
import EntityRelation.Proofs.Module.Repeats
import EntityRelation.Proofs.Text.Quoted
import EntityRelation.Proofs.Compile.Labels
import EntityRelation.Proofs.FileSystem.Routes
import EntityRelation.Proofs.FileSystem.Changes
import EntityRelation.Proofs.FileSystem.Runs
import EntityRelation.Proofs.Publish.Effect
import EntityRelation.Proofs.Publish.Containment
import EntityRelation.Proofs.Dependency.Listing
import EntityRelation.Proofs.Diagram.Spelling
