import FieldRegistry.AggregateReader
import FieldRegistry.Allocation
import FieldRegistry.Catalog
import FieldRegistry.CommandLine.Arguments
import FieldRegistry.CommandLine.Run
import FieldRegistry.Compilation
import FieldRegistry.Diagnostic
import FieldRegistry.Dictionary
import FieldRegistry.Dimension
import FieldRegistry.Disk.Basic
import FieldRegistry.Disk.Path
import FieldRegistry.Disk.Tree
import FieldRegistry.Document.Fault
import FieldRegistry.Document.Node
import FieldRegistry.Document.NodeReader
import FieldRegistry.Document.Registry
import FieldRegistry.Document.Version
import FieldRegistry.Fault
import FieldRegistry.FileUnit
import FieldRegistry.Generation
import FieldRegistry.Journal
import FieldRegistry.Json.Basic
import FieldRegistry.Json.Reader
import FieldRegistry.Json.Writer
import FieldRegistry.Layout.Align
import FieldRegistry.Layout.Declaration
import FieldRegistry.Layout.Import
import FieldRegistry.Layout.Page
import FieldRegistry.Layout.Style
import FieldRegistry.Layout.StyleFile
import FieldRegistry.Layout.StyleReader
import FieldRegistry.Main
import FieldRegistry.Metadata
import FieldRegistry.NameTable
import FieldRegistry.OrderedMap
import FieldRegistry.Proofs.AllocationTargets
import FieldRegistry.Proofs.CatalogGrowth
import FieldRegistry.Proofs.Conservation
import FieldRegistry.Proofs.DictionaryCalls
import FieldRegistry.Proofs.DictionaryHistory
import FieldRegistry.Proofs.Extents
import FieldRegistry.Proofs.FilePasses
import FieldRegistry.Proofs.GenerationFaults
import FieldRegistry.Proofs.ImportedTypes
import FieldRegistry.Proofs.Inversion
import FieldRegistry.Proofs.LowerCase
import FieldRegistry.Proofs.Outcome
import FieldRegistry.Proofs.RankOrder
import FieldRegistry.Proofs.Runs
import FieldRegistry.Proofs.Stability
import FieldRegistry.Proofs.TypeGraph
import FieldRegistry.Ranking
import FieldRegistry.Schema.Basic
import FieldRegistry.Schema.Registry
import FieldRegistry.SourceModule
import FieldRegistry.Text.Blank
import FieldRegistry.Text.Case
import FieldRegistry.Text.CaseTable
import FieldRegistry.Text.Control
import FieldRegistry.Text.Decimal
import FieldRegistry.Text.HiddenTable
import FieldRegistry.Text.Pieces
import FieldRegistry.Text.Quoted
import FieldRegistry.Text.Shortest
import FieldRegistry.Text.Similarity
import FieldRegistry.Variable.Basic
import FieldRegistry.Variable.Reader
import FieldRegistry.Proofs.Interleaving
import FieldRegistry.Proofs.ArgumentOrder
import FieldRegistry.Proofs.ReaderSteps
import FieldRegistry.Proofs.ReaderFaults
import FieldRegistry.Proofs.JsonMembers
import FieldRegistry.Proofs.SchemaGuarantees
import FieldRegistry.Proofs.Lockstep
import FieldRegistry.Proofs.Outline
import FieldRegistry.Proofs.LetterCase
import FieldRegistry.Proofs.VariableHistory
import FieldRegistry.Proofs.ResolvedNames
import FieldRegistry.Proofs.Separators
import FieldRegistry.Proofs.MetadataText
import FieldRegistry.Proofs.DiskRuns
import FieldRegistry.Proofs.WrittenFiles
import FieldRegistry.Proofs.WrittenElements
import FieldRegistry.Proofs.LeafRoutes
import FieldRegistry.Proofs.DeclaredShapes
import FieldRegistry.Proofs.NameTables
import FieldRegistry.Proofs.ElementSlices
import FieldRegistry.Proofs.ArgumentNames
import FieldRegistry.Proofs.MovedMembers
import FieldRegistry.Proofs.Acceptance
import FieldRegistry.Proofs.DictionaryEffects
import FieldRegistry.Proofs.ArrangedImports
import FieldRegistry.Proofs.VersionTexts
import FieldRegistry.Proofs.CommentLines
import FieldRegistry.Proofs.AlignedDeclarations
