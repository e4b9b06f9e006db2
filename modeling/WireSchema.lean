import WireSchema.Text.Blank
import WireSchema.Text.Casing
import WireSchema.Text.Numeral
import WireSchema.Text.Comment
import WireSchema.Text.Hex
import WireSchema.Text.Uuid
import WireSchema.Decimal.Nearest
import WireSchema.Decimal.Shortest
import WireSchema.Decimal.Literal
import WireSchema.VersionRange
import WireSchema.FieldType
import WireSchema.Json.Basic
import WireSchema.Json.Token
import WireSchema.Json.Reader
import WireSchema.Json.Printer
import WireSchema.Files.Fault
import WireSchema.Schema.Basic
import WireSchema.Schema.Error
import WireSchema.Schema.Document
import WireSchema.Schema.Load
import WireSchema.Registry
import WireSchema.AtVersion
import WireSchema.Imports
import WireSchema.Backend.Basic
import WireSchema.Backend.Rust
import WireSchema.Backend.Outline
import WireSchema.Manifest
import WireSchema.Instance
import WireSchema.Fixture.Error
import WireSchema.Fixture.Key
import WireSchema.Fixture.Node
import WireSchema.Fixture.Tagged
import WireSchema.Fixture.Default
import WireSchema.Fixture.Materialize
import WireSchema.Files.Path
import WireSchema.Files.System
import WireSchema.Files.Tree
import WireSchema.Output
import WireSchema.CommandLine
import WireSchema.Main
import WireSchema.Proofs.Declarations
import WireSchema.Proofs.Loaded
import WireSchema.Proofs.References
import WireSchema.Proofs.Definitions
import WireSchema.Proofs.Conformance
import WireSchema.Proofs.Agreement
import WireSchema.Proofs.Registration
import WireSchema.Proofs.Repetition
import WireSchema.Proofs.Promotion
import WireSchema.Proofs.SharedFields
import WireSchema.Proofs.VersionRanges
import WireSchema.Proofs.RegistrationOrder
import WireSchema.Proofs.Acceptance
import WireSchema.Proofs.WellFormed
import WireSchema.Proofs.EffectiveVersions
import WireSchema.Proofs.Persistence
import WireSchema.Proofs.Isolation
import WireSchema.Proofs.Constructible
import WireSchema.Proofs.Grounded
import WireSchema.Proofs.Rendering
import WireSchema.Proofs.ByteTexts
import WireSchema.Proofs.RoundTrip
import WireSchema.Proofs.Effects
import WireSchema.Proofs.Positions
import WireSchema.Proofs.KeyOrder
import WireSchema.Proofs.Casing
import WireSchema.Proofs.Identifiers
import WireSchema.Proofs.Lines
import WireSchema.Proofs.DeclaredFields
import WireSchema.Proofs.EmissionOrder
import WireSchema.Proofs.Generation
import WireSchema.Proofs.LastWrite
import WireSchema.Proofs.FileTrees
import WireSchema.Proofs.Manifests
import WireSchema.Proofs.OutputRuns
import WireSchema.Proofs.GeneratedTree
import WireSchema.Proofs.ImportSets
import WireSchema.Proofs.NestedDefaults
import WireSchema.Proofs.FixtureKeys
import WireSchema.Proofs.UnitImports
import WireSchema.Proofs.ImportTexts
import WireSchema.Proofs.ImportLayout
import WireSchema.Proofs.ModuleOrder
import WireSchema.Proofs.Numerals
import WireSchema.Proofs.IntegerDefaults
import WireSchema.Proofs.CommentedDocuments
import WireSchema.Proofs.TaggedEntries
import WireSchema.Proofs.TypeTexts
import WireSchema.Proofs.RangeTexts
import WireSchema.Proofs.SnakeNames
