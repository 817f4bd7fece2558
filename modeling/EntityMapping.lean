import EntityMapping.Convention.Overrides
import EntityMapping.DatabaseTarget
import EntityMapping.Description.Schema
import EntityMapping.Environment
import EntityMapping.Workbench
import EntityMapping.Proofs.Document
import EntityMapping.Proofs.Naming.Fresh
import EntityMapping.Proofs.Outcome
import EntityMapping.Proofs.Relational.Table
import EntityMapping.Proofs.Derivation.ColumnProperty
import EntityMapping.Proofs.Derivation.Reference
import EntityMapping.Proofs.Derivation.FirstPass
import EntityMapping.Proofs.Derivation.Collection
import EntityMapping.Proofs.Derivation.Run
import EntityMapping.Proofs.ColumnOwnership
import EntityMapping.Proofs.Relational.Typed
import EntityMapping.Proofs.Relational.Normalized
import EntityMapping.Proofs.ReferenceCoverage
import EntityMapping.Proofs.Bidirectional
import EntityMapping.Proofs.EntityGraph
import EntityMapping.Proofs.CollectionExactness
import EntityMapping.Proofs.DistinctNamesThroughout
import EntityMapping.Proofs.Convention.Total
import EntityMapping.Proofs.FirstRepeat
import EntityMapping.Proofs.Derivation.Progress
import EntityMapping.Proofs.Derivation.NameClash
import EntityMapping.Proofs.FirstFailure
import EntityMapping.Proofs.TableOrder
import EntityMapping.Proofs.SchemaExtension
import EntityMapping.Proofs.CompositePreference
import EntityMapping.Proofs.Description.PooledRows
import EntityMapping.Proofs.Entity.Naming
import EntityMapping.Proofs.Derivation.TwoPasses
import EntityMapping.Proofs.Derivation.Outline
import EntityMapping.Proofs.Entity.Normalized
import EntityMapping.Proofs.Derivation.Normalization
import EntityMapping.Proofs.DefaultQualifiers
import EntityMapping.Proofs.Entity.Renamed
import EntityMapping.Proofs.Derivation.Renaming
import EntityMapping.Proofs.PackagePrefix
import EntityMapping.Proofs.Derivation.CollectStep
import EntityMapping.Proofs.CollectingOrder
import EntityMapping.Proofs.BindingSession
import EntityMapping.Proofs.ReferenceDecision
import EntityMapping.Proofs.KeyIdentifier
import EntityMapping.Proofs.VersionSelection
import EntityMapping.Proofs.Text.Ascii
import EntityMapping.Proofs.Naming.Words
import EntityMapping.Proofs.Naming.CamelCase
import EntityMapping.Proofs.ReferenceNames
import EntityMapping.Proofs.ScalarNames
import EntityMapping.Proofs.WarningLog
import EntityMapping.Proofs.Relational.Declaration
import EntityMapping.Proofs.Description.Typed
import EntityMapping.Proofs.Description.Readable
import EntityMapping.Proofs.Description.Relationships
import EntityMapping.Proofs.Relational.WellFormed
import EntityMapping.Proofs.ColumnPairs
import EntityMapping.Proofs.Inspection.Reading
import EntityMapping.Proofs.FileSearch
import EntityMapping.Proofs.Naming.Segmentation
import EntityMapping.Proofs.Naming.Letters
import EntityMapping.Proofs.Text.Recase
import EntityMapping.Proofs.IdReferences
import EntityMapping.Proofs.Text.Blank
import EntityMapping.Proofs.Convention.ExactNumbers
import EntityMapping.Proofs.NameSearch
import EntityMapping.Proofs.IndexPartition
import EntityMapping.Proofs.Description.RowGroups
import EntityMapping.Proofs.SealedEntity
