import TypedTables.Files.Tree
import TypedTables.Main
import TypedTables.Proofs.Clause.Flaw
import TypedTables.Proofs.Clause.Grouping
import TypedTables.Proofs.Clause.Meaning
import TypedTables.Proofs.Command.Plan
import TypedTables.Proofs.Database.Refresh
import TypedTables.Proofs.Extraction.Chain
import TypedTables.Proofs.Extraction.Target
import TypedTables.Proofs.Generation.Idempotence
import TypedTables.Proofs.Mapping.Default
import TypedTables.Proofs.Mapping.Reading
import TypedTables.Proofs.Query.Key
import TypedTables.Proofs.Query.Payload
import TypedTables.Proofs.Query.Single
import TypedTables.Proofs.Registry.Run
import TypedTables.Proofs.Schema.CreationOrder
import TypedTables.Proofs.Schema.Repetition
import TypedTables.Proofs.Source.Fingerprint
import TypedTables.Proofs.Source.Header
import TypedTables.Proofs.Source.Position
import TypedTables.Proofs.Source.Schema
import TypedTables.Proofs.Sql.Statement
import TypedTables.Proofs.Storage.Locator
import TypedTables.Proofs.Storage.Question
