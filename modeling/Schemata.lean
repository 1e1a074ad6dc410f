import Schemata.Catalog.Alteration
import Schemata.Effect
import Schemata.Migration
import Schemata.Relation
import Schemata.Settings
import Schemata.Snapshot
import Schemata.Statement.Reading
import Schemata.Proofs.Catalog.Lookup
import Schemata.Proofs.Outcome
import Schemata.Proofs.Table.Edit
import Schemata.Proofs.Catalog.Batch
import Schemata.Proofs.Catalog.Integrity
import Schemata.Proofs.Effect
import Schemata.Proofs.Catalog.Reachable
import Schemata.Proofs.PrimaryKeys
import Schemata.Proofs.ObjectName
import Schemata.Proofs.Statement.Operation
import Schemata.Proofs.Statement.Clauses
import Schemata.Proofs.Rejection
import Schemata.Proofs.RelationFiles
import Schemata.Proofs.Relation
import Schemata.Proofs.Statement.TableDeclaration
import Schemata.Proofs.Statement.Depth
import Schemata.Proofs.Statement.EnumDeclaration
import Schemata.Proofs.Statement.TableRemoval
import Schemata.Proofs.Catalog.Renaming
import Schemata.Proofs.Catalog.Dropping
import Schemata.Proofs.Families
import Schemata.Proofs.Catalog.Relabelling
import Schemata.Proofs.Provenance.Erasure
import Schemata.Proofs.Provenance.Reading
import Schemata.Proofs.Provenance.Catalog
import Schemata.Proofs.Provenance.Replay
import Schemata.Proofs.Statement.Quoted
import Schemata.Proofs.Statement.ColumnReading
import Schemata.Proofs.Catalog.Extension
import Schemata.Proofs.Statement.Success
import Schemata.Proofs.Declaring
import Schemata.Proofs.KeyPlacement
import Schemata.Proofs.Undoing
import Schemata.Proofs.Statement.KeyDeclaration
import Schemata.Proofs.Statement.TableClauses
import Schemata.Proofs.Statement.Extending
import Schemata.Proofs.Statement.Suffix
import Schemata.Proofs.Statement.ReferenceClause
import Schemata.Proofs.Catalog.Independence
import Schemata.Proofs.Referring
import Schemata.Proofs.Statement.ColumnParts
import Schemata.Proofs.ConstraintNames
import Schemata.Proofs.GroupSpacing
import Schemata.Proofs.TypeText
import Schemata.Proofs.Repeating
import Schemata.Proofs.ConstraintOrder
import Schemata.Proofs.Statement.Following
import Schemata.Proofs.Statement.GroupExchange
import Schemata.Proofs.Statement.TableParts
import Schemata.Proofs.Text.BalanceCheck
import Schemata.Proofs.ClauseOrder
import Schemata.Proofs.Snapshot
import Schemata.Proofs.Text.Splitting
import Schemata.Proofs.Text.Group
import Schemata.Proofs.Statement.Walking
import Schemata.Proofs.Statement.Pointing
