import Schemata.ForeignKey
import Schemata.ObjectName
import Schemata.Column

/-!
# Statements

The data-definition statements that the library understands, as values.  Everything else is kept as
text.  The readers are in the modules under `Schemata.Statement`.

A value holds what its statement says, apart from what no catalog would show: sort orders of
indexes, collations, generation rules and the like are read and dropped.  A table is declared with
finished columns and foreign keys (`CreateTable`), while an altered one gets its constraints as
written (`Operation`), since what they mean depends on the table.
-/

namespace Schemata

/-- A constraint of a table as a whole. -/
inductive TableConstraint where
  /-- The primary key. -/
  | primaryKey (name : Option String) (columns : List String)
  /-- A foreign key. -/
  | foreignKey (constraint : ForeignKeyConstraint)
  /-- No two rows agree on the columns. -/
  | unique (name : Option String) (columns : List String)
  /-- A condition on each row. -/
  | check (name : Option String) (expression : String)
  /-- Any other constraint, as written. -/
  | other (text : String)
  deriving DecidableEq, Repr, Inhabited

/-- A column as declared, with the foreign key declared in place. -/
structure ColumnDefinition where
  /-- The column with its constraints. -/
  column : Column
  /-- The foreign key of its `REFERENCES` clause. -/
  foreignKey : Option ForeignKeyConstraint
  deriving DecidableEq, Repr, Inhabited

/-- A change to a declared column. -/
inductive ColumnChange where
  | type (columnType : ColumnType)
  | setNotNull
  | dropNotNull
  | setDefault (expression : String)
  | dropDefault
  /-- Any other change, as written. -/
  | unsupported (text : String)
  deriving DecidableEq, Repr, Inhabited

/-- What an `ALTER TABLE` statement does to its table. -/
inductive Operation where
  | addColumn (definition : ColumnDefinition) (ifNotExists : Bool)
  | dropColumn (column : String) (ifExists : Bool)
  | alterColumn (column : String) (change : ColumnChange)
  | renameColumn (source target : String)
  | renameTable (target : String)
  | addConstraint (constraint : TableConstraint)
  | dropConstraint (name : String) (ifExists : Bool)
  | renameConstraint (source target : String)
  /-- Several operations, each as written. -/
  | several (clauses : List String)
  /-- Any other operation, as written. -/
  | unsupported (text : String)
  deriving DecidableEq, Repr, Inhabited

/-- `CREATE TABLE`. -/
structure CreateTable where
  name : ObjectName
  ifNotExists : Bool
  /-- The columns in order, with the flags of table-level constraints set. -/
  columns : List Column
  /-- The foreign keys in the order written. -/
  foreignKeys : List ForeignKey
  /-- The columns of a table-level primary key. -/
  primaryKey : List String
  deriving DecidableEq, Repr, Inhabited

/-- `ALTER TABLE`. -/
structure AlterTable where
  name : ObjectName
  ifExists : Bool
  operation : Operation
  deriving DecidableEq, Repr, Inhabited

/-- `CREATE INDEX`. -/
structure CreateIndex where
  /-- The name, when written. -/
  name : Option String
  table : ObjectName
  /-- The indexed columns or expressions. -/
  columns : List String
  unique : Bool
  ifNotExists : Bool
  deriving DecidableEq, Repr, Inhabited

/-- `CREATE SCHEMA`. -/
structure CreateSchema where
  name : String
  ifNotExists : Bool
  deriving DecidableEq, Repr, Inhabited

/-- `CREATE TYPE … AS ENUM`. -/
structure CreateEnum where
  name : ObjectName
  values : List String
  deriving DecidableEq, Repr, Inhabited

/-- A `DROP` statement of one kind of object. -/
structure Removal (α : Type) where
  /-- The objects to drop. -/
  names : List α
  ifExists : Bool
  /-- Dependent objects go too. -/
  cascade : Bool
  deriving DecidableEq, Repr, Inhabited

/-- A data-definition statement. -/
inductive Statement where
  | createTable (statement : CreateTable)
  | alterTable (statement : AlterTable)
  | dropTables (removal : Removal ObjectName)
  | createIndex (statement : CreateIndex)
  | dropIndexes (removal : Removal ObjectName)
  | createSchema (statement : CreateSchema)
  | dropSchemas (removal : Removal String)
  | createEnum (statement : CreateEnum)
  | dropTypes (removal : Removal ObjectName)
  /-- Any other statement, as written. -/
  | unknown (text : String)
  deriving DecidableEq, Repr, Inhabited

/-- The kind of a statement, by its leading keywords. -/
def Statement.kind : Statement → String
  | createTable _ => "CREATE TABLE"
  | alterTable _ => "ALTER TABLE"
  | dropTables _ => "DROP TABLE"
  | createIndex _ => "CREATE INDEX"
  | dropIndexes _ => "DROP INDEX"
  | createSchema _ => "CREATE SCHEMA"
  | dropSchemas _ => "DROP SCHEMA"
  | createEnum _ => "CREATE TYPE AS ENUM"
  | dropTypes _ => "DROP TYPE"
  | unknown _ => "UNKNOWN"

end Schemata
