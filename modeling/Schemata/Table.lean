import Schemata.CatalogError
import Schemata.ForeignKey
import Schemata.Index

/-!
# Tables

A table has columns in order, indexes and foreign keys.  The operations keep names of each sort
apart: adding or renaming to a name in use is refused, and so is touching a name that does not
exist.  Whether a foreign key's target exists is the catalog's question.

Dropping and renaming a column reach into the indexes and the foreign keys of the same table
(`Table.withoutColumn`, `Table.withColumnRenamed`).  What leads to a table is changed by
three operations that the catalog makes across its tables:

* `Table.dropReferences`: the keys to a table, or to one column of it, go;
* `Table.retargetTable`: the keys to a table lead to another one;
* `Table.retargetColumn`: the keys to a column lead to another one of the same table.

A key without a schema leads into the schema of its own table, so these need to know where the table
stands that has the key (`ForeignKey.pointsAt`).
-/

namespace Schemata

/-- A table of a schema. -/
structure Table where
  /-- The schema that holds the table. -/
  schema : String
  /-- The name. -/
  name : String
  /-- The columns in order. -/
  columns : List Column
  /-- The indexes. -/
  indexes : List Index
  /-- The foreign keys. -/
  foreignKeys : List ForeignKey
  /-- The migration file that created the table. -/
  createdIn : String
  deriving DecidableEq, Repr, Inhabited

/-- The list with `change` made to the first item that passes the test. -/
def changeFirst {α : Type} (test : α → Bool) (change : α → α) : List α → List α
  | [] => []
  | item :: rest => if test item then change item :: rest else item :: changeFirst test change rest

namespace Table

/-- A table without columns. -/
def empty (schema name file : String) : Table :=
  ⟨schema, name, [], [], [], file⟩

/-- The schema and the name, joined with a dot. -/
def qualifiedName (table : Table) : String :=
  table.schema ++ "." ++ table.name

/-! ## Looking up -/

/-- The column of a name. -/
def column? (table : Table) (name : String) : Option Column :=
  table.columns.find? (·.name == name)

/-- The table has a column of the name. -/
def hasColumn (table : Table) (name : String) : Bool :=
  table.columns.any (·.name == name)

/-- The index of a name. -/
def index? (table : Table) (name : String) : Option Index :=
  table.indexes.find? (·.name == name)

/-- The table has an index of the name. -/
def hasIndex (table : Table) (name : String) : Bool :=
  table.indexes.any (·.name == name)

/-- The foreign key of a name. -/
def foreignKey? (table : Table) (name : String) : Option ForeignKey :=
  table.foreignKeys.find? (·.name == name)

/-- The table has a foreign key of the name. -/
def hasForeignKey (table : Table) (name : String) : Bool :=
  table.foreignKeys.any (·.name == name)

/-- The foreign keys that refer to a table of the given name, in whatever schema. -/
def foreignKeysReferencing (table : Table) (name : String) : List ForeignKey :=
  table.foreignKeys.filter (·.referencedTable == name)

/-- The columns of the primary key. -/
def primaryKeyColumns (table : Table) : List Column :=
  table.columns.filter (·.primaryKey)

/-- The column of a name, which must exist. -/
def column (table : Table) (name : String) : Except CatalogError Column :=
  match table.column? name with
  | some column => .ok column
  | none => .error (.columnNotFound table.schema table.name name)

/-! ## References to tables and columns -/

/-- The table without its foreign keys to a table, or to one column of it. -/
def dropReferences (table : Table) (schema name : String) (column : Option String) : Table :=
  { table with
    foreignKeys := table.foreignKeys.filter fun key =>
      !(key.pointsAt table.schema schema name && column.all (key.referencedColumn == ·)) }

/-- The table with its foreign keys to one table moved to another. -/
def retargetTable (table : Table) (schema source target : String) : Table :=
  { table with
    foreignKeys := table.foreignKeys.map fun key =>
      if key.pointsAt table.schema schema source then { key with referencedTable := target }
      else key }

/-- The table with its foreign keys to one column moved to another column of the same table. -/
def retargetColumn (table : Table) (schema name source target : String) : Table :=
  { table with
    foreignKeys := table.foreignKeys.map fun key =>
      if key.pointsAt table.schema schema name && key.referencedColumn == source then
        { key with referencedColumn := target }
      else key }

/-! ## Columns -/

/-- The table with a column added at the end. -/
def addColumn (table : Table) (column : Column) : Except CatalogError Table :=
  if table.hasColumn column.name then
    .error (.columnExists table.schema table.name column.name)
  else .ok { table with columns := table.columns ++ [column] }

/-- The table without a column, the indexes over it and the foreign keys from or to it. -/
def withoutColumn (table : Table) (name : String) : Table :=
  let table := { table with foreignKeys := table.foreignKeys.filter (·.column != name) }
  let table := table.dropReferences table.schema table.name (some name)
  { table with
    indexes := table.indexes.filter (! ·.columns.contains name)
    columns := table.columns.eraseP (·.name == name) }

/-- Drops a column, and returns it with the table that is left. -/
def dropColumn (table : Table) (name : String) : Except CatalogError (Column × Table) := do
  return (← table.column name, table.withoutColumn name)

/-- The table with a column in place of the one of the same name. -/
def modifyColumn (table : Table) (column : Column) : Except CatalogError Table :=
  if table.hasColumn column.name then
    .ok { table with
      columns := changeFirst (·.name == column.name) (fun _ => column) table.columns }
  else .error (.columnNotFound table.schema table.name column.name)

/-- A foreign key of the table with a column of the table renamed on both its sides. -/
def renameColumnInKey (table : Table) (source target : String) (key : ForeignKey) : ForeignKey :=
  let key := if key.column == source then { key with column := target } else key
  if key.pointsAt table.schema table.schema table.name && key.referencedColumn == source then
    { key with referencedColumn := target }
  else key

/-- The table with a column renamed, also in its indexes and foreign keys. -/
def withColumnRenamed (table : Table) (source target : String) : Table :=
  { table with
    columns := changeFirst (·.name == source) ({ · with name := target }) table.columns
    foreignKeys := table.foreignKeys.map (table.renameColumnInKey source target)
    indexes := table.indexes.map fun index =>
      { index with columns := index.columns.map fun column =>
          if column == source then target else column } }

/-- Renames a column. -/
def renameColumn (table : Table) (source target : String) : Except CatalogError Table :=
  if !table.hasColumn source then .error (.columnNotFound table.schema table.name source)
  else if source == target then .ok table
  else if table.hasColumn target then .error (.columnExists table.schema table.name target)
  else .ok (table.withColumnRenamed source target)

/-! ## Indexes -/

/-- The table with an index added. -/
def addIndex (table : Table) (index : Index) : Except CatalogError Table :=
  if table.hasIndex index.name then .error (.indexExists table.schema table.name index.name)
  else .ok { table with indexes := table.indexes ++ [index] }

/-- Drops an index, and returns it with the table that is left. -/
def dropIndex (table : Table) (name : String) : Except CatalogError (Index × Table) :=
  match table.index? name with
  | some index => .ok (index, { table with indexes := table.indexes.eraseP (·.name == name) })
  | none => .error (.indexNotFound table.schema table.name name)

/-! ## Foreign keys -/

/-- The table with a foreign key added on one of its columns. -/
def addForeignKey (table : Table) (key : ForeignKey) : Except CatalogError Table :=
  if table.hasForeignKey key.name then
    .error (.foreignKeyExists table.schema table.name key.name)
  else if !table.hasColumn key.column then
    .error (.columnNotFound table.schema table.name key.column)
  else .ok { table with foreignKeys := table.foreignKeys ++ [key] }

/-- Drops a foreign key, and returns it with the table that is left. -/
def dropForeignKey (table : Table) (name : String) : Except CatalogError (ForeignKey × Table) :=
  match table.foreignKey? name with
  | some key => .ok (key, { table with foreignKeys := table.foreignKeys.eraseP (·.name == name) })
  | none => .error (.foreignKeyNotFound table.schema table.name name)

/-- Renames a foreign key. -/
def renameForeignKey (table : Table) (source target : String) : Except CatalogError Table :=
  if !table.hasForeignKey source then
    .error (.foreignKeyNotFound table.schema table.name source)
  else if source != target && table.hasForeignKey target then
    .error (.foreignKeyExists table.schema table.name target)
  else
    .ok { table with
      foreignKeys :=
        changeFirst (·.name == source) ({ · with name := target }) table.foreignKeys }

end Table

end Schemata
