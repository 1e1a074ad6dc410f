import Schemata.Catalog.Alteration
import Schemata.Statement.Reading

/-!
# Effects of statements

What a statement does to the catalog.  Indexes and dropped schemas are not tracked, so the
statements about them do nothing, and neither do statements that are not understood.

An operation on one table is turned into a list of alterations (`Operation.alterations`), which
succeeds or fails as one.  A statement that works on several objects works on them one after the
other and stops at the first failure; what is done before stays done.

Several operations on one table are printed as statements of one operation each and read again
(`AlterTable.clauseText`), so carrying out a statement calls for reading one.  How often that can
happen is bounded by a depth, `Statement.nestingDepth`, which is more than any statement needs
(`Schemata.Proofs.Statement.Depth`).
-/

namespace Schemata

/-- A step that changes the catalog and may fail. -/
abbrev Change := EStateM CatalogError Catalog

namespace Change

/-- Carries out an operation that succeeds with a new catalog or changes nothing. -/
def attempt (operation : Catalog → Except CatalogError Catalog) : Change Unit := do
  match operation (← get) with
  | .ok catalog => set catalog
  | .error error => throw error

/-- The value of a computation that does not concern the catalog. -/
def ofExcept {α : Type} : Except CatalogError α → Change α
  | .ok value => return value
  | .error error => throw error

/-- What reading gives, with its error as an error of the catalog. -/
def ofReading {α : Type} : Except ParseError α → Except CatalogError α
  | .ok value => .ok value
  | .error error => .error (.unreadable error)

end Change

/-! ## Operations as alterations -/

/-- The column with one change made to it. -/
def ColumnChange.change (origin : Origin) (table : Table) (column : Column) :
    ColumnChange → Except CatalogError Column
  | type columnType => .ok (column.withType columnType)
  | setNotNull => .ok { column with nullable := false }
  | dropNotNull =>
      if column.primaryKey then
        .error (.nullablePrimaryKey table.schema table.name column.name)
      else .ok { column with nullable := true }
  | setDefault expression => .ok { column with defaultValue := some expression }
  | dropDefault => .ok { column with defaultValue := none }
  | unsupported text => .error (.unsupported origin.file text)

/-- The alteration that puts a changed column back, if its type is allowed. -/
def Alteration.putBack (origin : Origin) (table : Table) (column : Column) :
    Except CatalogError Alteration := do
  let column := column.touchedBy origin.file
  Change.ofReading (origin.checkPrimaryKey table.name column)
  return .modifyColumn column

/-- The alterations that add a constraint to a table.  Of uniqueness constraints only those of one
column are tracked. -/
def TableConstraint.alterations (origin : Origin) (table : Table) :
    TableConstraint → Except CatalogError (List Alteration)
  | primaryKey _ columns =>
      columns.mapM fun name => do
        Alteration.putBack origin table (← table.column name).asPrimaryKey
  | foreignKey constraint =>
      .ok ((constraint.expand table.name origin.file).map .addForeignKey)
  | unique _ [name] => do
      let column ← table.column name
      return [.modifyColumn ({ column with unique := true }.touchedBy origin.file)]
  | _ => .ok []

/-- The alterations that drop a constraint: a foreign key, or the primary key under its default
name. -/
def Table.constraintRemoval (table : Table) (file name : String) : List Alteration :=
  if table.hasForeignKey name then [.dropForeignKey name]
  else if name == table.name ++ "_pkey" then
    table.primaryKeyColumns.map fun column =>
      .modifyColumn ({ column with primaryKey := false }.touchedBy file)
  else []

/-- The alterations that carry out an operation on a table.  Renaming the table and several
operations at once are no alterations. -/
def Operation.alterations (origin : Origin) (table : Table) :
    Operation → Except CatalogError (List Alteration)
  | addColumn definition ifNotExists =>
      if ifNotExists && table.hasColumn definition.column.name then .ok []
      else
        let keys := definition.foreignKey.toList.flatMap (·.expand table.name origin.file)
        .ok (.addColumn definition.column :: keys.map .addForeignKey)
  | dropColumn column ifExists =>
      if ifExists && !table.hasColumn column then .ok [] else .ok [.dropColumn column]
  | alterColumn name change => do
      let column ← change.change origin table (← table.column name)
      return [← Alteration.putBack origin table column]
  | renameColumn source target => .ok [.renameColumn source target]
  | addConstraint constraint => constraint.alterations origin table
  | dropConstraint name _ => .ok (table.constraintRemoval origin.file name)
  | renameConstraint source target =>
      .ok (if table.hasForeignKey source then [.renameForeignKey source target] else [])
  | renameTable _ => .ok []
  | several _ => .ok []
  | unsupported text => .error (.unsupported origin.file text)

/-! ## Statements -/

/-- The table that a `CREATE TABLE` statement describes. -/
def CreateTable.table (statement : CreateTable) (schema file : String) :
    Except CatalogError Table := do
  let table := Table.empty schema statement.name.base file
  let table ← statement.columns.foldlM Table.addColumn table
  statement.foreignKeys.foldlM Table.addForeignKey table

/-- Creates a table, and its schema if there is none. -/
def CreateTable.apply (statement : CreateTable) (origin : Origin) : Change Unit := do
  let schema := statement.name.schemaOr (← get).defaultSchema
  modify (·.ensureSchema schema)
  if statement.ifNotExists && (← get).hasTable schema statement.name.base then return ()
  else
    let table ← Change.ofExcept (statement.table schema origin.file)
    Change.attempt (·.addTable table)

/-- Drops one table. -/
def dropNamedTable (ifExists : Bool) (name : ObjectName) : Change Unit := do
  let schema := name.schemaOr (← get).defaultSchema
  if ifExists && !(← get).hasTable schema name.base then return ()
  else Change.attempt fun catalog => return (← catalog.dropTable schema name.base).2

/-- Creates an enum type, and its schema if there is none.  A type that exists is kept. -/
def CreateEnum.apply (statement : CreateEnum) (origin : Origin) : Change Unit := do
  let schema := statement.name.schemaOr (← get).defaultSchema
  modify (·.ensureSchema schema)
  if ((← get).enum? schema statement.name.base).isSome then return ()
  else Change.attempt (·.addEnum schema ⟨statement.name.base, statement.values, origin.file⟩)

/-- The catalog without an enum type, if it had it. -/
def Catalog.withoutEnum (catalog : Catalog) (name : ObjectName) : Catalog :=
  match catalog.dropEnum (name.schemaOr catalog.defaultSchema) name.base with
  | .ok (_, without) => without
  | .error _ => catalog

/-- The text of a statement with one of several operations on a table. -/
def AlterTable.clauseText (name : ObjectName) (clause : String) : String :=
  "ALTER TABLE " ++ name.text ++ " " ++ clause

/-- Alters a table.  Of several operations each is carried out by `again` as a statement of its
own. -/
def AlterTable.apply (statement : AlterTable) (origin : Origin) (again : String → Change Unit) :
    Change Unit := do
  let schema := statement.name.schemaOr (← get).defaultSchema
  let name := statement.name.base
  if statement.ifExists && !(← get).hasTable schema name then return ()
  else
    let table ← Change.ofExcept ((← get).table schema name)
    match statement.operation with
    | .renameTable target => Change.attempt (·.renameTable schema name target)
    | .several clauses =>
        clauses.forM fun clause => again (AlterTable.clauseText statement.name clause)
    | operation =>
        let alterations ← Change.ofExcept (operation.alterations origin table)
        Change.attempt (·.alterTableBatch schema name alterations)

namespace Statement

/-- Carries out a statement, where `depth` bounds how often operations may be nested in one
another. -/
def applyNested (origin : Origin) : Nat → Statement → Change Unit
  | _, createTable statement => statement.apply origin
  | depth, alterTable statement =>
      statement.apply origin fun text =>
        match depth with
        | 0 => throw (.unsupported origin.file text)
        | depth + 1 => do
            let nested ← Change.ofExcept (Change.ofReading (read origin text))
            applyNested origin depth nested
  | _, dropTables removal => removal.names.forM (dropNamedTable removal.ifExists)
  | _, createSchema statement => modify (·.ensureSchema statement.name)
  | _, createEnum statement => statement.apply origin
  | _, dropTypes removal => modify (removal.names.foldl Catalog.withoutEnum)
  | _, createIndex _ => return ()
  | _, dropIndexes _ => return ()
  | _, dropSchemas _ => return ()
  | _, unknown _ => return ()

/-- How deep operations nest.  A clause of a statement that was read holds one operation; a clause
given in another way may hold several, and then their clauses hold one each. -/
def nestingDepth : Nat := 2

/-- Carries out a statement. -/
def apply (statement : Statement) (origin : Origin) : Change Unit :=
  applyNested origin nestingDepth statement

/-- Reads a statement and carries it out. -/
def applyText (origin : Origin) (text : String) : Change Unit := do
  let statement ← Change.ofExcept (Change.ofReading (read origin text))
  statement.apply origin

end Statement

end Schemata
