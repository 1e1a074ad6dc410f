import Schemata.EnumType
import Schemata.NameMap
import Schemata.Table

/-!
# The catalog

A catalog holds schemas by name, and a schema holds tables and enum types by name.  Operations
either succeed with a new catalog or refuse and leave the old one as it is.  A table is only let in
when all its foreign keys resolve, and foreign keys follow the tables they refer to: they are
renamed and dropped with them.

* `Catalog.checkReference` asks whether the two sides of one key exist.  A key of a table to itself
  is looked up in the table at hand (`Catalog.referencedTable`), which need not be in the catalog
  yet or may differ from what the catalog holds under its name.
* `Catalog.addTable` makes that check for every key before it writes.
* `Catalog.dropTable` and `Catalog.renameTable` change one table, and then the foreign keys of all
  tables that lead to it.

Every schema and every table is held under its own name, and every foreign key resolves, in all
catalogs that the operations build from `Catalog.new`; nothing in the types says so, and it is
proved in `Schemata.Proofs.Catalog.Integrity` for each operation and in
`Schemata.Proofs.Catalog.Reachable` for all of them.
-/

namespace Schemata

/-- A named collection of tables and enum types. -/
structure Schema where
  /-- The name. -/
  name : String
  /-- The tables by name. -/
  tables : NameMap Table
  /-- The enum types by name. -/
  enums : NameMap EnumType
  deriving DecidableEq, Inhabited

/-- A schema that holds nothing. -/
def Schema.empty (name : String) : Schema :=
  ⟨name, .empty, .empty⟩

/-- All schemas, and the one that unqualified names belong to. -/
structure Catalog where
  /-- The schema of unqualified names. -/
  defaultSchema : String
  /-- The schemas by name. -/
  schemas : NameMap Schema
  deriving DecidableEq, Inhabited

namespace Catalog

/-- The catalog that holds its default schema and nothing else. -/
def new (defaultSchema : String) : Catalog :=
  ⟨defaultSchema, NameMap.empty.insert defaultSchema (.empty defaultSchema)⟩

/-! ## Looking up -/

/-- The schema of a name, which must exist. -/
def schema (catalog : Catalog) (name : String) : Except CatalogError Schema :=
  match catalog.schemas.find? name with
  | some schema => .ok schema
  | none => .error (.schemaNotFound name)

/-- The catalog has a schema of the name. -/
def hasSchema (catalog : Catalog) (name : String) : Bool :=
  catalog.schemas.contains name

/-- The table of a name in a schema. -/
def table? (catalog : Catalog) (schema name : String) : Option Table :=
  (catalog.schemas.find? schema).bind (·.tables.find? name)

/-- The table of a name in a schema, which must exist. -/
def table (catalog : Catalog) (schema name : String) : Except CatalogError Table :=
  match catalog.table? schema name with
  | some table => .ok table
  | none => .error (.tableNotFound schema name)

/-- The catalog has a table of the name in the schema. -/
def hasTable (catalog : Catalog) (schema name : String) : Bool :=
  (catalog.table? schema name).isSome

/-- The tables of a schema, which must exist, in the order of their names. -/
def listTables (catalog : Catalog) (schema : String) : Except CatalogError (List Table) := do
  return (← catalog.schema schema).tables.values

/-- The number of tables. -/
def tableCount (catalog : Catalog) : Nat :=
  (catalog.schemas.values.flatMap (·.tables.values)).length

/-- The enum type of a name in a schema. -/
def enum? (catalog : Catalog) (schema name : String) : Option EnumType :=
  (catalog.schemas.find? schema).bind (·.enums.find? name)

/-! ## Changing schemas in place -/

/-- The catalog with one schema changed. -/
def modifySchema (catalog : Catalog) (name : String) (change : Schema → Schema) : Catalog :=
  { catalog with schemas := catalog.schemas.modify name change }

/-- The catalog with every table changed. -/
def mapTables (catalog : Catalog) (change : Table → Table) : Catalog :=
  { catalog with
    schemas := catalog.schemas.map fun schema =>
      { schema with tables := schema.tables.map change } }

/-- The catalog with a table put into a schema, in place of one of the same name. -/
def putTable (catalog : Catalog) (schema : String) (table : Table) : Catalog :=
  catalog.modifySchema schema fun holder =>
    { holder with tables := holder.tables.insert table.name table }

/-- The catalog without the foreign keys to a table, or to one column of it. -/
def dropReferences (catalog : Catalog) (schema table : String) (column : Option String) :
    Catalog :=
  catalog.mapTables (·.dropReferences schema table column)

/-! ## Schemas -/

/-- The catalog with a new schema. -/
def createSchema (catalog : Catalog) (name : String) : Except CatalogError Catalog :=
  if catalog.hasSchema name then .error (.schemaExists name)
  else .ok { catalog with schemas := catalog.schemas.insert name (.empty name) }

/-- The catalog with a schema of the name, new if there was none. -/
def ensureSchema (catalog : Catalog) (name : String) : Catalog :=
  if catalog.hasSchema name then catalog
  else { catalog with schemas := catalog.schemas.insert name (.empty name) }

/-! ## Tables -/

/-- The table that a foreign key of `owner` refers to.  A reference to the owner itself finds the
owner as given, which need not be in the catalog yet. -/
def referencedTable (catalog : Catalog) (owner : Table) (key : ForeignKey) :
    Except CatalogError Table :=
  let schema := key.targetSchema owner.schema
  if schema == owner.schema && key.referencedTable == owner.name then .ok owner
  else
    match catalog.schemas.find? schema with
    | none => .error (.unresolvedReference owner.schema owner.name key.name (.schema schema))
    | some holder =>
        match holder.tables.find? key.referencedTable with
        | none =>
            .error (.unresolvedReference owner.schema owner.name key.name
              (.table schema key.referencedTable))
        | some table => .ok table

/-- Refuses a foreign key of `owner` one side of which does not exist. -/
def checkReference (catalog : Catalog) (owner : Table) (key : ForeignKey) :
    Except CatalogError Unit :=
  if !owner.hasColumn key.column then
    .error (.columnNotFound owner.schema owner.name key.column)
  else do
    let target ← catalog.referencedTable owner key
    if target.hasColumn key.referencedColumn then .ok ()
    else
      .error (.unresolvedReference owner.schema owner.name key.name
        (.column target.schema target.name key.referencedColumn))

/-- The catalog with a new table. -/
def addTable (catalog : Catalog) (table : Table) : Except CatalogError Catalog := do
  let holder ← catalog.schema table.schema
  if holder.tables.contains table.name then .error (.tableExists table.schema table.name)
  else
    table.foreignKeys.forM (catalog.checkReference table)
    return catalog.putTable table.schema table

/-- Drops a table with the foreign keys to it, and returns it with the catalog that is left. -/
def dropTable (catalog : Catalog) (schema name : String) :
    Except CatalogError (Table × Catalog) := do
  let table ← catalog.table schema name
  let without := catalog.modifySchema schema fun holder =>
    { holder with tables := holder.tables.erase name }
  return (table, without.dropReferences schema name none)

/-- The catalog with a table renamed, also in the foreign keys to it. -/
def renameTable (catalog : Catalog) (schema source target : String) :
    Except CatalogError Catalog := do
  let table ← catalog.table schema source
  if source == target then .ok catalog
  else if catalog.hasTable schema target then .error (.tableExists schema target)
  else
    let renamed := catalog.modifySchema schema fun holder =>
      { holder with
        tables := (holder.tables.erase source).insert target { table with name := target } }
    return renamed.mapTables (·.retargetTable schema source target)

/-! ## Enum types -/

/-- The catalog with a new enum type. -/
def addEnum (catalog : Catalog) (schema : String) (enumType : EnumType) :
    Except CatalogError Catalog := do
  let holder ← catalog.schema schema
  if holder.enums.contains enumType.name then .error (.enumExists schema enumType.name)
  else
    return catalog.modifySchema schema fun holder =>
      { holder with enums := holder.enums.insert enumType.name enumType }

/-- Drops an enum type, and returns it with the catalog that is left. -/
def dropEnum (catalog : Catalog) (schema name : String) :
    Except CatalogError (EnumType × Catalog) :=
  match catalog.enum? schema name with
  | none => .error (.enumNotFound schema name)
  | some enumType =>
      .ok (enumType, catalog.modifySchema schema fun holder =>
        { holder with enums := holder.enums.erase name })

end Catalog

end Schemata
