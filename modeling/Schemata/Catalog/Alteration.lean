import Schemata.Catalog

/-!
# Alterations of tables

An alteration is one change to one table.  Alterations come in batches: all of them are made to a
copy of the table, one after the other, and the copy takes the place of the table only if none is
refused.  After that, foreign keys of other tables follow the columns that were renamed or dropped
(`Alteration.follow`).

The two halves see different things.  `Alteration.alter` looks at the table as the alterations
before it left it, and at the catalog as it was before the batch; `Alteration.follow` looks at the
catalog alone, with the finished copy in it.  A column that is dropped and added again within one
batch is therefore gone for the foreign keys to it, those of the altered table included, whatever
the batch has put on the table in between (`Schemata.Proofs.Catalog.Reachable`).
-/

namespace Schemata

/-- One change to a table. -/
inductive Alteration where
  | addColumn (column : Column)
  | dropColumn (name : String)
  /-- Puts a column in place of the one of the same name. -/
  | modifyColumn (column : Column)
  | renameColumn (source target : String)
  | addIndex (index : Index)
  | dropIndex (name : String)
  /-- Adds a foreign key, whose target must exist. -/
  | addForeignKey (key : ForeignKey)
  | dropForeignKey (name : String)
  | renameForeignKey (source target : String)
  deriving DecidableEq, Repr, Inhabited

namespace Alteration

/-- Makes the change to a table.  The catalog says what foreign keys may refer to. -/
def alter (catalog : Catalog) (table : Table) : Alteration → Except CatalogError Table
  | addColumn column => table.addColumn column
  | dropColumn name => return (← table.dropColumn name).2
  | modifyColumn column => table.modifyColumn column
  | renameColumn source target => table.renameColumn source target
  | addIndex index => table.addIndex index
  | dropIndex name => return (← table.dropIndex name).2
  | addForeignKey key => do
      catalog.checkReference table key
      table.addForeignKey key
  | dropForeignKey name => return (← table.dropForeignKey name).2
  | renameForeignKey source target => table.renameForeignKey source target

/-- Follows the change of a table into the foreign keys that refer to its columns.  The foreign keys
of the table itself have followed a renaming already. -/
def follow (schema name : String) (catalog : Catalog) : Alteration → Catalog
  | renameColumn source target =>
      catalog.mapTables fun table =>
        if table.schema == schema && table.name == name then table
        else table.retargetColumn schema name source target
  | dropColumn column => catalog.dropReferences schema name (some column)
  | _ => catalog

end Alteration

namespace Catalog

/-- Makes all alterations to a table, or none if one of them is refused. -/
def alterTableBatch (catalog : Catalog) (schema name : String) (alterations : List Alteration) :
    Except CatalogError Catalog := do
  let table ← catalog.table schema name
  let altered ← alterations.foldlM (Alteration.alter catalog) table
  return alterations.foldl (Alteration.follow schema name) (catalog.putTable schema altered)

/-- Makes one alteration to a table. -/
def alterTable (catalog : Catalog) (schema name : String) (alteration : Alteration) :
    Except CatalogError Catalog :=
  catalog.alterTableBatch schema name [alteration]

end Catalog

end Schemata
