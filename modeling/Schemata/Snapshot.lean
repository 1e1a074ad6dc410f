import Schemata.Catalog
import Schemata.Json
import Schemata.Relation

/-!
# Snapshots

The catalog and its parts as JSON values, with members in a fixed order, and the snapshot of a
catalog as a text.

Every field of every part has a member of its own, a missing value is printed as null, and maps are
printed in the order of their names.  That is why a snapshot determines its catalog
(`Schemata.Proofs.Snapshot`).  Relations are printed as well, but they are no part of the snapshot:
they follow from the catalog.
-/

namespace Schemata

/-- An optional string as JSON. -/
def Json.ofString? : Option String → Json :=
  Json.ofOption .string

/-- Strings as a JSON array. -/
def Json.ofStrings : List String → Json :=
  Json.ofList .string

/-- A map from names as a JSON object. -/
def NameMap.toJson {α : Type} (valueToJson : α → Json) (map : NameMap α) : Json :=
  .object (map.entries.map fun entry => (entry.1, valueToJson entry.2))

/-- A data type as JSON. -/
def DataType.toJson (dataType : DataType) : Json :=
  let size := Json.ofOption fun (value : UInt32) => .number value.toNat
  .object [
    ("name", .string dataType.name),
    ("length", size dataType.length),
    ("precision", size dataType.precision),
    ("scale", size dataType.scale)]

/-- A column as JSON. -/
def Column.toJson (column : Column) : Json :=
  .object [
    ("name", .string column.name),
    ("data_type", column.dataType.toJson),
    ("nullable", .bool column.nullable),
    ("array", .bool column.array),
    ("default", .ofString? column.defaultValue),
    ("primary_key", .bool column.primaryKey),
    ("unique", .bool column.unique),
    ("created_in", .string column.createdIn),
    ("modified_in", .ofString? column.modifiedIn)]

/-- The name of an action in snapshots. -/
def ReferentialAction.name : ReferentialAction → String
  | noAction => "NoAction"
  | restrict => "Restrict"
  | cascade => "Cascade"
  | setNull => "SetNull"
  | setDefault => "SetDefault"

/-- A foreign key as JSON. -/
def ForeignKey.toJson (key : ForeignKey) : Json :=
  .object [
    ("name", .string key.name),
    ("column", .string key.column),
    ("referenced_schema", .ofString? key.referencedSchema),
    ("referenced_table", .string key.referencedTable),
    ("referenced_column", .string key.referencedColumn),
    ("on_update", .string key.onUpdate.name),
    ("on_delete", .string key.onDelete.name),
    ("created_in", .string key.createdIn)]

/-- An index as JSON. -/
def Index.toJson (index : Index) : Json :=
  .object [
    ("name", .string index.name),
    ("columns", .ofStrings index.columns),
    ("unique", .bool index.unique),
    ("created_in", .string index.createdIn)]

/-- An enum type as JSON. -/
def EnumType.toJson (enumType : EnumType) : Json :=
  .object [
    ("name", .string enumType.name),
    ("values", .ofStrings enumType.values),
    ("created_in", .string enumType.createdIn)]

/-- A table as JSON. -/
def Table.toJson (table : Table) : Json :=
  .object [
    ("schema", .string table.schema),
    ("name", .string table.name),
    ("columns", .ofList Column.toJson table.columns),
    ("indexes", .ofList Index.toJson table.indexes),
    ("foreign_keys", .ofList ForeignKey.toJson table.foreignKeys),
    ("created_in", .string table.createdIn)]

/-- A schema as JSON. -/
def Schema.toJson (schema : Schema) : Json :=
  .object [
    ("name", .string schema.name),
    ("tables", schema.tables.toJson Table.toJson),
    ("enums", schema.enums.toJson EnumType.toJson)]

namespace Catalog

/-- The schemas of the catalog as JSON. -/
def schemasJson (catalog : Catalog) : Json :=
  catalog.schemas.toJson Schema.toJson

/-- The catalog as JSON. -/
def toJson (catalog : Catalog) : Json :=
  .object [
    ("default_schema", .string catalog.defaultSchema),
    ("schemas", catalog.schemasJson)]

/-- The snapshot of the catalog as a text. -/
def snapshot (catalog : Catalog) : String :=
  catalog.toJson.pretty

end Catalog

/-- The name of a kind of relation. -/
def RelationKind.name : RelationKind → String
  | oneToMany => "OneToMany"
  | manyToOne => "ManyToOne"
  | manyToMany => "ManyToMany"
  | oneToOne => "OneToOne"

/-- A join table as JSON. -/
def JoinTable.toJson (join : JoinTable) : Json :=
  .object [
    ("schema", .string join.schema),
    ("table", .string join.table),
    ("source_column", .string join.sourceColumn),
    ("target_column", .string join.targetColumn)]

/-- A relation as JSON. -/
def Relation.toJson (relation : Relation) : Json :=
  .object [
    ("kind", .string relation.kind.name),
    ("source_schema", .string relation.sourceSchema),
    ("source_table", .string relation.sourceTable),
    ("source_column", .string relation.sourceColumn),
    ("target_schema", .string relation.targetSchema),
    ("target_table", .string relation.targetTable),
    ("target_column", .string relation.targetColumn),
    ("foreign_key", .string relation.foreignKey),
    ("self_referential", .bool relation.selfReferential),
    ("join", .ofOption JoinTable.toJson relation.join)]

end Schemata
