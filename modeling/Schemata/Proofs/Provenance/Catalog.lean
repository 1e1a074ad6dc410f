import Schemata.Proofs.Provenance.Erasure
import Schemata.Proofs.Catalog.Lookup
import Schemata.Proofs.Table.Edit

/-!
# Operations forget files

No operation on a table or on a catalog looks at the files that created or changed what it finds.
For each operation this is one equation: on a table or catalog without files, with arguments without
files, it gives what it gives with them, without files.

The equations are of two sorts.  What always succeeds commutes with forgetting
(`Table.withoutColumn_forgetFiles`, `Catalog.mapTables_forgetFiles`); what may be refused does so up
to the files in its result or its error (`blurred`).  Guards ask for names alone, so that the same
branch is taken on both sides, and the rest goes by the parts of a table: lists of columns, indexes
and keys that are mapped, filtered or changed in one place.

* `Table` and its edits, up to `Alteration.blurred_alter`;
* lookups and changes of a `Catalog`, up to `Catalog.blurred_addTable`, `Catalog.blurred_dropTable`,
  `Catalog.blurred_renameTable`, `Catalog.blurred_alterTableBatch`, `Catalog.blurred_addEnum` and
  `Catalog.withoutEnum_forgetFiles`.
-/

namespace Schemata

/-! ## Lists and maps of named things -/

/-- Items that are changed alike with and without files. -/
theorem map_view {α β : Type} {view : α → β} {change : α → α} {plain : β → β}
    (hchange : ∀ item, plain (view item) = view (change item)) (items : List α) :
    (items.map view).map plain = (items.map change).map view := by
  rw [List.map_map, List.map_map]
  exact List.map_congr_left fun item _ => hchange item

theorem changeFirst_map {α β : Type} {view : α → β} {test : α → Bool} {plainTest : β → Bool}
    {change : α → α} {plain : β → β} (htest : ∀ item, plainTest (view item) = test item)
    (hchange : ∀ item, plain (view item) = view (change item)) {items : List α} :
    changeFirst plainTest plain (items.map view) = (changeFirst test change items).map view := by
  induction items with
  | nil => rfl
  | cons item rest ih =>
      rw [List.map_cons, changeFirst, changeFirst, htest]
      split
      · rw [hchange, List.map_cons]
      · rw [ih, List.map_cons]

namespace NameMap

variable {α β : Type}

theorem insert_map (names : NameMap α) (view : α → β) (name : String) (value : α) :
    (names.map view).insert name (view value) = (names.insert name value).map view := by
  refine ext_find? fun query => ?_
  rw [find?_insert, find?_map, find?_map, find?_insert]
  split <;> rfl

theorem erase_map (names : NameMap α) (view : α → β) (name : String) :
    (names.map view).erase name = (names.erase name).map view := by
  refine ext_find? fun query => ?_
  rw [find?_erase, find?_map, find?_map, find?_erase]
  split <;> rfl

theorem contains_map (names : NameMap α) (view : α → β) (name : String) :
    (names.map view).contains name = names.contains name := by
  rw [contains, contains, find?_map, Option.isSome_map]

theorem map_view {view : α → β} {change : α → α} {plain : β → β}
    (hchange : ∀ value, plain (view value) = view (change value)) (names : NameMap α) :
    (names.map view).map plain = (names.map change).map view := by
  refine ext_find? fun query => ?_
  rw [find?_map, find?_map, find?_map, find?_map, Option.map_map, Option.map_map]
  exact congrArg (fun function => (names.find? query).map function) (funext hchange)

theorem modify_map (names : NameMap α) {view : α → β} {change : α → α} {plain : β → β}
    (hchange : ∀ value, plain (view value) = view (change value)) (name : String) :
    (names.map view).modify name plain = (names.modify name change).map view := by
  refine ext_find? fun query => ?_
  rw [find?_modify, find?_map, find?_map, find?_map, find?_modify]
  split
  · rw [Option.map_map, Option.map_map]
    exact congrArg (fun function => (names.find? name).map function) (funext hchange)
  · rfl

end NameMap

/-! ## Tables -/

namespace Table

variable (table : Table)

@[simp] theorem schema_forgetFiles : table.forgetFiles.schema = table.schema := rfl

@[simp] theorem name_forgetFiles : table.forgetFiles.name = table.name := rfl

@[simp] theorem hasColumn_forgetFiles (name : String) :
    table.forgetFiles.hasColumn name = table.hasColumn name := List.any_map

@[simp] theorem hasIndex_forgetFiles (name : String) :
    table.forgetFiles.hasIndex name = table.hasIndex name := List.any_map

@[simp] theorem hasForeignKey_forgetFiles (name : String) :
    table.forgetFiles.hasForeignKey name = table.hasForeignKey name := List.any_map

theorem column?_forgetFiles (name : String) :
    table.forgetFiles.column? name = (table.column? name).map Column.forgetFiles := List.find?_map

theorem index?_forgetFiles (name : String) :
    table.forgetFiles.index? name = (table.index? name).map Index.forgetFiles := List.find?_map

theorem foreignKey?_forgetFiles (name : String) :
    table.forgetFiles.foreignKey? name = (table.foreignKey? name).map ForeignKey.forgetFiles :=
  List.find?_map

theorem primaryKeyColumns_forgetFiles :
    table.forgetFiles.primaryKeyColumns = table.primaryKeyColumns.map Column.forgetFiles :=
  List.filter_map

theorem blurred_column (name : String) : table.forgetFiles.column name =
    blurred CatalogError.forgetFiles Column.forgetFiles (table.column name) := by
  rw [Table.column, Table.column, column?_forgetFiles]
  cases table.column? name <;> rfl

/-! ### References -/

theorem dropReferences_forgetFiles (schema name : String) (column : Option String) :
    table.forgetFiles.dropReferences schema name column =
      (table.dropReferences schema name column).forgetFiles :=
  congrArg (fun keys => { table.forgetFiles with foreignKeys := keys }) List.filter_map

theorem retargetTable_forgetFiles (schema source target : String) :
    table.forgetFiles.retargetTable schema source target =
      (table.retargetTable schema source target).forgetFiles := by
  refine congrArg (fun keys => { table.forgetFiles with foreignKeys := keys })
    (map_view (fun key => ?_) table.foreignKeys)
  show (if key.pointsAt table.schema schema source then _ else _) = _
  split <;> rfl

theorem retargetColumn_forgetFiles (schema name source target : String) :
    table.forgetFiles.retargetColumn schema name source target =
      (table.retargetColumn schema name source target).forgetFiles := by
  refine congrArg (fun keys => { table.forgetFiles with foreignKeys := keys })
    (map_view (fun key => ?_) table.foreignKeys)
  show (if key.pointsAt table.schema schema name && key.referencedColumn == source then _
    else _) = _
  split <;> rfl

/-! ### Edits -/

theorem blurred_addColumn (column : Column) : table.forgetFiles.addColumn column.forgetFiles =
    blurred CatalogError.forgetFiles forgetFiles (table.addColumn column) := by
  rw [addColumn, addColumn, hasColumn_forgetFiles]
  show (if table.hasColumn column.name then _ else _) = _
  split
  · rfl
  · simp [forgetFiles]

theorem withoutColumn_forgetFiles (name : String) :
    table.forgetFiles.withoutColumn name = (table.withoutColumn name).forgetFiles := by
  simp only [withoutColumn, dropReferences, forgetFiles, List.filter_map, List.eraseP_map]
  rfl

theorem blurred_dropColumn (name : String) : table.forgetFiles.dropColumn name =
    blurred CatalogError.forgetFiles (Prod.map Column.forgetFiles forgetFiles)
      (table.dropColumn name) :=
  blurred_bind (table.blurred_column name) fun _ _ =>
    congrArg (fun left => Except.ok (_, left)) (table.withoutColumn_forgetFiles name)

theorem blurred_modifyColumn (column : Column) :
    table.forgetFiles.modifyColumn column.forgetFiles =
      blurred CatalogError.forgetFiles forgetFiles (table.modifyColumn column) := by
  rw [modifyColumn, modifyColumn, hasColumn_forgetFiles]
  show (if table.hasColumn column.name then _ else _) = _
  split
  · refine congrArg (fun columns => Except.ok { table.forgetFiles with columns := columns }) ?_
    refine changeFirst_map ?_ ?_ <;> exact fun _ => rfl
  · rfl

theorem withColumnRenamed_forgetFiles (source target : String) :
    table.forgetFiles.withColumnRenamed source target =
      (table.withColumnRenamed source target).forgetFiles := by
  -- a renaming asks for names, and forgetting files keeps them
  have hcolumns : changeFirst (·.name == source) ({ · with name := target })
      (table.columns.map Column.forgetFiles) =
        (changeFirst (·.name == source) ({ · with name := target }) table.columns).map
          Column.forgetFiles := by
    refine changeFirst_map ?_ ?_ <;> exact fun _ => rfl
  have hkeys : (table.foreignKeys.map ForeignKey.forgetFiles).map
      (table.forgetFiles.renameColumnInKey source target) =
        (table.foreignKeys.map (table.renameColumnInKey source target)).map
          ForeignKey.forgetFiles := by
    refine map_view (fun key => ?_) table.foreignKeys
    rw [renameColumnInKey_eq, renameColumnInKey_eq]
    rfl
  have hindexes : (table.indexes.map Index.forgetFiles).map (fun index => { index with
      columns := index.columns.map fun column => if column == source then target else column }) =
        (table.indexes.map fun index => { index with
          columns := index.columns.map fun column =>
            if column == source then target else column }).map Index.forgetFiles := by
    refine map_view (fun index => ?_) table.indexes
    rfl
  simp only [withColumnRenamed, forgetFiles] at hkeys ⊢
  rw [hcolumns, hkeys, hindexes]

theorem blurred_renameColumn (source target : String) :
    table.forgetFiles.renameColumn source target =
      blurred CatalogError.forgetFiles forgetFiles (table.renameColumn source target) := by
  rw [renameColumn, renameColumn, hasColumn_forgetFiles, hasColumn_forgetFiles]
  split
  · rfl
  split
  · rfl
  split
  · rfl
  · exact congrArg Except.ok (table.withColumnRenamed_forgetFiles source target)

theorem blurred_addIndex (index : Index) : table.forgetFiles.addIndex index.forgetFiles =
    blurred CatalogError.forgetFiles forgetFiles (table.addIndex index) := by
  rw [addIndex, addIndex, hasIndex_forgetFiles]
  show (if table.hasIndex index.name then _ else _) = _
  split
  · rfl
  · simp [forgetFiles]

theorem blurred_dropIndex (name : String) : table.forgetFiles.dropIndex name =
    blurred CatalogError.forgetFiles (Prod.map Index.forgetFiles forgetFiles)
      (table.dropIndex name) := by
  rw [dropIndex, dropIndex, index?_forgetFiles]
  cases table.index? name with
  | none => rfl
  | some index =>
      exact congrArg (fun indexes => Except.ok (index.forgetFiles,
        { table.forgetFiles with indexes := indexes })) List.eraseP_map

theorem blurred_addForeignKey (key : ForeignKey) :
    table.forgetFiles.addForeignKey key.forgetFiles =
      blurred CatalogError.forgetFiles forgetFiles (table.addForeignKey key) := by
  rw [addForeignKey, addForeignKey, hasForeignKey_forgetFiles, hasColumn_forgetFiles]
  show (if table.hasForeignKey key.name then _ else if !table.hasColumn key.column then _
    else _) = _
  split
  · rfl
  split
  · rfl
  · simp [forgetFiles]

theorem blurred_dropForeignKey (name : String) : table.forgetFiles.dropForeignKey name =
    blurred CatalogError.forgetFiles (Prod.map ForeignKey.forgetFiles forgetFiles)
      (table.dropForeignKey name) := by
  rw [dropForeignKey, dropForeignKey, foreignKey?_forgetFiles]
  cases table.foreignKey? name with
  | none => rfl
  | some key =>
      exact congrArg (fun keys => Except.ok (key.forgetFiles,
        { table.forgetFiles with foreignKeys := keys })) List.eraseP_map

theorem blurred_renameForeignKey (source target : String) :
    table.forgetFiles.renameForeignKey source target =
      blurred CatalogError.forgetFiles forgetFiles (table.renameForeignKey source target) := by
  rw [renameForeignKey, renameForeignKey, hasForeignKey_forgetFiles, hasForeignKey_forgetFiles]
  split
  · rfl
  split
  · rfl
  · refine congrArg (fun keys => Except.ok { table.forgetFiles with foreignKeys := keys }) ?_
    refine changeFirst_map ?_ ?_ <;> exact fun _ => rfl

end Table

/-! ## Looking up -/

namespace Catalog

variable (catalog : Catalog)

theorem find?_forgetFiles (schema : String) : catalog.forgetFiles.schemas.find? schema =
    (catalog.schemas.find? schema).map Schema.forgetFiles :=
  NameMap.find?_map _ _ _

@[simp] theorem hasSchema_forgetFiles (schema : String) :
    catalog.forgetFiles.hasSchema schema = catalog.hasSchema schema :=
  NameMap.contains_map _ _ _

theorem table?_forgetFiles (schema name : String) : catalog.forgetFiles.table? schema name =
    (catalog.table? schema name).map Table.forgetFiles := by
  rw [table?, table?, find?_forgetFiles]
  cases catalog.schemas.find? schema with
  | none => rfl
  | some holder => exact NameMap.find?_map _ _ _

@[simp] theorem hasTable_forgetFiles (schema name : String) :
    catalog.forgetFiles.hasTable schema name = catalog.hasTable schema name := by
  rw [hasTable, hasTable, table?_forgetFiles, Option.isSome_map]

theorem enum?_forgetFiles (schema name : String) : catalog.forgetFiles.enum? schema name =
    (catalog.enum? schema name).map EnumType.forgetFiles := by
  rw [enum?, enum?, find?_forgetFiles]
  cases catalog.schemas.find? schema with
  | none => rfl
  | some holder => exact NameMap.find?_map _ _ _

theorem blurred_schema (name : String) : catalog.forgetFiles.schema name =
    blurred CatalogError.forgetFiles Schema.forgetFiles (catalog.schema name) := by
  rw [Catalog.schema, Catalog.schema, find?_forgetFiles]
  cases catalog.schemas.find? name <;> rfl

theorem blurred_table (schema name : String) : catalog.forgetFiles.table schema name =
    blurred CatalogError.forgetFiles Table.forgetFiles (catalog.table schema name) := by
  rw [Catalog.table, Catalog.table, table?_forgetFiles]
  cases catalog.table? schema name <;> rfl

theorem blurred_referencedTable (owner : Table) (key : ForeignKey) :
    catalog.forgetFiles.referencedTable owner.forgetFiles key.forgetFiles =
      blurred CatalogError.forgetFiles Table.forgetFiles (catalog.referencedTable owner key) := by
  have htarget : key.forgetFiles.targetSchema owner.forgetFiles.schema =
      key.targetSchema owner.schema := rfl
  rw [referencedTable, referencedTable, htarget, find?_forgetFiles]
  show (if key.targetSchema owner.schema == owner.schema && key.referencedTable == owner.name then _
    else _) = _
  split
  · rfl
  cases catalog.schemas.find? (key.targetSchema owner.schema) with
  | none => rfl
  | some holder =>
      have hfound : holder.forgetFiles.tables.find? key.forgetFiles.referencedTable =
          (holder.tables.find? key.referencedTable).map Table.forgetFiles :=
        NameMap.find?_map _ _ _
      dsimp only [Option.map_some]
      rw [hfound]
      cases holder.tables.find? key.referencedTable <;> rfl

theorem blurred_checkReference (owner : Table) (key : ForeignKey) :
    catalog.forgetFiles.checkReference owner.forgetFiles key.forgetFiles =
      blurred CatalogError.forgetFiles id (catalog.checkReference owner key) := by
  rw [checkReference, checkReference, Table.hasColumn_forgetFiles]
  show (if !owner.hasColumn key.column then _ else _) = _
  split
  · rfl
  refine blurred_bind (catalog.blurred_referencedTable owner key) fun target _ => ?_
  rw [Table.hasColumn_forgetFiles]
  show (if target.hasColumn key.referencedColumn then _ else _) = _
  split <;> rfl

/-! ## Changing in place -/

theorem modifySchema_forgetFiles {change plain : Schema → Schema}
    (hchange : ∀ schema : Schema, plain schema.forgetFiles = (change schema).forgetFiles)
    (name : String) : catalog.forgetFiles.modifySchema name plain =
      (catalog.modifySchema name change).forgetFiles :=
  congrArg (Catalog.mk catalog.defaultSchema) (catalog.schemas.modify_map hchange name)

theorem changeTables_forgetFiles {change plain : NameMap Table → NameMap Table}
    (hchange : ∀ tables : NameMap Table,
      plain (tables.map Table.forgetFiles) = (change tables).map Table.forgetFiles)
    (schema : String) : catalog.forgetFiles.changeTables schema plain =
      (catalog.changeTables schema change).forgetFiles :=
  catalog.modifySchema_forgetFiles (fun holder => congrArg
    (fun tables => { holder.forgetFiles with tables := tables }) (hchange holder.tables)) schema

theorem changeEnums_forgetFiles {change plain : NameMap EnumType → NameMap EnumType}
    (hchange : ∀ enums : NameMap EnumType,
      plain (enums.map EnumType.forgetFiles) = (change enums).map EnumType.forgetFiles)
    (schema : String) : catalog.forgetFiles.changeEnums schema plain =
      (catalog.changeEnums schema change).forgetFiles :=
  catalog.modifySchema_forgetFiles (fun holder => congrArg
    (fun enums => { holder.forgetFiles with enums := enums }) (hchange holder.enums)) schema

theorem mapTables_forgetFiles {change plain : Table → Table}
    (hchange : ∀ table : Table, plain table.forgetFiles = (change table).forgetFiles) :
    catalog.forgetFiles.mapTables plain = (catalog.mapTables change).forgetFiles := by
  refine congrArg (Catalog.mk catalog.defaultSchema) ?_
  refine NameMap.map_view (fun schema => ?_) catalog.schemas
  exact congrArg (fun tables => { schema.forgetFiles with tables := tables })
    (NameMap.map_view hchange schema.tables)

theorem putTable_forgetFiles (schema : String) (table : Table) :
    catalog.forgetFiles.putTable schema table.forgetFiles =
      (catalog.putTable schema table).forgetFiles := by
  rw [putTable_eq_changeTables, putTable_eq_changeTables]
  exact catalog.changeTables_forgetFiles (·.insert_map Table.forgetFiles table.name table) schema

theorem dropReferences_forgetFiles (schema name : String) (column : Option String) :
    catalog.forgetFiles.dropReferences schema name column =
      (catalog.dropReferences schema name column).forgetFiles :=
  catalog.mapTables_forgetFiles (·.dropReferences_forgetFiles schema name column)

theorem ensureSchema_forgetFiles (name : String) :
    catalog.forgetFiles.ensureSchema name = (catalog.ensureSchema name).forgetFiles := by
  rw [ensureSchema, ensureSchema, hasSchema_forgetFiles]
  split
  · rfl
  · exact congrArg (Catalog.mk catalog.defaultSchema)
      (catalog.schemas.insert_map Schema.forgetFiles name (.empty name))

/-! ## Operations -/

theorem blurred_addTable (table : Table) : catalog.forgetFiles.addTable table.forgetFiles =
    blurred CatalogError.forgetFiles forgetFiles (catalog.addTable table) := by
  refine blurred_bind (catalog.blurred_schema table.schema) fun holder _ => ?_
  have hnamed : holder.forgetFiles.tables.contains table.forgetFiles.name =
      holder.tables.contains table.name := NameMap.contains_map _ _ _
  rw [hnamed]
  split
  · rfl
  · refine blurred_bind (blurred_forM (catalog.blurred_checkReference table) table.foreignKeys)
      fun _ _ => ?_
    exact congrArg Except.ok (catalog.putTable_forgetFiles table.schema table)

theorem blurred_dropTable (schema name : String) : catalog.forgetFiles.dropTable schema name =
    blurred CatalogError.forgetFiles (Prod.map Table.forgetFiles forgetFiles)
      (catalog.dropTable schema name) := by
  refine blurred_bind (catalog.blurred_table schema name) fun table _ => ?_
  have hwithout : catalog.forgetFiles.changeTables schema (·.erase name) =
      (catalog.changeTables schema (·.erase name)).forgetFiles :=
    catalog.changeTables_forgetFiles (·.erase_map Table.forgetFiles name) schema
  have hdropped := dropReferences_forgetFiles (catalog.changeTables schema (·.erase name)) schema
    name none
  rw [← hwithout] at hdropped
  exact congrArg (fun left => Except.ok (table.forgetFiles, left)) hdropped

theorem blurred_renameTable (schema source target : String) :
    catalog.forgetFiles.renameTable schema source target =
      blurred CatalogError.forgetFiles forgetFiles (catalog.renameTable schema source target) := by
  refine blurred_bind (catalog.blurred_table schema source) fun table _ => ?_
  rw [hasTable_forgetFiles]
  split
  · rfl
  split
  · rfl
  have hmoved : catalog.forgetFiles.changeTables schema (fun tables =>
      (tables.erase source).insert target { table.forgetFiles with name := target }) =
        (catalog.changeTables schema fun tables =>
          (tables.erase source).insert target { table with name := target }).forgetFiles := by
    refine catalog.changeTables_forgetFiles (fun tables => ?_) schema
    rw [NameMap.erase_map]
    exact NameMap.insert_map _ Table.forgetFiles target { table with name := target }
  refine congrArg Except.ok ((congrArg (mapTables · _) hmoved).trans ?_)
  exact mapTables_forgetFiles _ (·.retargetTable_forgetFiles schema source target)

theorem blurred_addEnum (schema : String) (enumType : EnumType) :
    catalog.forgetFiles.addEnum schema enumType.forgetFiles =
      blurred CatalogError.forgetFiles forgetFiles (catalog.addEnum schema enumType) := by
  refine blurred_bind (catalog.blurred_schema schema) fun holder _ => ?_
  have hnamed : holder.forgetFiles.enums.contains enumType.forgetFiles.name =
      holder.enums.contains enumType.name := NameMap.contains_map _ _ _
  rw [hnamed]
  split
  · rfl
  · have hadded : catalog.forgetFiles.changeEnums schema
        (·.insert enumType.name enumType.forgetFiles) =
          (catalog.changeEnums schema (·.insert enumType.name enumType)).forgetFiles :=
      catalog.changeEnums_forgetFiles
        (·.insert_map EnumType.forgetFiles enumType.name enumType) schema
    exact congrArg Except.ok hadded

theorem blurred_dropEnum (schema name : String) : catalog.forgetFiles.dropEnum schema name =
    blurred CatalogError.forgetFiles (Prod.map EnumType.forgetFiles forgetFiles)
      (catalog.dropEnum schema name) := by
  rw [dropEnum, dropEnum, enum?_forgetFiles]
  cases catalog.enum? schema name with
  | none => rfl
  | some enumType =>
      have hwithout : catalog.forgetFiles.changeEnums schema (·.erase name) =
          (catalog.changeEnums schema (·.erase name)).forgetFiles :=
        catalog.changeEnums_forgetFiles (·.erase_map EnumType.forgetFiles name) schema
      exact congrArg (fun left => Except.ok (enumType.forgetFiles, left)) hwithout

theorem withoutEnum_forgetFiles (name : ObjectName) :
    catalog.forgetFiles.withoutEnum name = (catalog.withoutEnum name).forgetFiles := by
  have hdrop := catalog.blurred_dropEnum (name.schemaOr catalog.defaultSchema) name.base
  rw [withoutEnum, withoutEnum, show catalog.forgetFiles.defaultSchema = catalog.defaultSchema
    from rfl, hdrop]
  cases catalog.dropEnum (name.schemaOr catalog.defaultSchema) name.base <;> rfl

end Catalog

/-! ## Alterations -/

theorem Alteration.blurred_alter (catalog : Catalog) (table : Table) (alteration : Alteration) :
    alter catalog.forgetFiles table.forgetFiles alteration.forgetFiles =
      blurred CatalogError.forgetFiles Table.forgetFiles (alter catalog table alteration) := by
  cases alteration with
  | addColumn column => exact table.blurred_addColumn column
  | dropColumn name => exact blurred_bind (table.blurred_dropColumn name) fun _ _ => rfl
  | modifyColumn column => exact table.blurred_modifyColumn column
  | renameColumn source target => exact table.blurred_renameColumn source target
  | addIndex index => exact table.blurred_addIndex index
  | dropIndex name => exact blurred_bind (table.blurred_dropIndex name) fun _ _ => rfl
  | addForeignKey key =>
      exact blurred_bind (catalog.blurred_checkReference table key) fun _ _ =>
        table.blurred_addForeignKey key
  | dropForeignKey name => exact blurred_bind (table.blurred_dropForeignKey name) fun _ _ => rfl
  | renameForeignKey source target => exact table.blurred_renameForeignKey source target

theorem Alteration.follow_forgetFiles (schema name : String) (catalog : Catalog)
    (alteration : Alteration) : follow schema name catalog.forgetFiles alteration.forgetFiles =
      (follow schema name catalog alteration).forgetFiles := by
  cases alteration with
  | renameColumn source target =>
      refine catalog.mapTables_forgetFiles fun table => ?_
      show (if table.schema == schema && table.name == name then _ else _) = _
      split
      · rfl
      · exact table.retargetColumn_forgetFiles schema name source target
  | dropColumn column => exact catalog.dropReferences_forgetFiles schema name (some column)
  | _ => rfl

theorem Catalog.blurred_alterTableBatch (catalog : Catalog) (schema name : String)
    (alterations : List Alteration) :
    catalog.forgetFiles.alterTableBatch schema name (alterations.map Alteration.forgetFiles) =
      blurred CatalogError.forgetFiles forgetFiles
        (catalog.alterTableBatch schema name alterations) := by
  refine blurred_bind (catalog.blurred_table schema name) fun table _ => ?_
  refine blurred_bind (blurred_foldlM (Alteration.blurred_alter catalog) alterations table)
    fun altered _ => congrArg Except.ok ?_
  rw [putTable_forgetFiles, List.foldl_map]
  exact List.foldl_hom forgetFiles (Alteration.follow_forgetFiles schema name)

end Schemata
