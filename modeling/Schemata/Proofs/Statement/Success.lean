import Schemata.Proofs.Catalog.Extension
import Schemata.Proofs.Families
import Schemata.Proofs.Rejection

/-!
# Statements that succeed

What a successful statement does, without the failures: a declaration is `Catalog.declare`, and an
operation made of alterations is `Catalog.operate`.

A statement is carried out in a monad that keeps what a failed step has written, but of a statement
that succeeds nothing of this is left: it is a function from a catalog to a catalog.  Proofs about
catalogs before and after a statement start from the equivalences here and are in `Except` from
there on.

* `Migration.applyStatement_createTable_iff`, `Migration.applyStatement_alterTable_iff`: when the
  text of such a statement succeeds, and with which catalog.
* `Catalog.declare_append_keys_iff`: a foreign key with its table, or added to it afterwards.
-/

namespace Schemata

/-! ## Successful changes -/

namespace Change

variable {α β : Type} {before after : Catalog} {value : β}

theorem run_ofExcept_bind_iff {result : Except CatalogError α} {next : α → Change β} :
    (ofExcept result >>= next).run before = .ok value after ↔
      ∃ given, result = .ok given ∧ (next given).run before = .ok value after := by
  cases result with
  | error error =>
      constructor
      · intro hrun
        cases hrun
      · rintro ⟨given, hgiven, -⟩
        cases hgiven
  | ok given =>
      constructor
      · exact fun hrun => ⟨given, rfl, hrun⟩
      · rintro ⟨_, hgiven, hrun⟩
        cases hgiven
        exact hrun

theorem run_attempt_iff {operation : Catalog → Except CatalogError Catalog} :
    (attempt operation).run before = .ok () after ↔ operation before = .ok after := by
  rw [run_attempt]
  cases operation before <;> simp

/-- Two steps succeed when the first does and the second does on what the first left. -/
theorem run_then_eq_ok {first : Change Unit} {second : Change Unit} :
    (first >>= fun _ => second).run before = .ok () after ↔
      ∃ middle, first.run before = .ok () middle ∧ second.run middle = .ok () after := by
  rw [EStateM.run_bind]
  cases first.run before with
  | error error middle => simp
  | ok given middle => simp

end Change

/-! ## Declarations and operations -/

namespace Catalog

/-- The catalog with a declared table, and its schema if there was none. -/
def declare (catalog : Catalog) (origin : Origin) (statement : CreateTable) :
    Except CatalogError Catalog := do
  let schema := statement.name.schemaOr catalog.defaultSchema
  let table ← statement.table schema origin.file
  (catalog.ensureSchema schema).addTable table

/-- The catalog with the alterations made that an operation on a table asks for. -/
def operate (catalog : Catalog) (origin : Origin) (name : ObjectName) (operation : Operation) :
    Except CatalogError Catalog := do
  let schema := name.schemaOr catalog.defaultSchema
  let table ← catalog.table schema name.base
  let alterations ← operation.alterations origin table
  catalog.alterTableBatch schema name.base alterations

end Catalog

/-- The operation is made of alterations of its table. -/
def Operation.isAlteration : Operation → Bool
  | renameTable _ => false
  | several _ => false
  | _ => true

section Success

variable {origin : Origin} {before after : Catalog}

theorem CreateTable.run_apply_iff {statement : CreateTable}
    (hguard : statement.ifNotExists = false) :
    (statement.apply origin).run before = .ok () after ↔
      before.declare origin statement = .ok after := by
  unfold CreateTable.apply
  rw [Change.run_get_bind, Change.run_modify_bind, Change.run_get_bind, hguard, Bool.false_and,
    if_neg Bool.false_ne_true, Change.run_ofExcept_bind_iff, Catalog.declare, except_bind_eq_ok]
  simp only [Change.run_attempt_iff]

theorem AlterTable.run_apply_iff {name : ObjectName} {operation : Operation}
    (halteration : operation.isAlteration = true) {again : String → Change Unit} :
    (AlterTable.apply ⟨name, false, operation⟩ origin again).run before = .ok () after ↔
      before.operate origin name operation = .ok after := by
  have halter : ∀ table,
      (do
        let alterations ← Change.ofExcept (operation.alterations origin table)
        Change.attempt (·.alterTableBatch (name.schemaOr before.defaultSchema) name.base
          alterations) : Change Unit).run before = .ok () after ↔
      (do
        let alterations ← operation.alterations origin table
        before.alterTableBatch (name.schemaOr before.defaultSchema) name.base
          alterations) = .ok after := by
    intro table
    simp only [Change.run_ofExcept_bind_iff, Change.run_attempt_iff, except_bind_eq_ok]
  unfold AlterTable.apply Catalog.operate
  rw [Change.run_get_bind, Change.run_get_bind, Bool.false_and, if_neg Bool.false_ne_true,
    Change.run_get_bind, Change.run_ofExcept_bind_iff, except_bind_eq_ok]
  refine exists_congr fun table => and_congr_right fun _ => ?_
  cases operation with
  | renameTable target => cases halteration
  | several clauses => cases halteration
  | _ => exact halter table

end Success

/-! ## What is added and dropped -/

/-- The foreign keys that a column definition declares in a table. -/
def ColumnDefinition.keys (definition : ColumnDefinition) (table file : String) :
    List ForeignKey :=
  definition.foreignKey.toList.flatMap (·.expand table file)

namespace Operation

theorem alterations_addColumn (origin : Origin) (definition : ColumnDefinition) (table : Table) :
    (addColumn definition false).alterations origin table =
      .ok ([definition.column].map Alteration.addColumn ++
        (definition.keys table.name origin.file).map Alteration.addForeignKey) := rfl

theorem alterations_addForeignKey (origin : Origin) (constraint : ForeignKeyConstraint)
    (table : Table) :
    (addConstraint (.foreignKey constraint)).alterations origin table =
      .ok (([] : List Column).map Alteration.addColumn ++
        (constraint.expand table.name origin.file).map Alteration.addForeignKey) := rfl

end Operation

namespace Catalog

variable {catalog after : Catalog} {origin : Origin} {name : ObjectName}

theorem declare_iff {statement : CreateTable} :
    catalog.declare origin statement = .ok after ↔
      catalog.table? (statement.name.schemaOr catalog.defaultSchema) statement.name.base = none ∧
      (catalog.ensureSchema (statement.name.schemaOr catalog.defaultSchema)).Admits
        (.empty (statement.name.schemaOr catalog.defaultSchema) statement.name.base origin.file)
        statement.columns statement.foreignKeys ∧
      after = (catalog.ensureSchema (statement.name.schemaOr catalog.defaultSchema)).putTable
        (statement.name.schemaOr catalog.defaultSchema)
        ((Table.empty (statement.name.schemaOr catalog.defaultSchema) statement.name.base
          origin.file).extend statement.columns statement.foreignKeys) := by
  rw [declare, addTable_declared_iff, table?_ensureSchema]
  exact and_iff_right (hasSchema_ensureSchema catalog _)

/-- Adding what is admitted to a table of the catalog. -/
theorem operate_additions_iff {operation : Operation} {columns : List Column}
    {keys : Table → List ForeignKey}
    (halterations : ∀ table, operation.alterations origin table = .ok
      (columns.map Alteration.addColumn ++ (keys table).map Alteration.addForeignKey)) :
    catalog.operate origin name operation = .ok after ↔
      ∃ table, catalog.table? (name.schemaOr catalog.defaultSchema) name.base = some table ∧
        catalog.Admits table columns (keys table) ∧
        after = catalog.putTable (name.schemaOr catalog.defaultSchema)
          (table.extend columns (keys table)) := by
  simp only [operate, except_bind_eq_ok, table_eq_ok_iff, halterations, Except.ok.injEq,
    exists_eq_left', alterTableBatch_additions_iff]
  constructor
  · rintro ⟨table, htable, found, hfound, hadmits⟩
    obtain rfl := Option.some.inj (htable.symm.trans hfound)
    exact ⟨table, htable, hadmits⟩
  · rintro ⟨table, htable, hadmits⟩
    exact ⟨table, htable, table, htable, hadmits⟩

theorem operate_addColumn_iff {definition : ColumnDefinition} :
    catalog.operate origin name (.addColumn definition false) = .ok after ↔
      ∃ table, catalog.table? (name.schemaOr catalog.defaultSchema) name.base = some table ∧
        catalog.Admits table [definition.column] (definition.keys table.name origin.file) ∧
        after = catalog.putTable (name.schemaOr catalog.defaultSchema)
          (table.extend [definition.column] (definition.keys table.name origin.file)) :=
  operate_additions_iff (Operation.alterations_addColumn origin definition)

theorem operate_addForeignKey_iff {constraint : ForeignKeyConstraint} :
    catalog.operate origin name (.addConstraint (.foreignKey constraint)) = .ok after ↔
      ∃ table, catalog.table? (name.schemaOr catalog.defaultSchema) name.base = some table ∧
        catalog.Admits table [] (constraint.expand table.name origin.file) ∧
        after = catalog.putTable (name.schemaOr catalog.defaultSchema)
          (table.extend [] (constraint.expand table.name origin.file)) :=
  operate_additions_iff (Operation.alterations_addForeignKey origin constraint)

/-- Adding to a table that was just put in its place. -/
theorem operate_placed_iff {schema : String} {table : Table}
    (hschema : catalog.hasSchema schema = true)
    (hplace : name.schemaOr catalog.defaultSchema = schema) (hname : table.name = name.base)
    {operation : Operation} {columns : List Column} {keys : Table → List ForeignKey}
    (halterations : ∀ table, operation.alterations origin table = .ok
      (columns.map Alteration.addColumn ++ (keys table).map Alteration.addForeignKey)) :
    (catalog.putTable schema table).operate origin name operation = .ok after ↔
      (catalog.putTable schema table).Admits table columns (keys table) ∧
        after = catalog.putTable schema (table.extend columns (keys table)) := by
  have hfound : (catalog.putTable schema table).table? schema name.base = some table :=
    table?_putTable_self hschema hname
  have hput : (catalog.putTable schema table).putTable schema
      (table.extend columns (keys table)) =
        catalog.putTable schema (table.extend columns (keys table)) :=
    putTable_putTable hschema (by rfl)
  rw [operate_additions_iff halterations, defaultSchema_putTable, hplace, hfound]
  simp only [Option.some.injEq, exists_eq_left', hput]

/-- A foreign key is declared with its table, or added to it afterwards. -/
theorem declare_append_keys_iff {columns : List Column} {keys : List ForeignKey}
    {constraint : ForeignKeyConstraint} :
    catalog.declare origin {
        name := name
        ifNotExists := false
        columns := columns
        foreignKeys := keys ++ constraint.expand name.base origin.file
        primaryKey := [] } = .ok after ↔
      ∃ middle, catalog.declare origin {
          name := name
          ifNotExists := false
          columns := columns
          foreignKeys := keys
          primaryKey := [] } = .ok middle ∧
        middle.operate origin name (.addConstraint (.foreignKey constraint)) = .ok after := by
  have hschema := hasSchema_ensureSchema catalog (name.schemaOr catalog.defaultSchema)
  -- The default schema stays, so that the alteration looks where the declaration put the table.
  have hplace : name.schemaOr
      (catalog.ensureSchema (name.schemaOr catalog.defaultSchema)).defaultSchema =
        name.schemaOr catalog.defaultSchema := by
    rw [defaultSchema_ensureSchema]
  have hadds := Operation.alterations_addForeignKey origin constraint
  simp only [declare_iff]
  constructor
  · rintro ⟨hnone, hadmits, rfl⟩
    obtain ⟨hdeclared, hadded⟩ := (admits_append_keys_iff hschema).mp hadmits
    refine ⟨_, ⟨hnone, hdeclared, rfl⟩,
      (operate_placed_iff hschema hplace (by rfl) hadds).mpr ⟨hadded, ?_⟩⟩
    rw [Table.extend_extend, List.append_nil]
    rfl
  · rintro ⟨_, ⟨hnone, hdeclared, rfl⟩, hoperate⟩
    obtain ⟨hadded, rfl⟩ :=
      (operate_placed_iff hschema hplace (by rfl) hadds).mp hoperate
    refine ⟨hnone, (admits_append_keys_iff hschema).mpr ⟨hdeclared, hadded⟩, ?_⟩
    rw [Table.extend_extend, List.append_nil]
    rfl

theorem operate_dropColumn_iff {column : String} :
    catalog.operate origin name (.dropColumn column false) = .ok after ↔
      catalog.alterTable (name.schemaOr catalog.defaultSchema) name.base (.dropColumn column) =
        .ok after := by
  simp only [operate, Operation.alterations, Bool.false_and, Bool.false_eq_true, if_false,
    except_bind_eq_ok, Except.ok.injEq, exists_eq_left', table_eq_ok_iff]
  constructor
  · rintro ⟨table, -, halter⟩
    exact halter
  · intro halter
    obtain ⟨table, htable⟩ := exists_table?_of_alterTableBatch halter
    exact ⟨table, htable, halter⟩

end Catalog

/-! ## Texts -/

namespace Migration

variable {family : Family} {file text : String} {before after : Catalog}

theorem applyStatement_iff : (applyStatement family file text).run before = .ok () after ↔
    ∃ statement, Statement.read ⟨file, family⟩ text = .ok statement ∧
      (statement.apply ⟨file, family⟩).run before = .ok () after := by
  rw [applyStatement_eq_ok_iff, Statement.applyText, Change.run_ofExcept_bind_iff]
  simp only [Change.ofReading_eq_ok]

/-- The text of a declaration succeeds when the table can be declared. -/
theorem applyStatement_createTable_iff {statement : CreateTable}
    (hread : Statement.read ⟨file, family⟩ text = .ok (.createTable statement))
    (hguard : statement.ifNotExists = false) :
    (applyStatement family file text).run before = .ok () after ↔
      before.declare ⟨file, family⟩ statement = .ok after := by
  rw [applyStatement_iff, hread]
  simp only [Except.ok.injEq, exists_eq_left']
  exact CreateTable.run_apply_iff hguard

/-- The text of an operation made of alterations succeeds when they can be made. -/
theorem applyStatement_alterTable_iff {name : ObjectName} {operation : Operation}
    (hread : Statement.read ⟨file, family⟩ text = .ok (.alterTable ⟨name, false, operation⟩))
    (halteration : operation.isAlteration = true) :
    (applyStatement family file text).run before = .ok () after ↔
      before.operate ⟨file, family⟩ name operation = .ok after := by
  rw [applyStatement_iff, hread]
  simp only [Except.ok.injEq, exists_eq_left']
  rw [Statement.apply, Statement.applyNested]
  exact AlterTable.run_apply_iff halteration

end Migration

end Schemata
