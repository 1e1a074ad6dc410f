import Mathlib.Data.List.Nodup
import Schemata.Catalog.Alteration
import Schemata.Proofs.Outcome

/-!
# Edits of a single table

An alteration of the catalog edits a copy of one table.  `Alteration.edit` is that edit without the
question whether a new foreign key's target exists, so it needs no catalog; these are the changes
that a table offers by itself.

`Table.Edited` says once what an edit can do, guards included, and `edit_eq_ok_iff` that it says
neither more nor less.  It rests on one equivalence for each operation of a table, such as
`addColumn_eq_ok_iff`, so an operation that changes takes its own equivalence and one constructor
with it and nothing else.  Every fact about edits is then a case analysis:

* `Edited.wellFormed`: names of each sort stay apart and foreign keys stay on columns of the table;
* `Edited.schema_eq`, `Edited.name_eq`: a table stays where it is;
* `alter_eq_ok_iff`: an alteration is an edit whose new foreign key resolves.

What a renamed or dropped column does to the keys of the table is the only part with an argument in
it.  A key has two columns, its own and the one it leads to, and a key of the table to itself can
have both of them renamed at once (`renameColumnInKey_eq`) or be dropped for either
(`mem_foreignKeys_withoutColumn`).
-/

namespace Schemata

/-! ## Lists of named things -/

section Named

variable {α : Type} {label : α → String} {items : List α} {source target : String}

/-- Changing the first item of a name changes the first occurrence of that name. -/
theorem map_changeFirst {change : α → α} (hchange : ∀ item, label (change item) = target) :
    (changeFirst (label · == source) change items).map label =
      (items.map label).replace source target := by
  induction items with
  | nil => rfl
  | cons item rest ih =>
      rw [changeFirst, List.map_cons, List.replace_cons]
      by_cases hitem : label item = source
      · simp [hitem, hchange]
      · simp [hitem, beq_eq_false_iff_ne.mpr (Ne.symm hitem), ih]

/-- Changing the first item of a name to an item of that name changes no names. -/
theorem map_changeFirst_self {change : α → α} (hchange : ∀ item, label (change item) = source) :
    (changeFirst (label · == source) change items).map label = items.map label := by
  induction items with
  | nil => rfl
  | cons item rest ih =>
      rw [changeFirst, List.map_cons]
      by_cases hitem : label item = source
      · simp [hitem, hchange]
      · simp [hitem, ih]

/-- A changed item is an old one or the change of an old one. -/
theorem mem_changeFirst {test : α → Bool} {change : α → α} {item : α}
    (hitem : item ∈ changeFirst test change items) :
    item ∈ items ∨ ∃ old ∈ items, test old = true ∧ item = change old := by
  induction items with
  | nil => cases hitem
  | cons first rest ih =>
      rw [changeFirst] at hitem
      split at hitem
      · rename_i htest
        rcases List.mem_cons.mp hitem with rfl | hitem
        · exact Or.inr ⟨first, List.mem_cons_self, htest, rfl⟩
        · exact Or.inl (List.mem_cons_of_mem _ hitem)
      · rcases List.mem_cons.mp hitem with rfl | hitem
        · exact Or.inl List.mem_cons_self
        · rcases ih hitem with hmem | ⟨old, hold, htest, rfl⟩
          · exact Or.inl (List.mem_cons_of_mem _ hmem)
          · exact Or.inr ⟨old, List.mem_cons_of_mem _ hold, htest, rfl⟩

/-- The names after a replacement: the new one and the others. -/
theorem mem_replace_iff {names : List String} (hnodup : names.Nodup) (hsource : source ∈ names)
    {name : String} :
    name ∈ names.replace source target ↔ name = target ∨ name ∈ names ∧ name ≠ source := by
  induction names with
  | nil => cases hsource
  | cons first rest ih =>
      obtain ⟨hfirst, hrest⟩ := List.nodup_cons.mp hnodup
      rw [List.replace_cons]
      by_cases hsame : source = first
      · -- The names are apart, so the replaced one does not come again.
        subst hsame
        have hne : name ∈ rest → name ≠ source := fun hmem heq => hfirst (heq ▸ hmem)
        simp only [beq_self_eq_true, List.mem_cons]
        tauto
      · have hmem : source ∈ rest := (List.mem_cons.mp hsource).resolve_left hsame
        have hne : name = first → name ≠ source := fun heq hsource => hsame (hsource ▸ heq)
        simp only [beq_eq_false_iff_ne.mpr hsame, List.mem_cons, ih hrest hmem]
        tauto

/-- Replacing a name by a new one keeps names apart. -/
theorem nodup_replace {names : List String} (hnodup : names.Nodup) (hfresh : target ∉ names) :
    (names.replace source target).Nodup := by
  induction names with
  | nil => exact List.nodup_nil
  | cons first rest ih =>
      obtain ⟨hfirst, hrest⟩ := List.nodup_cons.mp hnodup
      obtain ⟨htarget, hfresh⟩ := not_or.mp (mt List.mem_cons.mpr hfresh)
      rw [List.replace_cons]
      split
      · exact List.nodup_cons.mpr ⟨hfresh, hrest⟩
      · refine List.nodup_cons.mpr ⟨fun hmem => ?_, ih hrest hfresh⟩
        by_cases hsource : source ∈ rest
        · rcases (mem_replace_iff hrest hsource).mp hmem with heq | ⟨hmem, -⟩
          · exact htarget heq.symm
          · exact hfirst hmem
        · rw [List.replace_of_not_mem hsource] at hmem
          exact hfirst hmem

/-- A new name at the end keeps names apart. -/
theorem nodup_map_concat {item : α} (hnodup : (items.map label).Nodup)
    (hfresh : label item ∉ items.map label) : ((items ++ [item]).map label).Nodup := by
  rw [List.map_append]
  exact List.nodup_append_comm.mp (List.nodup_cons.mpr ⟨hfresh, hnodup⟩)

/-- Taking out the first item of a name takes out the first occurrence of that name. -/
theorem map_eraseP (source : String) :
    (items.eraseP (label · == source)).map label = (items.map label).erase source := by
  rw [List.erase_eq_eraseP', List.eraseP_map]
  rfl

end Named

namespace Table

variable {table edited : Table} {alteration : Alteration} {name : String}

/-! ## Tables in good order -/

/-- Names of each sort are apart, and every foreign key is on a column of the table. -/
structure WellFormed (table : Table) : Prop where
  columns_nodup : (table.columns.map Column.name).Nodup
  indexes_nodup : (table.indexes.map Index.name).Nodup
  foreignKeys_nodup : (table.foreignKeys.map ForeignKey.name).Nodup
  hasColumn_key : ∀ key ∈ table.foreignKeys, table.hasColumn key.column = true

theorem hasColumn_iff : table.hasColumn name = true ↔ name ∈ table.columns.map Column.name := by
  simp [hasColumn, List.any_eq_true]

theorem hasIndex_iff : table.hasIndex name = true ↔ name ∈ table.indexes.map Index.name := by
  simp [hasIndex, List.any_eq_true]

theorem hasForeignKey_iff :
    table.hasForeignKey name = true ↔ name ∈ table.foreignKeys.map ForeignKey.name := by
  simp [hasForeignKey, List.any_eq_true]

theorem hasColumn_eq_false_iff :
    table.hasColumn name = false ↔ name ∉ table.columns.map Column.name := by
  rw [← hasColumn_iff, Bool.not_eq_true]

theorem hasIndex_eq_false_iff :
    table.hasIndex name = false ↔ name ∉ table.indexes.map Index.name := by
  rw [← hasIndex_iff, Bool.not_eq_true]

theorem hasForeignKey_eq_false_iff :
    table.hasForeignKey name = false ↔ name ∉ table.foreignKeys.map ForeignKey.name := by
  rw [← hasForeignKey_iff, Bool.not_eq_true]

theorem wellFormed_empty (schema name file : String) : (Table.empty schema name file).WellFormed :=
  ⟨List.nodup_nil, List.nodup_nil, List.nodup_nil, fun _ hkey => nomatch hkey⟩

/-- Keys may go or move to other targets, as long as they keep their names and columns. -/
theorem WellFormed.of_keys {other : Table} (hwell : table.WellFormed)
    (hcolumns : other.columns = table.columns) (hindexes : other.indexes = table.indexes)
    (hnames : (other.foreignKeys.map ForeignKey.name).Sublist
      (table.foreignKeys.map ForeignKey.name))
    (hanchored : ∀ key ∈ other.foreignKeys, ∃ old ∈ table.foreignKeys, old.column = key.column) :
    other.WellFormed := by
  refine ⟨hcolumns ▸ hwell.columns_nodup, hindexes ▸ hwell.indexes_nodup,
    hwell.foreignKeys_nodup.sublist hnames, fun key hkey => ?_⟩
  obtain ⟨old, hold, hcolumn⟩ := hanchored key hkey
  rw [hasColumn, hcolumns, ← hasColumn, ← hcolumn]
  exact hwell.hasColumn_key old hold

theorem WellFormed.dropReferences (hwell : table.WellFormed) (schema name : String)
    (column : Option String) : (table.dropReferences schema name column).WellFormed :=
  hwell.of_keys rfl rfl (List.filter_sublist.map _) fun key hkey =>
    ⟨key, List.mem_of_mem_filter hkey, rfl⟩

/-- A change of every key that keeps its name and its column. -/
theorem WellFormed.mapKeys (hwell : table.WellFormed) {change : ForeignKey → ForeignKey}
    (hname : ∀ key, (change key).name = key.name)
    (hcolumn : ∀ key, (change key).column = key.column) :
    { table with foreignKeys := table.foreignKeys.map change }.WellFormed := by
  refine hwell.of_keys rfl rfl ?_ fun key hkey => ?_
  · simp [Function.comp_def, hname]
  · obtain ⟨old, hold, rfl⟩ := List.mem_map.mp hkey
    exact ⟨old, hold, (hcolumn old).symm⟩

theorem WellFormed.retargetTable (hwell : table.WellFormed) (schema source target : String) :
    (table.retargetTable schema source target).WellFormed :=
  hwell.mapKeys (fun key => by split <;> rfl) fun key => by split <;> rfl

theorem WellFormed.retargetColumn (hwell : table.WellFormed)
    (schema name source target : String) :
    (table.retargetColumn schema name source target).WellFormed :=
  hwell.mapKeys (fun key => by split <;> rfl) fun key => by split <;> rfl

end Table

/-! ## What an edit can do -/

/-- Makes the change to a table, without asking where a new foreign key leads. -/
def Alteration.edit (table : Table) : Alteration → Except CatalogError Table
  | addColumn column => table.addColumn column
  | dropColumn name => return (← table.dropColumn name).2
  | modifyColumn column => table.modifyColumn column
  | renameColumn source target => table.renameColumn source target
  | addIndex index => table.addIndex index
  | dropIndex name => return (← table.dropIndex name).2
  | addForeignKey key => table.addForeignKey key
  | dropForeignKey name => return (← table.dropForeignKey name).2
  | renameForeignKey source target => table.renameForeignKey source target

namespace Table

/-- The edits that are not refused, with the tables they make. -/
inductive Edited (table : Table) : Alteration → Table → Prop
  | addColumn {column : Column} (hfresh : table.hasColumn column.name = false) :
      Edited table (.addColumn column) { table with columns := table.columns ++ [column] }
  | dropColumn {name : String} (hcolumn : table.hasColumn name = true) :
      Edited table (.dropColumn name) (table.withoutColumn name)
  | modifyColumn {column : Column} (hcolumn : table.hasColumn column.name = true) :
      Edited table (.modifyColumn column) { table with
        columns := changeFirst (·.name == column.name) (fun _ => column) table.columns }
  | keepColumn {name : String} (hcolumn : table.hasColumn name = true) :
      Edited table (.renameColumn name name) table
  | renameColumn {source target : String} (hcolumn : table.hasColumn source = true)
      (hne : source ≠ target) (hfresh : table.hasColumn target = false) :
      Edited table (.renameColumn source target) (table.withColumnRenamed source target)
  | addIndex {index : Index} (hfresh : table.hasIndex index.name = false) :
      Edited table (.addIndex index) { table with indexes := table.indexes ++ [index] }
  | dropIndex {name : String} (hindex : table.hasIndex name = true) :
      Edited table (.dropIndex name) { table with
        indexes := table.indexes.eraseP (·.name == name) }
  | addForeignKey {key : ForeignKey} (hfresh : table.hasForeignKey key.name = false)
      (hcolumn : table.hasColumn key.column = true) :
      Edited table (.addForeignKey key) { table with foreignKeys := table.foreignKeys ++ [key] }
  | dropForeignKey {name : String} (hkey : table.hasForeignKey name = true) :
      Edited table (.dropForeignKey name) { table with
        foreignKeys := table.foreignKeys.eraseP (·.name == name) }
  | renameForeignKey {source target : String} (hkey : table.hasForeignKey source = true)
      (hfresh : source = target ∨ table.hasForeignKey target = false) :
      Edited table (.renameForeignKey source target) { table with
        foreignKeys :=
          changeFirst (·.name == source) ({ · with name := target }) table.foreignKeys }

variable {table edited : Table} {alteration : Alteration} {name : String}

theorem column_eq_ok_iff {column : Column} :
    table.column name = .ok column ↔ table.column? name = some column := by
  unfold Table.column
  cases table.column? name <;> simp

theorem isSome_column? : (table.column? name).isSome = table.hasColumn name :=
  List.isSome_find?

theorem isSome_index? : (table.index? name).isSome = table.hasIndex name :=
  List.isSome_find?

theorem isSome_foreignKey? : (table.foreignKey? name).isSome = table.hasForeignKey name :=
  List.isSome_find?

/-- The column found under a name has that name. -/
theorem column?_mem_name {column : Column} (hcolumn : table.column? name = some column) :
    column ∈ table.columns ∧ column.name = name :=
  ⟨List.mem_of_find?_eq_some hcolumn, by simpa using List.find?_some hcolumn⟩

/-! ### The edits that are not refused -/

theorem addColumn_eq_ok_iff {column : Column} :
    table.addColumn column = .ok edited ↔ table.hasColumn column.name = false ∧
      edited = { table with columns := table.columns ++ [column] } := by
  unfold addColumn
  cases table.hasColumn column.name <;> simp [eq_comm]

theorem dropColumn_eq_ok_iff {removed : Column} :
    table.dropColumn name = .ok (removed, edited) ↔
      table.column? name = some removed ∧ edited = table.withoutColumn name := by
  simp [dropColumn, column_eq_ok_iff, @eq_comm _ edited]

theorem modifyColumn_eq_ok_iff {column : Column} :
    table.modifyColumn column = .ok edited ↔ table.hasColumn column.name = true ∧
      edited = { table with
        columns := changeFirst (·.name == column.name) (fun _ => column) table.columns } := by
  unfold modifyColumn
  cases table.hasColumn column.name <;> simp [eq_comm]

theorem renameColumn_eq_ok_iff {source target : String} :
    table.renameColumn source target = .ok edited ↔ table.hasColumn source = true ∧
      (source = target ∧ edited = table ∨
        source ≠ target ∧ table.hasColumn target = false ∧
          edited = table.withColumnRenamed source target) := by
  unfold renameColumn
  by_cases hsame : source = target
  · subst hsame
    cases table.hasColumn source <;> simp [@eq_comm _ edited]
  · cases table.hasColumn source <;> cases table.hasColumn target <;>
      simp [hsame, @eq_comm _ edited]

theorem addIndex_eq_ok_iff {index : Index} :
    table.addIndex index = .ok edited ↔ table.hasIndex index.name = false ∧
      edited = { table with indexes := table.indexes ++ [index] } := by
  unfold addIndex
  cases table.hasIndex index.name <;> simp [eq_comm]

theorem dropIndex_eq_ok_iff {removed : Index} :
    table.dropIndex name = .ok (removed, edited) ↔ table.index? name = some removed ∧
      edited = { table with indexes := table.indexes.eraseP (·.name == name) } := by
  unfold dropIndex
  cases table.index? name <;> simp [eq_comm]

theorem addForeignKey_eq_ok_iff {key : ForeignKey} :
    table.addForeignKey key = .ok edited ↔ table.hasForeignKey key.name = false ∧
      table.hasColumn key.column = true ∧
        edited = { table with foreignKeys := table.foreignKeys ++ [key] } := by
  unfold addForeignKey
  cases table.hasForeignKey key.name <;> cases table.hasColumn key.column <;> simp [eq_comm]

theorem dropForeignKey_eq_ok_iff {removed : ForeignKey} :
    table.dropForeignKey name = .ok (removed, edited) ↔ table.foreignKey? name = some removed ∧
      edited = { table with foreignKeys := table.foreignKeys.eraseP (·.name == name) } := by
  unfold dropForeignKey
  cases table.foreignKey? name <;> simp [eq_comm]

theorem renameForeignKey_eq_ok_iff {source target : String} :
    table.renameForeignKey source target = .ok edited ↔ table.hasForeignKey source = true ∧
      (source = target ∨ table.hasForeignKey target = false) ∧
        edited = { table with
          foreignKeys :=
            changeFirst (·.name == source) ({ · with name := target }) table.foreignKeys } := by
  unfold renameForeignKey
  by_cases hsame : source = target
  · subst hsame
    cases table.hasForeignKey source <;> simp [@eq_comm _ edited]
  · cases table.hasForeignKey source <;> cases table.hasForeignKey target <;>
      simp [hsame, @eq_comm _ edited]

/-- An edit succeeds as `Edited` says and in no other way. -/
theorem edit_eq_ok_iff : alteration.edit table = .ok edited ↔ table.Edited alteration edited := by
  constructor
  · -- by the kind of the alteration; an edit that drops something hands it out beside the table
    intro hedit
    cases alteration with
    | addColumn column =>
        obtain ⟨hfresh, rfl⟩ := addColumn_eq_ok_iff.mp hedit
        exact .addColumn hfresh
    | dropColumn name =>
        simp only [Alteration.edit, except_bind_eq_ok, except_pure_eq_ok] at hedit
        obtain ⟨⟨removed, rest⟩, hdrop, rfl⟩ := hedit
        obtain ⟨hcolumn, rfl⟩ := dropColumn_eq_ok_iff.mp hdrop
        exact .dropColumn (by rw [← isSome_column?, hcolumn]; rfl)
    | modifyColumn column =>
        obtain ⟨hcolumn, rfl⟩ := modifyColumn_eq_ok_iff.mp hedit
        exact .modifyColumn hcolumn
    | renameColumn source target =>
        obtain ⟨hcolumn, ⟨rfl, rfl⟩ | ⟨hne, hfresh, rfl⟩⟩ := renameColumn_eq_ok_iff.mp hedit
        · exact .keepColumn hcolumn
        · exact .renameColumn hcolumn hne hfresh
    | addIndex index =>
        obtain ⟨hfresh, rfl⟩ := addIndex_eq_ok_iff.mp hedit
        exact .addIndex hfresh
    | dropIndex name =>
        simp only [Alteration.edit, except_bind_eq_ok, except_pure_eq_ok] at hedit
        obtain ⟨⟨removed, rest⟩, hdrop, rfl⟩ := hedit
        obtain ⟨hindex, rfl⟩ := dropIndex_eq_ok_iff.mp hdrop
        exact .dropIndex (by rw [← isSome_index?, hindex]; rfl)
    | addForeignKey key =>
        obtain ⟨hfresh, hcolumn, rfl⟩ := addForeignKey_eq_ok_iff.mp hedit
        exact .addForeignKey hfresh hcolumn
    | dropForeignKey name =>
        simp only [Alteration.edit, except_bind_eq_ok, except_pure_eq_ok] at hedit
        obtain ⟨⟨removed, rest⟩, hdrop, rfl⟩ := hedit
        obtain ⟨hkey, rfl⟩ := dropForeignKey_eq_ok_iff.mp hdrop
        exact .dropForeignKey (by rw [← isSome_foreignKey?, hkey]; rfl)
    | renameForeignKey source target =>
        obtain ⟨hkey, hfresh, rfl⟩ := renameForeignKey_eq_ok_iff.mp hedit
        exact .renameForeignKey hkey hfresh
  · -- by what the edit can do, where two constructors share the kind of a renamed column
    intro hedited
    cases hedited with
    | addColumn hfresh => exact addColumn_eq_ok_iff.mpr ⟨hfresh, rfl⟩
    | @dropColumn name hcolumn =>
        obtain ⟨column, hfound⟩ := Option.isSome_iff_exists.mp (isSome_column?.trans hcolumn)
        rw [Alteration.edit, dropColumn_eq_ok_iff.mpr ⟨hfound, rfl⟩]
        rfl
    | modifyColumn hcolumn => exact modifyColumn_eq_ok_iff.mpr ⟨hcolumn, rfl⟩
    | keepColumn hcolumn => exact renameColumn_eq_ok_iff.mpr ⟨hcolumn, Or.inl ⟨rfl, rfl⟩⟩
    | renameColumn hcolumn hne hfresh =>
        exact renameColumn_eq_ok_iff.mpr ⟨hcolumn, Or.inr ⟨hne, hfresh, rfl⟩⟩
    | addIndex hfresh => exact addIndex_eq_ok_iff.mpr ⟨hfresh, rfl⟩
    | @dropIndex name hindex =>
        obtain ⟨index, hfound⟩ := Option.isSome_iff_exists.mp (isSome_index?.trans hindex)
        rw [Alteration.edit, dropIndex_eq_ok_iff.mpr ⟨hfound, rfl⟩]
        rfl
    | addForeignKey hfresh hcolumn =>
        exact addForeignKey_eq_ok_iff.mpr ⟨hfresh, hcolumn, rfl⟩
    | @dropForeignKey name hkey =>
        obtain ⟨key, hfound⟩ := Option.isSome_iff_exists.mp (isSome_foreignKey?.trans hkey)
        rw [Alteration.edit, dropForeignKey_eq_ok_iff.mpr ⟨hfound, rfl⟩]
        rfl
    | renameForeignKey hkey hfresh =>
        exact renameForeignKey_eq_ok_iff.mpr ⟨hkey, hfresh, rfl⟩

/-! ## What an edit keeps -/

theorem Edited.schema_eq (hedited : table.Edited alteration edited) :
    edited.schema = table.schema := by
  cases hedited <;> rfl

theorem Edited.name_eq (hedited : table.Edited alteration edited) : edited.name = table.name := by
  cases hedited <;> rfl

theorem hasColumn_withoutColumn (hnodup : (table.columns.map Column.name).Nodup)
    {query : String} :
    (table.withoutColumn name).hasColumn query = true ↔
      table.hasColumn query = true ∧ query ≠ name := by
  have hcolumns : (table.withoutColumn name).columns.map Column.name =
      (table.columns.map Column.name).erase name := map_eraseP name
  rw [hasColumn_iff, hasColumn_iff, hcolumns, hnodup.mem_erase_iff, and_comm]

theorem hasColumn_withColumnRenamed (hnodup : (table.columns.map Column.name).Nodup)
    {source target query : String} (hsource : table.hasColumn source = true) :
    (table.withColumnRenamed source target).hasColumn query = true ↔
      query = target ∨ table.hasColumn query = true ∧ query ≠ source := by
  have hcolumns : (table.withColumnRenamed source target).columns.map Column.name =
      (table.columns.map Column.name).replace source target := map_changeFirst fun _ => rfl
  rw [hasColumn_iff, hasColumn_iff, hcolumns, mem_replace_iff hnodup (hasColumn_iff.mp hsource)]

/-- A renaming in a key concerns its two columns, each by itself. -/
theorem renameColumnInKey_eq (table : Table) (source target : String) (key : ForeignKey) :
    table.renameColumnInKey source target key = { key with
      column := if key.column = source then target else key.column
      referencedColumn :=
        if key.pointsAt table.schema table.schema table.name = true ∧
          key.referencedColumn = source then target else key.referencedColumn } := by
  obtain ⟨name, column, schema, referenced, referencedColumn, onUpdate, onDelete, file⟩ := key
  simp only [renameColumnInKey, ForeignKey.pointsAt, ForeignKey.targetSchema]
  by_cases hself : referenced = table.name ∧ schema.getD table.schema = table.schema <;>
    by_cases hcolumn : column = source <;> by_cases hreferenced : referencedColumn = source <;>
    simp [hself, hcolumn, hreferenced]

/-- A key of a table without a column is a key of the table that is neither on the column nor, from
the table itself, to it. -/
theorem mem_foreignKeys_withoutColumn {key : ForeignKey} :
    key ∈ (table.withoutColumn name).foreignKeys ↔
      key ∈ table.foreignKeys ∧ key.column ≠ name ∧
        ¬ (key.pointsAt table.schema table.schema table.name = true ∧
          key.referencedColumn = name) := by
  simp only [withoutColumn, dropReferences, List.mem_filter, bne_iff_ne, Bool.not_eq_true',
    Option.all_some, Bool.and_eq_false_iff, beq_eq_false_iff_ne]
  cases key.pointsAt table.schema table.schema table.name <;> simp [and_assoc]

theorem mem_foreignKeys_dropReferences {key : ForeignKey} {schema column : String} :
    key ∈ (table.dropReferences schema name (some column)).foreignKeys ↔
      key ∈ table.foreignKeys ∧
        ¬ (key.pointsAt table.schema schema name = true ∧ key.referencedColumn = column) := by
  simp only [dropReferences, List.mem_filter, Bool.not_eq_true', Option.all_some,
    Bool.and_eq_false_iff, beq_eq_false_iff_ne]
  cases key.pointsAt table.schema schema name <;> simp

/-- A table without references to a column has none to drop. -/
theorem dropReferences_eq_self {schema column : String}
    (hnone : ∀ key ∈ table.foreignKeys,
      ¬ (key.pointsAt table.schema schema name = true ∧ key.referencedColumn = column)) :
    table.dropReferences schema name (some column) = table := by
  have hkeys : table.foreignKeys.filter (fun key =>
      !(key.pointsAt table.schema schema name && key.referencedColumn == column)) =
        table.foreignKeys := by
    refine List.filter_eq_self.mpr fun key hkey => ?_
    rw [Bool.not_eq_true', ← Bool.not_eq_true, Bool.and_eq_true, beq_iff_eq]
    exact hnone key hkey
  unfold dropReferences
  exact congrArg (fun keys => { table with foreignKeys := keys }) hkeys

/-! ### Edits of a well-formed table

Each kind of edit touches one of the three lists of names, and what is on the keys has to follow
where the columns are dropped or renamed. -/

theorem WellFormed.addColumn (hwell : table.WellFormed) {column : Column}
    (hfresh : table.hasColumn column.name = false) :
    { table with columns := table.columns ++ [column] }.WellFormed := by
  refine ⟨nodup_map_concat hwell.columns_nodup (hasColumn_eq_false_iff.mp hfresh),
    hwell.indexes_nodup, hwell.foreignKeys_nodup, fun key hkey => ?_⟩
  have hcolumn := hasColumn_iff.mp (hwell.hasColumn_key key hkey)
  rw [hasColumn_iff, List.map_append]
  exact List.mem_append_left _ hcolumn

/-- The keys on a dropped column go with it, so the others are still on columns of the table. -/
theorem WellFormed.withoutColumn (hwell : table.WellFormed) (name : String) :
    (table.withoutColumn name).WellFormed := by
  refine ⟨?_, ?_, ?_, fun key hkey => ?_⟩
  · exact hwell.columns_nodup.sublist (List.eraseP_sublist.map _)
  · exact hwell.indexes_nodup.sublist (List.filter_sublist.map _)
  · exact hwell.foreignKeys_nodup.sublist ((List.filter_sublist.trans List.filter_sublist).map _)
  · obtain ⟨hkey, hne, -⟩ := mem_foreignKeys_withoutColumn.mp hkey
    exact (hasColumn_withoutColumn hwell.columns_nodup).mpr ⟨hwell.hasColumn_key key hkey, hne⟩

theorem WellFormed.modifyColumn (hwell : table.WellFormed) (column : Column) :
    { table with columns :=
      changeFirst (·.name == column.name) (fun _ => column) table.columns }.WellFormed := by
  have hnames : (changeFirst (·.name == column.name) (fun _ => column) table.columns).map
      Column.name = table.columns.map Column.name := map_changeFirst_self fun _ => rfl
  refine ⟨hnames ▸ hwell.columns_nodup, hwell.indexes_nodup, hwell.foreignKeys_nodup,
    fun key hkey => ?_⟩
  exact hasColumn_iff.mpr (hnames ▸ hasColumn_iff.mp (hwell.hasColumn_key key hkey))

/-- A key on a renamed column is on it under the new name, and any other key stays where it is. -/
theorem WellFormed.withColumnRenamed (hwell : table.WellFormed) {source target : String}
    (hcolumn : table.hasColumn source = true) (hfresh : table.hasColumn target = false) :
    (table.withColumnRenamed source target).WellFormed := by
  have hnames : (changeFirst (·.name == source) ({ · with name := target })
      table.columns).map Column.name =
        (table.columns.map Column.name).replace source target := map_changeFirst fun _ => rfl
  refine ⟨hnames ▸ nodup_replace hwell.columns_nodup (hasColumn_eq_false_iff.mp hfresh), ?_, ?_,
    fun key hkey => ?_⟩
  · simpa [Table.withColumnRenamed, Function.comp_def] using hwell.indexes_nodup
  · simpa [Table.withColumnRenamed, Function.comp_def, renameColumnInKey_eq] using
      hwell.foreignKeys_nodup
  · obtain ⟨old, hold, rfl⟩ := List.mem_map.mp hkey
    rw [hasColumn_withColumnRenamed hwell.columns_nodup hcolumn, renameColumnInKey_eq]
    dsimp only
    split
    · exact Or.inl rfl
    · rename_i hother
      exact Or.inr ⟨hwell.hasColumn_key old hold, hother⟩

theorem WellFormed.addForeignKey (hwell : table.WellFormed) {key : ForeignKey}
    (hfresh : table.hasForeignKey key.name = false) (hcolumn : table.hasColumn key.column = true) :
    { table with foreignKeys := table.foreignKeys ++ [key] }.WellFormed := by
  refine ⟨hwell.columns_nodup, hwell.indexes_nodup,
    nodup_map_concat hwell.foreignKeys_nodup (hasForeignKey_eq_false_iff.mp hfresh),
    fun other hother => ?_⟩
  rcases List.mem_append.mp hother with hother | hother
  · exact hwell.hasColumn_key other hother
  · rw [List.mem_singleton.mp hother]
    exact hcolumn

theorem WellFormed.dropForeignKey (hwell : table.WellFormed) (name : String) :
    { table with foreignKeys := table.foreignKeys.eraseP (·.name == name) }.WellFormed :=
  hwell.of_keys rfl rfl (List.eraseP_sublist.map _) fun key hkey =>
    ⟨key, List.mem_of_mem_eraseP hkey, rfl⟩

theorem WellFormed.renameForeignKey (hwell : table.WellFormed) {source target : String}
    (hfresh : source = target ∨ table.hasForeignKey target = false) :
    { table with
      foreignKeys :=
        changeFirst (·.name == source) ({ · with name := target })
          table.foreignKeys }.WellFormed := by
  refine ⟨hwell.columns_nodup, hwell.indexes_nodup, ?_, fun key hkey => ?_⟩
  · -- a key may be renamed to its own name, which is not a new one
    rcases hfresh with rfl | hfresh
    · have hnames : (changeFirst (·.name == source) ({ · with name := source })
          table.foreignKeys).map ForeignKey.name = table.foreignKeys.map ForeignKey.name :=
        map_changeFirst_self fun _ => rfl
      exact hnames ▸ hwell.foreignKeys_nodup
    · have hnames : (changeFirst (·.name == source) ({ · with name := target })
          table.foreignKeys).map ForeignKey.name =
            (table.foreignKeys.map ForeignKey.name).replace source target :=
        map_changeFirst fun _ => rfl
      exact hnames ▸ nodup_replace hwell.foreignKeys_nodup (hasForeignKey_eq_false_iff.mp hfresh)
  · rcases mem_changeFirst hkey with hold | ⟨old, hold, -, rfl⟩
    · exact hwell.hasColumn_key key hold
    · exact hwell.hasColumn_key old hold

/-- An edit keeps a table well formed. -/
theorem Edited.wellFormed (hedited : table.Edited alteration edited) (hwell : table.WellFormed) :
    edited.WellFormed := by
  cases hedited with
  | addColumn hfresh => exact hwell.addColumn hfresh
  | @dropColumn name hcolumn => exact hwell.withoutColumn name
  | @modifyColumn column hcolumn => exact hwell.modifyColumn column
  | keepColumn hcolumn => exact hwell
  | renameColumn hcolumn hne hfresh => exact hwell.withColumnRenamed hcolumn hfresh
  | addIndex hfresh =>
      exact ⟨hwell.columns_nodup,
        nodup_map_concat hwell.indexes_nodup (hasIndex_eq_false_iff.mp hfresh),
        hwell.foreignKeys_nodup, hwell.hasColumn_key⟩
  | dropIndex hindex =>
      exact ⟨hwell.columns_nodup, hwell.indexes_nodup.sublist (List.eraseP_sublist.map _),
        hwell.foreignKeys_nodup, hwell.hasColumn_key⟩
  | addForeignKey hfresh hcolumn => exact hwell.addForeignKey hfresh hcolumn
  | @dropForeignKey name hkey => exact hwell.dropForeignKey name
  | renameForeignKey hkey hfresh => exact hwell.renameForeignKey hfresh

/-- The table after an edit; a refused edit changes nothing. -/
def afterEdit (table : Table) (alteration : Alteration) : Table :=
  match alteration.edit table with
  | .ok edited => edited
  | .error _ => table

/-- A table made from nothing by edits. -/
def built (schema name file : String) (edits : List Alteration) : Table :=
  edits.foldl afterEdit (Table.empty schema name file)

theorem wellFormed_afterEdit (hwell : table.WellFormed) (alteration : Alteration) :
    (table.afterEdit alteration).WellFormed := by
  unfold afterEdit
  split
  · rename_i edited hedit
    exact (edit_eq_ok_iff.mp hedit).wellFormed hwell
  · exact hwell

theorem wellFormed_built (schema name file : String) (edits : List Alteration) :
    (built schema name file edits).WellFormed := by
  have hempty := wellFormed_empty schema name file
  unfold built
  generalize Table.empty schema name file = start at hempty
  induction edits generalizing start with
  | nil => exact hempty
  | cons edit rest ih => exact ih _ (wellFormed_afterEdit hempty edit)

end Table

/-! ## Alterations as edits -/

/-- An alteration is an edit, with a check of the target of a new foreign key before it. -/
theorem Alteration.alter_eq_ok_iff {catalog : Catalog} {table altered : Table}
    {alteration : Alteration} :
    alteration.alter catalog table = .ok altered ↔
      table.Edited alteration altered ∧
        ∀ key, alteration = .addForeignKey key → catalog.checkReference table key = .ok () := by
  rw [← Table.edit_eq_ok_iff]
  cases alteration with
  | addForeignKey key =>
      simp only [alter, edit, except_bind_eq_ok, addForeignKey.injEq, forall_eq']
      constructor
      · rintro ⟨⟨⟩, hcheck, hadd⟩
        exact ⟨hadd, hcheck⟩
      · rintro ⟨hadd, hcheck⟩
        exact ⟨(), hcheck, hadd⟩
  | _ => simp [alter, edit]

end Schemata
