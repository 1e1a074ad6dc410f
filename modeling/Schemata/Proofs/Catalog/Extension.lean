import Schemata.Effect
import Schemata.Proofs.Catalog.Integrity

/-!
# Tables with more columns and keys

A declaration of a table, `ADD COLUMN` and `ADD CONSTRAINT` all put columns and foreign keys at the
end of a table, by code of their own.  They succeed under one condition (`Catalog.Admits`): no name
is in use, and every key resolves once everything is there.

Each of them puts in one item after the other and checks each against what is there by then.  That a
list of items gets through exactly when its names are new and different from one another is proved
once (`foldlM_fresh_iff`), with the table and what it asks of an item as parameters.  Keys are also
asked where they lead.  That is a question to the columns of their own table and to all other
tables, so keys that were added before make no difference to it (`checkReference_extend_keys`), but
columns may.

* `Catalog.alterTableBatch_additions_iff`: additions to a table of the catalog.
* `Catalog.addTable_declared_iff`: a table that a statement declares.
* `Catalog.Admits.append`, `Catalog.admits_append_keys_iff`: what is admitted one after the other
  and at once.
-/

namespace Schemata

/-! ## New items one after the other -/

section Fresh

variable {τ β ε : Type} {step : τ → β → Except ε τ} {start result : τ} {items : List β}

/-- Steps that each put in one item of a new name put in all items, if their names are new and
different from one another. -/
theorem foldlM_fresh_iff (label : β → String) (used : τ → List String) (allowed : τ → β → Prop)
    (put : τ → List β → τ)
    (hstep : ∀ {start item next}, step start item = .ok next ↔
      label item ∉ used start ∧ allowed start item ∧ next = put start [item])
    (hused : ∀ start item, used (put start [item]) = used start ++ [label item])
    (hallowed : ∀ start item other, allowed (put start [item]) other ↔ allowed start other)
    (hnil : ∀ start, put start [] = start)
    (hput : ∀ start item others, put (put start [item]) others = put start (item :: others)) :
    items.foldlM step start = .ok result ↔
      (items.map label).Nodup ∧ (∀ item ∈ items, label item ∉ used start) ∧
        (∀ item ∈ items, allowed start item) ∧ result = put start items := by
  -- on the items, with the start free: the names in use grow by one with each item, so that the
  -- others have to differ from it
  induction items generalizing start with
  | nil =>
      rw [List.foldlM_nil, except_pure_eq_ok]
      simp [hnil, eq_comm]
  | cons item rest ih =>
      rw [List.foldlM_cons, except_bind_eq_ok, List.map_cons, List.nodup_cons,
        List.forall_mem_cons, List.forall_mem_cons]
      constructor
      · rintro ⟨next, hnext, hrest⟩
        obtain ⟨hnew, hitem, rfl⟩ := hstep.mp hnext
        obtain ⟨hnodup, hothers, hallow, rfl⟩ := ih.mp hrest
        simp only [hused, List.mem_append, List.mem_singleton, not_or] at hothers
        refine ⟨⟨fun hmem => ?_, hnodup⟩, ⟨hnew, fun other hother => (hothers other hother).1⟩,
          ⟨hitem, fun other hother => (hallowed _ _ _).mp (hallow other hother)⟩, hput _ _ _⟩
        obtain ⟨other, hother, hsame⟩ := List.mem_map.mp hmem
        exact (hothers other hother).2 hsame
      · rintro ⟨⟨hitemName, hnodup⟩, ⟨hnew, hothers⟩, ⟨hitem, hrest⟩, rfl⟩
        refine ⟨_, hstep.mpr ⟨hnew, hitem, rfl⟩, ih.mpr ⟨hnodup, fun other hother => ?_,
          fun other hother => (hallowed _ _ _).mpr (hrest other hother), (hput _ _ _).symm⟩⟩
        rw [hused, List.mem_append, List.mem_singleton, not_or]
        refine ⟨hothers other hother, fun hsame => hitemName ?_⟩
        exact hsame ▸ List.mem_map_of_mem hother

end Fresh

/-! ## Extended tables -/

namespace Table

/-- The table with columns and foreign keys added at the end. -/
def extend (table : Table) (columns : List Column) (keys : List ForeignKey) : Table :=
  { table with
    columns := table.columns ++ columns
    foreignKeys := table.foreignKeys ++ keys }

variable {table : Table} {columns more : List Column} {keys others : List ForeignKey}

@[simp] theorem schema_extend : (table.extend columns keys).schema = table.schema := rfl

@[simp] theorem name_extend : (table.extend columns keys).name = table.name := rfl

@[simp] theorem columns_extend :
    (table.extend columns keys).columns = table.columns ++ columns := rfl

@[simp] theorem foreignKeys_extend :
    (table.extend columns keys).foreignKeys = table.foreignKeys ++ keys := rfl

@[simp] theorem extend_nil : table.extend [] [] = table := by
  simp [extend]

@[simp] theorem extend_extend :
    (table.extend columns keys).extend more others =
      table.extend (columns ++ more) (keys ++ others) := by
  simp [extend]

theorem hasColumn_extend (name : String) : (table.extend columns keys).hasColumn name =
    (table.hasColumn name || columns.any (·.name == name)) := by
  simp [hasColumn]

theorem hasForeignKey_extend (name : String) : (table.extend columns keys).hasForeignKey name =
    (table.hasForeignKey name || keys.any (·.name == name)) := by
  simp [hasForeignKey]

/-- Columns are added one after the other if their names are new. -/
theorem foldlM_addColumn_iff {result : Table} :
    columns.foldlM addColumn table = .ok result ↔
      (columns.map Column.name).Nodup ∧
        (∀ column ∈ columns, column.name ∉ table.columns.map Column.name) ∧
        result = table.extend columns [] := by
  have hstep : ∀ {start : Table} {column : Column} {next : Table},
      start.addColumn column = .ok next ↔ column.name ∉ start.columns.map Column.name ∧ True ∧
        next = start.extend [column] [] := by
    intro start column next
    rw [← hasColumn_eq_false_iff, addColumn, extend, List.append_nil]
    cases start.hasColumn column.name <;> simp [eq_comm]
  rw [foldlM_fresh_iff Column.name (fun table : Table => table.columns.map Column.name)
    (fun _ _ => True) (fun table columns => table.extend columns []) hstep
    (fun _ _ => List.map_append) (fun _ _ _ => Iff.rfl) (fun _ => extend_nil)
    (fun _ _ _ => extend_extend)]
  simp

/-- Keys on columns of the table are added one after the other if their names are new. -/
theorem foldlM_addForeignKey_iff {result : Table} :
    keys.foldlM addForeignKey table = .ok result ↔
      (keys.map ForeignKey.name).Nodup ∧
        (∀ key ∈ keys, key.name ∉ table.foreignKeys.map ForeignKey.name) ∧
        (∀ key ∈ keys, table.hasColumn key.column = true) ∧ result = table.extend [] keys := by
  have hstep : ∀ {start : Table} {key : ForeignKey} {next : Table},
      start.addForeignKey key = .ok next ↔ key.name ∉ start.foreignKeys.map ForeignKey.name ∧
        start.hasColumn key.column = true ∧ next = start.extend [] [key] := by
    intro start key next
    rw [← hasForeignKey_eq_false_iff, addForeignKey, extend, List.append_nil]
    cases start.hasForeignKey key.name <;> cases start.hasColumn key.column <;> simp [eq_comm]
  exact foldlM_fresh_iff ForeignKey.name
    (fun table : Table => table.foreignKeys.map ForeignKey.name)
    (fun table key => table.hasColumn key.column = true) (fun table keys => table.extend [] keys)
    hstep (fun _ _ => List.map_append) (fun _ _ _ => by rw [hasColumn_extend]; simp)
    (fun _ => extend_nil) (fun _ _ _ => extend_extend)

end Table

/-! ## What may be added -/

namespace Catalog

variable {catalog after : Catalog} {schema name : String} {table : Table}
  {columns more : List Column} {keys others : List ForeignKey}

/-- The columns and foreign keys can be added to the table. -/
structure Admits (catalog : Catalog) (table : Table) (columns : List Column)
    (keys : List ForeignKey) : Prop where
  columns_nodup : (columns.map Column.name).Nodup
  columns_new : ∀ column ∈ columns, column.name ∉ table.columns.map Column.name
  keys_nodup : (keys.map ForeignKey.name).Nodup
  keys_new : ∀ key ∈ keys, key.name ∉ table.foreignKeys.map ForeignKey.name
  resolved : ∀ key ∈ keys, catalog.checkReference (table.extend columns keys) key = .ok ()

theorem table?_putTable_self (hschema : catalog.hasSchema schema = true)
    (hname : table.name = name) :
    (catalog.putTable schema table).table? schema name = some table := by
  rw [table?_putTable hschema]
  exact if_pos ⟨rfl, hname.symm⟩

/-- Of the owner of a key only the name and the columns count. -/
theorem checkReference_extend_keys (key : ForeignKey) :
    catalog.checkReference (table.extend columns keys) key = .ok () ↔
      catalog.checkReference (table.extend columns []) key = .ok () := by
  rw [checkReference_eq_ok_iff, checkReference_eq_ok_iff, Table.hasColumn_extend,
    Table.hasColumn_extend, Table.hasColumn_extend, Table.hasColumn_extend]
  rfl

/-- Keys that resolve are added one after the other if their names are new. -/
theorem foldlM_alter_keys_iff {result : Table} :
    keys.foldlM (fun start key => Alteration.alter catalog start (.addForeignKey key)) table =
        .ok result ↔
      (keys.map ForeignKey.name).Nodup ∧
        (∀ key ∈ keys, key.name ∉ table.foreignKeys.map ForeignKey.name) ∧
        (∀ key ∈ keys, catalog.checkReference table key = .ok ()) ∧
        result = table.extend [] keys := by
  have hstep : ∀ {start : Table} {key : ForeignKey} {next : Table},
      Alteration.alter catalog start (.addForeignKey key) = .ok next ↔
        key.name ∉ start.foreignKeys.map ForeignKey.name ∧
          catalog.checkReference start key = .ok () ∧ next = start.extend [] [key] := by
    intro start key next
    have hcolumn : catalog.checkReference start key = .ok () → start.hasColumn key.column = true :=
      fun hcheck => (checkReference_eq_ok_iff.mp hcheck).1
    rw [Alteration.alter, Table.addForeignKey, ← Table.hasForeignKey_eq_false_iff, Table.extend,
      List.append_nil]
    cases hcheck : catalog.checkReference start key with
    | error error => simp
    | ok value =>
        rw [hcolumn hcheck]
        cases start.hasForeignKey key.name <;> simp [eq_comm]
  exact foldlM_fresh_iff ForeignKey.name
    (fun table : Table => table.foreignKeys.map ForeignKey.name)
    (fun table key => catalog.checkReference table key = .ok ())
    (fun table keys => table.extend [] keys) hstep (fun _ _ => List.map_append)
    (fun start key other => by rw [checkReference_extend_keys, Table.extend_nil])
    (fun _ => Table.extend_nil) (fun _ _ _ => Table.extend_extend)

/-- Columns and keys are added to the copy of a table if they are admitted. -/
theorem foldlM_additions_iff {result : Table} :
    (columns.map Alteration.addColumn ++ keys.map Alteration.addForeignKey).foldlM
        (Alteration.alter catalog) table = .ok result ↔
      catalog.Admits table columns keys ∧ result = table.extend columns keys := by
  have hcolumns : (columns.map Alteration.addColumn).foldlM (Alteration.alter catalog) table =
      columns.foldlM Table.addColumn table := by
    rw [List.foldlM_map]
    rfl
  rw [List.foldlM_append, hcolumns, except_bind_eq_ok]
  constructor
  · rintro ⟨middle, hmiddle, hkeys⟩
    obtain ⟨hnodup, hnew, rfl⟩ := Table.foldlM_addColumn_iff.mp hmiddle
    rw [List.foldlM_map, foldlM_alter_keys_iff] at hkeys
    obtain ⟨hkeysNodup, hkeysNew, hresolved, rfl⟩ := hkeys
    rw [Table.foreignKeys_extend, List.append_nil] at hkeysNew
    refine ⟨⟨hnodup, hnew, hkeysNodup, hkeysNew, fun key hkey => ?_⟩, by simp⟩
    exact (checkReference_extend_keys key).mpr (hresolved key hkey)
  · rintro ⟨hadmits, rfl⟩
    refine ⟨table.extend columns [], Table.foldlM_addColumn_iff.mpr
      ⟨hadmits.columns_nodup, hadmits.columns_new, rfl⟩, ?_⟩
    rw [List.foldlM_map, foldlM_alter_keys_iff]
    refine ⟨hadmits.keys_nodup, ?_, fun key hkey => ?_, by simp⟩
    · rw [Table.foreignKeys_extend, List.append_nil]
      exact hadmits.keys_new
    · exact (checkReference_extend_keys key).mp (hadmits.resolved key hkey)

/-- A batch that no table follows only puts the altered copy in. -/
theorem alterTableBatch_eq_of_followIn (htable : catalog.table? schema name = some table)
    {alterations : List Alteration} (hstay : ∀ alteration ∈ alterations, ∀ table,
      alteration.followIn schema name table = table) :
    catalog.alterTableBatch schema name alterations =
      (alterations.foldlM (Alteration.alter catalog) table).map (catalog.putTable schema) := by
  have hall : ∀ table, Alteration.followAll schema name alterations table = table := by
    intro table
    unfold Alteration.followAll
    induction alterations generalizing table with
    | nil => rfl
    | cons alteration rest ih =>
        rw [List.foldl_cons, hstay alteration List.mem_cons_self]
        exact ih (fun other hother => hstay other (List.mem_cons_of_mem _ hother)) table
  rw [alterTableBatch_eq htable]
  congr 1
  funext altered
  exact mapTables_eq_self fun _ _ found _ => hall found

/-- Additions to a table succeed if they are admitted, and put the extended table in its place. -/
theorem alterTableBatch_additions_iff :
    catalog.alterTableBatch schema name
        (columns.map Alteration.addColumn ++ keys.map Alteration.addForeignKey) = .ok after ↔
      ∃ table, catalog.table? schema name = some table ∧ catalog.Admits table columns keys ∧
        after = catalog.putTable schema (table.extend columns keys) := by
  -- new columns and keys are no concern of other tables
  have hstay : ∀ alteration ∈
      columns.map Alteration.addColumn ++ keys.map Alteration.addForeignKey,
      ∀ table, alteration.followIn schema name table = table := by
    intro alteration hmem table
    rcases List.mem_append.mp hmem with hmem | hmem
    · obtain ⟨column, -, rfl⟩ := List.mem_map.mp hmem
      rfl
    · obtain ⟨key, -, rfl⟩ := List.mem_map.mp hmem
      rfl
  constructor
  · intro halter
    obtain ⟨table, htable⟩ := exists_table?_of_alterTableBatch halter
    rw [alterTableBatch_eq_of_followIn htable hstay] at halter
    obtain ⟨altered, haltered, rfl⟩ := except_map_eq_ok.mp halter
    obtain ⟨hadmits, rfl⟩ := foldlM_additions_iff.mp haltered
    exact ⟨table, htable, hadmits, rfl⟩
  · rintro ⟨table, htable, hadmits, rfl⟩
    rw [alterTableBatch_eq_of_followIn htable hstay, foldlM_additions_iff.mpr ⟨hadmits, rfl⟩,
      except_map_ok]

/-- A declared table is let in if its name is new and what it declares is admitted to a table
without columns. -/
theorem addTable_declared_iff {statement : CreateTable} {file : String} :
    (statement.table schema file >>= catalog.addTable) = .ok after ↔
      catalog.hasSchema schema = true ∧ catalog.table? schema statement.name.base = none ∧
        catalog.Admits (.empty schema statement.name.base file) statement.columns
          statement.foreignKeys ∧
        after = catalog.putTable schema
          ((Table.empty schema statement.name.base file).extend statement.columns
            statement.foreignKeys) := by
  simp only [CreateTable.table, except_bind_eq_ok]
  constructor
  · rintro ⟨table, ⟨middle, hmiddle, htable⟩, hadd⟩
    obtain ⟨hnodup, hnew, rfl⟩ := Table.foldlM_addColumn_iff.mp hmiddle
    obtain ⟨hkeysNodup, hkeysNew, -, rfl⟩ := Table.foldlM_addForeignKey_iff.mp htable
    obtain ⟨hschema, hnone, hresolved, rfl⟩ := addTable_eq_ok_iff.mp hadd
    rw [Table.extend_extend, List.append_nil, List.nil_append] at hresolved ⊢
    exact ⟨hschema, hnone, ⟨hnodup, hnew, hkeysNodup, fun _ _ => List.not_mem_nil, hresolved⟩, rfl⟩
  · rintro ⟨hschema, hnone, hadmits, rfl⟩
    have hcolumn : ∀ key ∈ statement.foreignKeys,
        ((Table.empty schema statement.name.base file).extend statement.columns []).hasColumn
          key.column = true :=
      fun key hkey => (checkReference_eq_ok_iff.mp (hadmits.resolved key hkey)).1
    refine ⟨_, ⟨_, Table.foldlM_addColumn_iff.mpr
      ⟨hadmits.columns_nodup, hadmits.columns_new, rfl⟩, Table.foldlM_addForeignKey_iff.mpr
      ⟨hadmits.keys_nodup, hadmits.keys_new, hcolumn, rfl⟩⟩, ?_⟩
    rw [Table.extend_extend, List.append_nil, List.nil_append]
    exact addTable_eq_ok_iff.mpr ⟨hschema, hnone, hadmits.resolved, rfl⟩

/-! ## At once and one after the other -/

/-- What a key refers to beside its own table is not changed by putting that in. -/
theorem checkReference_putTable (hschema : catalog.hasSchema schema = true) {owner placed : Table}
    (howner : owner.schema = schema) (hname : placed.name = owner.name) (key : ForeignKey) :
    (catalog.putTable schema placed).checkReference owner key =
      catalog.checkReference owner key := by
  refine AgreeBeside.checkReference_eq ⟨fun query => by simp, fun query other hother => ?_⟩ key
  rw [howner, ← hname] at hother
  rw [table?_putTable hschema, if_neg hother]

/-- A key that resolves still does when columns are added to its table. -/
theorem checkReference_extend (key : ForeignKey)
    (hcheck : catalog.checkReference table key = .ok ()) :
    catalog.checkReference (table.extend columns keys) key = .ok () := by
  obtain ⟨hcolumn, htarget⟩ := checkReference_eq_ok_iff.mp hcheck
  refine checkReference_eq_ok_iff.mpr ⟨?_, ?_⟩
  · rw [Table.hasColumn_extend, hcolumn, Bool.true_or]
  · rw [Table.schema_extend, Table.name_extend]
    split at htarget
    · rename_i hself
      rw [if_pos hself, Table.hasColumn_extend, htarget, Bool.true_or]
    · rename_i hother
      rwa [if_neg hother]

/-- What is admitted to a table and then to the extended table is admitted to the table at once. -/
theorem Admits.append (hadmits : catalog.Admits table columns keys)
    (hschema : catalog.hasSchema table.schema = true)
    (hnext : (catalog.putTable table.schema (table.extend columns keys)).Admits
      (table.extend columns keys) more others) :
    catalog.Admits table (columns ++ more) (keys ++ others) := by
  -- what is new to the extended table is new to the table and different from what extended it
  have hmore : ∀ column ∈ more, column.name ∉ table.columns.map Column.name ∧
      column.name ∉ columns.map Column.name := by
    intro column hcolumn
    have hnew := hnext.columns_new column hcolumn
    rwa [Table.columns_extend, List.map_append, List.mem_append, not_or] at hnew
  have hothers : ∀ key ∈ others, key.name ∉ table.foreignKeys.map ForeignKey.name ∧
      key.name ∉ keys.map ForeignKey.name := by
    intro key hkey
    have hnew := hnext.keys_new key hkey
    rwa [Table.foreignKeys_extend, List.map_append, List.mem_append, not_or] at hnew
  constructor
  · rw [List.map_append]
    refine hadmits.columns_nodup.append hnext.columns_nodup fun name hname hmem => ?_
    obtain ⟨column, hcolumn, rfl⟩ := List.mem_map.mp hmem
    exact (hmore column hcolumn).2 hname
  · intro column hcolumn
    rcases List.mem_append.mp hcolumn with hcolumn | hcolumn
    · exact hadmits.columns_new column hcolumn
    · exact (hmore column hcolumn).1
  · rw [List.map_append]
    refine hadmits.keys_nodup.append hnext.keys_nodup fun name hname hmem => ?_
    obtain ⟨key, hkey, rfl⟩ := List.mem_map.mp hmem
    exact (hothers key hkey).2 hname
  · intro key hkey
    rcases List.mem_append.mp hkey with hkey | hkey
    · exact hadmits.keys_new key hkey
    · exact (hothers key hkey).1
  · intro key hkey
    -- a key that resolved before still does, and a new one resolved in the extended table
    rw [← Table.extend_extend]
    rcases List.mem_append.mp hkey with hkey | hkey
    · exact checkReference_extend key (hadmits.resolved key hkey)
    · have hcheck := hnext.resolved key hkey
      rwa [checkReference_putTable hschema (by rfl) (by rfl)] at hcheck

/-- Further keys are admitted at once if and only if they are admitted afterwards. -/
theorem admits_append_keys_iff (hschema : catalog.hasSchema table.schema = true) :
    catalog.Admits table columns (keys ++ others) ↔
      catalog.Admits table columns keys ∧
        (catalog.putTable table.schema (table.extend columns keys)).Admits
          (table.extend columns keys) [] others := by
  constructor
  · intro hadmits
    have hkeys := hadmits.keys_nodup
    rw [List.map_append] at hkeys
    obtain ⟨hfirst, hsecond, hdisjoint⟩ := List.nodup_append'.mp hkeys
    -- keys among the added ones do not help one another to resolve
    have hresolved : ∀ key ∈ keys ++ others,
        catalog.checkReference (table.extend columns []) key = .ok () := fun key hkey =>
      (checkReference_extend_keys key).mp (hadmits.resolved key hkey)
    refine ⟨⟨hadmits.columns_nodup, hadmits.columns_new, hfirst, fun key hkey => ?_,
      fun key hkey => ?_⟩, ⟨List.nodup_nil, List.forall_mem_nil _, hsecond,
      fun key hkey => ?_, fun key hkey => ?_⟩⟩
    · exact hadmits.keys_new key (List.mem_append_left _ hkey)
    · exact (checkReference_extend_keys key).mpr (hresolved key (List.mem_append_left _ hkey))
    · rw [Table.foreignKeys_extend, List.map_append, List.mem_append, not_or]
      exact ⟨hadmits.keys_new key (List.mem_append_right _ hkey),
        fun hmem => hdisjoint hmem (List.mem_map_of_mem hkey)⟩
    · have hcheck := hadmits.resolved key (List.mem_append_right _ hkey)
      rw [Table.extend_extend, List.append_nil]
      rwa [checkReference_putTable hschema (by rfl) (by rfl)]
  · rintro ⟨hadmits, hnext⟩
    have happend := hadmits.append hschema hnext
    rwa [List.append_nil] at happend

end Catalog

end Schemata
