import Schemata.Proofs.Catalog.Renaming
import Schemata.Proofs.Statement.ColumnReading
import Schemata.Proofs.Statement.KeyDeclaration
import Schemata.Proofs.Statement.Quoted
import Schemata.Proofs.Statement.Success

/-!
# Additions taken back

A column or a foreign key that a statement adds to a table can be dropped by the opposite statement.
Dropping goes over the keys of all tables, so the old catalog comes back only because none of its
keys can have led to what was added: in a sound catalog every key resolves.

Of the statement that adds, only the opening is known, up to the name of what is added; what stands
behind it decides what the column or the key is like, and dropping does not ask.  The proofs
therefore come in two halves:

* `Operation.eq_addColumn_of_opens`, `Operation.eq_addConstraint_of_opens`: any text with such an
  opening is read as an addition under that name.
* `Catalog.Sound.dropColumn_back`, `run_dropKeys`: dropping what has that name undoes an addition
  to a sound catalog, whatever was added.

They meet in the results over replays:

* `dropColumn_back_afterReplay`: `ADD COLUMN` and `DROP COLUMN`.
* `dropConstraint_back_afterReplay`: `ADD CONSTRAINT` of a foreign key and `DROP CONSTRAINT`.  A key
  with several columns is stored as one key for each, under names of their own, and it takes as many
  statements to drop it.
-/

namespace Schemata

/-! ## Tables and catalogs -/

namespace Table

variable {table : Table} {column : Column} {keys : List ForeignKey}

/-- Dropping an added column leaves the old table, if nothing in it has to do with a column of that
name. -/
theorem withoutColumn_extend (hwell : table.WellFormed) (hnone : table.indexes = [])
    (hnew : table.hasColumn column.name = false)
    (hfree : table.Avoids table.schema table.name column.name)
    (hkeys : ∀ key ∈ keys, key.column = column.name) :
    (table.extend [column] keys).withoutColumn column.name = table := by
  -- the new column stands last, and no other has its name
  have hcolumns : (table.columns ++ [column]).eraseP (·.name == column.name) = table.columns := by
    rw [List.eraseP_append_right]
    · simp
    · intro other hother hsame
      rw [hasColumn_eq_false_iff] at hnew
      exact hnew (eq_of_beq hsame ▸ List.mem_map_of_mem hother)
  -- of the keys, the added ones are on the new column and the old ones are not
  have hold : table.foreignKeys.filter (·.column != column.name) = table.foreignKeys := by
    refine List.filter_eq_self.mpr fun key hkey => bne_iff_ne.mpr fun hsame => ?_
    have hcolumn := hwell.hasColumn_key key hkey
    rw [hsame, hnew] at hcolumn
    cases hcolumn
  have hadded : keys.filter (·.column != column.name) = [] := by
    refine List.filter_eq_nil_iff.mpr fun key hkey hother => ?_
    exact bne_iff_ne.mp hother (hkeys key hkey)
  -- and no old key of the table leads to the new column
  have hleft : table.dropReferences table.schema table.name (some column.name) = table :=
    dropReferences_eq_self fun key hkey hboth => hfree key hkey hboth.1 hboth.2
  have hfilter : (table.foreignKeys ++ keys).filter (·.column != column.name) =
      table.foreignKeys := by
    rw [List.filter_append, hold, hadded, List.append_nil]
  have hindexes : (table.indexes.filter (! ·.columns.contains column.name)) = table.indexes := by
    rw [hnone, List.filter_nil]
  calc (table.extend [column] keys).withoutColumn column.name
      = { table.dropReferences table.schema table.name (some column.name) with
          indexes := table.indexes.filter (! ·.columns.contains column.name)
          columns := (table.columns ++ [column]).eraseP (·.name == column.name) } := by
        simp only [withoutColumn, dropReferences, extend, hfilter]
    _ = table := by rw [hindexes, hcolumns, hleft]

end Table

namespace Catalog

variable {catalog : Catalog} {schema name : String} {table : Table} {column : Column}
  {keys : List ForeignKey}

/-- Dropping an added column leaves the old catalog. -/
theorem Sound.dropColumn_back (hsound : catalog.Sound)
    (htable : catalog.table? schema name = some table) (hnone : table.indexes = [])
    (hadmits : catalog.Admits table [column] keys)
    (hkeys : ∀ key ∈ keys, key.column = column.name) :
    (catalog.putTable schema (table.extend [column] keys)).alterTable schema name
      (.dropColumn column.name) = .ok catalog := by
  obtain ⟨rfl, rfl⟩ := hsound.filed htable
  have hschema : catalog.hasSchema table.schema = true := hasSchema_of_table? htable
  have hnew : table.hasColumn column.name = false :=
    Table.hasColumn_eq_false_iff.mpr (hadmits.columns_new column List.mem_cons_self)
  have hextended : (catalog.putTable table.schema (table.extend [column] keys)).table?
      table.schema table.name = some (table.extend [column] keys) :=
    table?_putTable_self hschema rfl
  have hcolumn : (table.extend [column] keys).hasColumn column.name = true := by
    rw [Table.hasColumn_extend]
    simp
  have hdrop : Alteration.alter (catalog.putTable table.schema (table.extend [column] keys))
      (table.extend [column] keys) (.dropColumn column.name) = .ok table := by
    have hback := Table.withoutColumn_extend (hsound.wellFormed htable) hnone hnew
      (hsound.avoids htable hnew htable) hkeys
    refine Alteration.alter_eq_ok_iff.mpr ⟨?_, fun key hkey => Alteration.noConfusion hkey⟩
    have hedited := Table.Edited.dropColumn hcolumn
    rwa [hback] at hedited
  have hput : (catalog.putTable table.schema (table.extend [column] keys)).putTable table.schema
      table = catalog := by
    rw [putTable_putTable hschema (by rfl), putTable_eq_self htable]
  rw [alterTable_eq hextended, hdrop, except_map_ok, hput]
  -- No other table has a key to a column of the new name.
  refine congrArg Except.ok (mapTables_eq_self fun query other owner howner => ?_)
  exact Table.dropReferences_eq_self fun key hkey hboth =>
    hsound.avoids htable hnew howner key hkey hboth.1 hboth.2

end Catalog

/-! ## Adding and dropping a column -/

section Columns

variable {origin : Origin} {name : ObjectName} {before after : Catalog} {column : String}

/-- The words of an opening are the first words of a text, and of what trimming leaves of it. -/
theorem Text.exists_words_of_opens {words : List String} {text : String}
    (hwords : ∀ word ∈ words, Chars.IsWord word.toList) (hne : words ≠ [])
    (hopens : Chars.Opens (Text.unwords words).toList text.toList) :
    (∃ others, Text.words text = words ++ others) ∧
      ∃ others, Text.words (Text.trim text) = words ++ others := by
  have hlisted := Text.isListed_unwords hwords hne
  have hfirst : ∀ text : String, Chars.Opens (Text.unwords words).toList text.toList →
      ∃ others, Text.words text = words ++ others := by
    intro text htext
    obtain ⟨others, hothers⟩ := htext.words_eq hlisted.run_top
    refine ⟨others.map String.ofList, ?_⟩
    have hopening := Text.words_unwords hwords
    rw [Text.words] at hopening
    rw [Text.words, hothers, List.map_append, hopening]
  refine ⟨hfirst text hopens, hfirst _ ?_⟩
  rw [Text.trim, String.toList_ofList]
  exact hopens.trim hlisted.toTrimmed hlisted.ne_nil

/-- The operation of a clause that adds a column of a quoted name. -/
theorem Operation.eq_addColumn_of_opens {table clause : String} {operation : Operation}
    (hopens : Chars.Opens (Text.unwords ["ADD", "COLUMN", Text.quoted '\x22' column]).toList
      clause.toList)
    (hread : Operation.read origin table clause = .ok operation) :
    ∃ definition, operation = .addColumn definition false ∧ definition.column.name = column ∧
      ∀ constraint ∈ definition.foreignKey, constraint.columns = [column] := by
  have hword : Chars.IsWord (Text.quoted '\x22' column).toList := Text.isWord_quoted rfl column
  obtain ⟨added, rfl, hadded⟩ := Text.exists_of_opens_unwords (List.cons_ne_nil "ADD" ["COLUMN"])
    (List.cons_ne_nil (Text.quoted '\x22' column) []) hopens
  -- the operation takes the definition as it stands, and the reader of columns trims it first
  obtain ⟨⟨others, hothers⟩, rest, hrest⟩ := Text.exists_words_of_opens
    (List.forall_mem_singleton.mpr hword) (List.cons_ne_nil _ []) hadded
  have hguard : Text.startWithKeywords (Text.words added) ["if", "not", "exists"] = false := by
    rw [hothers, List.singleton_append, Text.startWithKeywords,
      Text.isKeyword_quoted column (by decide), Bool.false_and]
  have hne : Text.words added ≠ [] := hothers ▸ List.cons_ne_nil _ _
  have hall : Operation.read origin table (Text.unwords ["ADD", "COLUMN", added]) =
      .ok operation := hread
  rw [read_addColumn hne hguard] at hall
  obtain ⟨definition, hdefinition, rfl⟩ := except_map_eq_ok.mp hall
  -- the name of the column is its first word, which is the quoted one
  obtain ⟨first, second, behind, htrim, -, hname, hkeys⟩ :=
    ColumnDefinition.words_of_read hdefinition
  obtain ⟨rfl, -⟩ := List.cons.inj (hrest.symm.trans htrim)
  rw [Text.unquoteIdentifier_quoted] at hname
  rw [hname] at hkeys
  exact ⟨definition, rfl, hname, hkeys⟩

/-- What is read of a statement with one operation that adds a column of a quoted name. -/
theorem Statement.eq_addColumn_of_opens {text : String} {statement : Statement}
    (hopens : Chars.Opens (AlterTable.statementText name.quoted
      (Text.unwords ["ADD", "COLUMN", Text.quoted '\x22' column])).toList text.toList)
    (hread : Statement.read origin text = .ok statement)
    (hsingle : ∀ name guard clauses, statement ≠ .alterTable ⟨name, guard, .several clauses⟩) :
    ∃ definition, statement = .alterTable ⟨name, false, .addColumn definition false⟩ ∧
      definition.column.name = column ∧
      ∀ constraint ∈ definition.foreignKey, constraint.columns = [column] := by
  have hword : Chars.IsWord (Text.quoted '\x22' column).toList := Text.isWord_quoted rfl column
  have hwords : ∀ word ∈ ["ADD", "COLUMN", Text.quoted '\x22' column],
      Chars.IsWord word.toList := by
    simp only [List.forall_mem_cons]
    exact ⟨Operation.isWord_add, Operation.isWord_column, hword, List.forall_mem_nil _⟩
  have hend : (Text.unwords ["ADD", "COLUMN", Text.quoted '\x22' column]).toList.getLast? ≠
      some ';' := by
    have hlast := Text.getLast?_unwords_concat ["ADD", "COLUMN"] hword.ne_nil
    rw [Text.getLast?_quoted] at hlast
    intro hsemicolon
    cases hsemicolon.symm.trans hlast
  obtain ⟨operation, rfl, ⟨clause, hclause, hoperation⟩ | ⟨clauses, rfl⟩⟩ :=
    AlterTable.read_opening (Text.isListed_unwords hwords (List.cons_ne_nil _ _)) hend hopens hread
  · obtain ⟨definition, rfl, hname, hkeys⟩ := Operation.eq_addColumn_of_opens hclause hoperation
    exact ⟨definition, rfl, hname, hkeys⟩
  · exact absurd rfl (hsingle _ _ _)

/-- The keys of a definition are keys of its column. -/
theorem ColumnDefinition.column_of_mem_keys {definition : ColumnDefinition} {table file : String}
    (hkeys : ∀ constraint ∈ definition.foreignKey, constraint.columns = [column])
    {key : ForeignKey} (hkey : key ∈ definition.keys table file) : key.column = column := by
  obtain ⟨constraint, hconstraint, hkey⟩ := List.mem_flatMap.mp hkey
  obtain ⟨⟨left, right⟩, hpair, rfl⟩ := List.mem_map.mp hkey
  have hleft := (List.of_mem_zip hpair).1
  rw [hkeys constraint (Option.mem_toList.mp hconstraint)] at hleft
  exact List.mem_singleton.mp hleft

end Columns

/-- In every catalog that a replay leaves, a column that one statement adds to a table, with its
foreign key or without, can be dropped by the next, and the catalog is then exactly the old one.
The statement that adds has one operation and may go on in any way behind the name of the column. -/
theorem dropColumn_back_afterReplay {settings : Settings} {start catalog added : Catalog}
    (hstart : settings.catalog = .ok start) {calls : List ReplayCall}
    (hcatalog : afterReplay settings.family start calls = catalog)
    {family : Family} {file dropFile text column : String} {name : ObjectName}
    (hopens : Chars.Opens (AlterTable.statementText name.quoted
      (Text.unwords ["ADD", "COLUMN", Text.quoted '\x22' column])).toList text.toList)
    (hsingle : ∀ table guard clauses,
      Statement.read ⟨file, family⟩ text ≠ .ok (.alterTable ⟨table, guard, .several clauses⟩))
    (hadd : (Migration.applyStatement family file text).run catalog = .ok () added) :
    (Migration.applyStatement family dropFile (AlterTable.dropText name "COLUMN" column)).run
      added = .ok () catalog := by
  obtain ⟨hsound, hnone⟩ := sound_afterReplay settings.family settings.defaultSchema calls
  rw [← Settings.eq_new_of_catalog hstart, hcatalog] at hsound hnone
  obtain ⟨statement, hread, -⟩ := Migration.applyStatement_iff.mp hadd
  obtain ⟨definition, rfl, hcolumn, hkeys⟩ := Statement.eq_addColumn_of_opens hopens hread
    fun _ _ _ hsame => hsingle _ _ _ (hsame ▸ hread)
  obtain ⟨table, htable, hadmits, rfl⟩ := Catalog.operate_addColumn_iff.mp
    ((Migration.applyStatement_alterTable_iff hread rfl).mp hadd)
  refine (Migration.applyStatement_alterTable_iff (AlterTable.read_dropColumn _ name column)
    rfl).mpr (Catalog.operate_dropColumn_iff.mpr ?_)
  rw [← hcolumn]
  refine hsound.dropColumn_back htable (hnone htable) hadmits fun key hkey => ?_
  rw [hcolumn]
  exact ColumnDefinition.column_of_mem_keys hkeys hkey

/-- One table with one column. -/
def oneColumn : Catalog :=
  afterReplay .postgres (.new "public") [.statement "1.sql" "CREATE TABLE n (id uuid)"]

/-- A column that refers to itself. -/
def addLink : String :=
  "ALTER TABLE \x22n\x22 ADD COLUMN \x22link\x22 uuid REFERENCES \x22n\x22 (\x22link\x22)"

/-- The words of the column in it. -/
def linkWords : List String :=
  [Text.quoted '\x22' "link", "uuid", "REFERENCES", Text.quoted '\x22' "n",
    Text.columnGroup ["link"]]

/-- What the text declares. -/
def link : ColumnDefinition :=
  ⟨{ Column.plain "link" ⟨"uuid", none, none, none⟩ with createdIn := "2.sql" },
    some ⟨none, ["link"], none, "n", ["link"], .noAction, .noAction⟩⟩

theorem dropColumn_back_afterReplay_link :
    ∃ added, (Migration.applyStatement .postgres "2.sql" addLink).run oneColumn = .ok () added ∧
      added ≠ oneColumn ∧
      (Migration.applyStatement .postgres "3.sql"
        "ALTER TABLE \x22n\x22 DROP COLUMN \x22link\x22").run added = .ok () oneColumn := by
  have hstart : Settings.standard.catalog = .ok (.new "public") := by decide +kernel
  have hopens : Chars.Opens (AlterTable.statementText (ObjectName.quoted ⟨none, "n"⟩)
      (Text.unwords ["ADD", "COLUMN", Text.quoted '\x22' "link"])).toList addLink.toList := by
    have htext : addLink.toList = (AlterTable.statementText (ObjectName.quoted ⟨none, "n"⟩)
        (Text.unwords ["ADD", "COLUMN", Text.quoted '\x22' "link"])).toList ++
          ' ' :: "uuid REFERENCES \x22n\x22 (\x22link\x22)".toList := by
      decide +kernel
    rw [htext]
    exact Chars.opens_append_blank _ _ (by decide)
  have hdrop : AlterTable.dropText ⟨none, "n"⟩ "COLUMN" "link" =
      "ALTER TABLE \x22n\x22 DROP COLUMN \x22link\x22" := by
    decide +kernel
  -- the text is the opening and more, and what is read of it is a single operation
  have hread : Statement.read ⟨"2.sql", .postgres⟩ addLink =
      .ok (.alterTable ⟨⟨none, "n"⟩, false, .addColumn link false⟩) := by
    have hwords : ∀ word ∈ linkWords, Chars.IsWord word.toList := by
      simp only [linkWords, List.forall_mem_cons]
      exact ⟨Text.isWord_quoted rfl "link", Chars.IsNameWord.isWord (by decide),
        Chars.IsNameWord.isWord (by decide), Text.isWord_quoted rfl "n",
        Text.isWord_columnGroup ["link"], List.forall_mem_nil _⟩
    have htext : AlterTable.addColumnText ⟨none, "n"⟩ (Text.unwords linkWords) = addLink := by
      decide +kernel
    have hlink : ColumnDefinition.read ⟨"2.sql", .postgres⟩ "n" (Text.unwords linkWords) =
        .ok link := by
      decide +kernel
    have hlisted := Text.isListed_unwords hwords (List.cons_ne_nil _ _)
    rw [← htext, AlterTable.read_addColumnText hlisted (by decide +kernel)
      (Text.words_unwords hwords) (by decide)]
    exact congrArg _ hlink
  have hsingle : ∀ table guard clauses, Statement.read ⟨"2.sql", .postgres⟩ addLink ≠
      .ok (.alterTable ⟨table, guard, .several clauses⟩) := by
    intro table guard clauses hseveral
    cases hread.symm.trans hseveral
  obtain ⟨hoperate, hchanged⟩ :
      oneColumn.operate ⟨"2.sql", .postgres⟩ ⟨none, "n"⟩ (.addColumn link false) =
        .ok (oneColumn.settle
          (oneColumn.operate ⟨"2.sql", .postgres⟩ ⟨none, "n"⟩ (.addColumn link false))) ∧
      oneColumn.settle
        (oneColumn.operate ⟨"2.sql", .postgres⟩ ⟨none, "n"⟩ (.addColumn link false)) ≠
          oneColumn := by
    decide +kernel
  have hadd := (Migration.applyStatement_alterTable_iff hread rfl).mpr hoperate
  rw [← hdrop]
  exact ⟨_, hadd, hchanged, dropColumn_back_afterReplay hstart
    (rfl : afterReplay _ _ _ = oneColumn) hopens hsingle hadd⟩

/-! ## Adding and dropping a foreign key -/

section Removal

variable {catalog : Catalog} {schema name constraint file : String} {table : Table}

/-- Columns of the table can be put back one after the other, and no key changes. -/
theorem Table.exists_foldlM_modifyColumn (catalog : Catalog) {columns : List Column}
    (hcolumns : ∀ column ∈ columns, table.hasColumn column.name = true) :
    ∃ left, (columns.map Alteration.modifyColumn).foldlM (Alteration.alter catalog) table =
        .ok left ∧ left.name = table.name ∧ left.foreignKeys = table.foreignKeys := by
  induction columns generalizing table with
  | nil => exact ⟨table, rfl, rfl, rfl⟩
  | cons column rest ih =>
      obtain ⟨hcolumn, hrest⟩ := List.forall_mem_cons.mp hcolumns
      obtain ⟨next, hstep, hnames, hname, hkeys⟩ :
          ∃ next, Alteration.alter catalog table (.modifyColumn column) = .ok next ∧
            next.columns.map Column.name = table.columns.map Column.name ∧
            next.name = table.name ∧ next.foreignKeys = table.foreignKeys :=
        ⟨_, Alteration.alter_eq_ok_iff.mpr
          ⟨Edited.modifyColumn hcolumn, fun _ hadd => Alteration.noConfusion hadd⟩,
          map_changeFirst_self fun _ => rfl, rfl, rfl⟩
      have hkept : ∀ other ∈ rest, next.hasColumn other.name = true := by
        intro other hother
        rw [hasColumn_iff, hnames, ← hasColumn_iff]
        exact hrest other hother
      obtain ⟨left, hleft, hleftName, hleftKeys⟩ := ih hkept
      refine ⟨left, ?_, hleftName.trans hname, hleftKeys.trans hkeys⟩
      rw [List.map_cons, List.foldlM_cons, hstep]
      exact hleft

/-- A constraint can always be dropped, and keys of other names stay. -/
theorem Table.exists_constraintRemoval (catalog : Catalog) (table : Table)
    (file constraint : String) :
    ∃ left, (table.constraintRemoval file constraint).foldlM (Alteration.alter catalog) table =
        .ok left ∧ left.name = table.name ∧
      ∀ key ∈ table.foreignKeys, key.name ≠ constraint → key ∈ left.foreignKeys := by
  unfold constraintRemoval
  split
  · -- the name is that of a key, which goes
    rename_i hkey
    have hstep : Alteration.alter catalog table (.dropForeignKey constraint) =
        .ok { table with foreignKeys := table.foreignKeys.eraseP (·.name == constraint) } :=
      Alteration.alter_eq_ok_iff.mpr
        ⟨Edited.dropForeignKey hkey, fun _ hadd => Alteration.noConfusion hadd⟩
    refine ⟨{ table with foreignKeys := table.foreignKeys.eraseP (·.name == constraint) }, ?_, rfl,
      fun key hmem hother => ?_⟩
    · rw [List.foldlM_cons, hstep]
      rfl
    · refine (List.mem_eraseP_of_neg ?_).mpr hmem
      exact fun hsame => hother (eq_of_beq hsame)
  split
  · -- the name is that of the primary key: its columns are put back, and no key is touched
    have hcolumns : ∀ column ∈ table.primaryKeyColumns.map
        fun column => ({ column with primaryKey := false }.touchedBy file),
        table.hasColumn column.name = true := by
      intro column hcolumn
      obtain ⟨old, hold, rfl⟩ := List.mem_map.mp hcolumn
      have hmem : old ∈ table.columns := List.mem_of_mem_filter hold
      exact hasColumn_iff.mpr (List.mem_map.mpr ⟨old, hmem, rfl⟩)
    obtain ⟨left, hleft, hname, hkeys⟩ := exists_foldlM_modifyColumn catalog hcolumns
    rw [List.map_map] at hleft
    exact ⟨left, hleft, hname, fun key hkey _ => hkeys ▸ hkey⟩
  · exact ⟨table, rfl, rfl, fun key hkey _ => hkey⟩

/-- Nothing that is dropped as a constraint is followed by other tables. -/
theorem Table.followIn_constraintRemoval {alteration : Alteration}
    (hmem : alteration ∈ table.constraintRemoval file constraint) (other : Table) :
    alteration.followIn schema name other = other := by
  unfold constraintRemoval at hmem
  split at hmem
  · obtain rfl := List.mem_singleton.mp hmem
    rfl
  split at hmem
  · obtain ⟨column, -, rfl⟩ := List.mem_map.mp hmem
    rfl
  · cases hmem

end Removal

namespace Catalog

variable {catalog : Catalog} {origin : Origin} {name : ObjectName} {table : Table}
  {keys : List ForeignKey}

/-- Dropping a constraint puts in the table that its removal leaves. -/
theorem operate_dropConstraint {constraint : String}
    (htable : catalog.table? (name.schemaOr catalog.defaultSchema) name.base = some table) :
    catalog.operate origin name (.dropConstraint constraint false) =
      ((table.constraintRemoval origin.file constraint).foldlM (Alteration.alter catalog) table).map
        (catalog.putTable (name.schemaOr catalog.defaultSchema)) := by
  rw [operate, table_eq_ok_iff.mpr htable]
  exact alterTableBatch_eq_of_followIn htable fun _ hmem => Table.followIn_constraintRemoval hmem

/-- The table with additions is found in place of the old one. -/
theorem table?_putTable_extend (hfiled : catalog.TablesFiled) {schema name : String}
    (htable : catalog.table? schema name = some table) :
    (catalog.putTable schema (table.extend [] keys)).table? schema name =
      some (table.extend [] keys) :=
  table?_putTable_self (hasSchema_of_table? htable) (hfiled htable).2

/-- The first of the added keys is dropped by its name. -/
theorem operate_dropKey (hfiled : catalog.TablesFiled)
    (htable : catalog.table? (name.schemaOr catalog.defaultSchema) name.base = some table)
    {key : ForeignKey} (hnew : key.name ∉ table.foreignKeys.map ForeignKey.name) :
    (catalog.putTable (name.schemaOr catalog.defaultSchema) (table.extend [] (key :: keys))).operate
        origin name (.dropConstraint key.name false) =
      .ok (catalog.putTable (name.schemaOr catalog.defaultSchema) (table.extend [] keys)) := by
  have hschema : catalog.hasSchema (name.schemaOr catalog.defaultSchema) = true :=
    hasSchema_of_table? htable
  have hkey : (table.extend [] (key :: keys)).hasForeignKey key.name = true := by
    rw [Table.hasForeignKey_extend]
    simp
  -- the first key of that name is the first of the added ones
  have herase : (table.foreignKeys ++ key :: keys).eraseP (·.name == key.name) =
      table.foreignKeys ++ keys := by
    rw [List.eraseP_append_right]
    · simp
    · intro other hother hsame
      exact hnew (eq_of_beq hsame ▸ List.mem_map_of_mem hother)
  have hstep : Alteration.alter (catalog.putTable (name.schemaOr catalog.defaultSchema)
      (table.extend [] (key :: keys))) (table.extend [] (key :: keys)) (.dropForeignKey key.name) =
        .ok (table.extend [] keys) := by
    have hedited := Table.Edited.dropForeignKey hkey
    rw [Table.foreignKeys_extend, herase] at hedited
    exact Alteration.alter_eq_ok_iff.mpr ⟨hedited, fun _ hadd => Alteration.noConfusion hadd⟩
  refine (operate_dropConstraint (table?_putTable_extend hfiled htable)).trans ?_
  rw [Table.constraintRemoval, if_pos hkey, List.foldlM_cons, hstep, except_ok_bind,
    List.foldlM_nil]
  exact congrArg Except.ok (putTable_putTable hschema rfl)

/-- The added keys are dropped by their names, one after the other. -/
theorem run_dropKeys (hfiled : catalog.TablesFiled)
    (htable : catalog.table? (name.schemaOr catalog.defaultSchema) name.base = some table)
    (hnew : ∀ key ∈ keys, key.name ∉ table.foreignKeys.map ForeignKey.name) (family : Family)
    (file : String) :
    ((keys.map ForeignKey.name).forM fun key =>
      Migration.applyStatement family file (AlterTable.dropText name "CONSTRAINT" key)).run
        (catalog.putTable (name.schemaOr catalog.defaultSchema) (table.extend [] keys)) =
      .ok () catalog := by
  induction keys with
  | nil =>
      obtain ⟨hschema, hname⟩ := hfiled htable
      rw [Table.extend_nil, putTable_eq_self (by rwa [hname])]
      rfl
  | cons key rest ih =>
      obtain ⟨hkey, hrest⟩ := List.forall_mem_cons.mp hnew
      have hstep : (Migration.applyStatement family file
          (AlterTable.dropText name "CONSTRAINT" key.name)).run
            (catalog.putTable (name.schemaOr catalog.defaultSchema)
              (table.extend [] (key :: rest))) =
          .ok () (catalog.putTable (name.schemaOr catalog.defaultSchema) (table.extend [] rest)) :=
        (Migration.applyStatement_alterTable_iff (AlterTable.read_dropConstraint _ name key.name)
          rfl).mpr (operate_dropKey hfiled htable hkey)
      rw [List.map_cons, Change.run_forM_cons, hstep]
      exact ih hrest

/-- Dropping a constraint leaves the added keys of other names. -/
theorem exists_operate_dropConstraint (hfiled : catalog.TablesFiled)
    (htable : catalog.table? (name.schemaOr catalog.defaultSchema) name.base = some table)
    (keys : List ForeignKey) (origin : Origin) (constraint : String) :
    ∃ left found, (catalog.putTable (name.schemaOr catalog.defaultSchema)
        (table.extend [] keys)).operate origin name (.dropConstraint constraint false) = .ok left ∧
      left.table? (name.schemaOr catalog.defaultSchema) name.base = some found ∧
      ∀ key ∈ keys, key.name ≠ constraint → key ∈ found.foreignKeys := by
  have hschema : catalog.hasSchema (name.schemaOr catalog.defaultSchema) = true :=
    hasSchema_of_table? htable
  have hput : (catalog.putTable (name.schemaOr catalog.defaultSchema)
      (table.extend [] keys)).hasSchema (name.schemaOr catalog.defaultSchema) = true := by
    rwa [hasSchema_putTable]
  have hextended : (catalog.putTable (name.schemaOr catalog.defaultSchema)
      (table.extend [] keys)).table? (name.schemaOr catalog.defaultSchema) name.base =
        some (table.extend [] keys) := table?_putTable_extend hfiled htable
  obtain ⟨altered, haltered, hname, hkeys⟩ := Table.exists_constraintRemoval
    (catalog.putTable (name.schemaOr catalog.defaultSchema) (table.extend [] keys))
    (table.extend [] keys) origin.file constraint
  refine ⟨(catalog.putTable (name.schemaOr catalog.defaultSchema) (table.extend [] keys)).putTable
    (name.schemaOr catalog.defaultSchema) altered, altered, (operate_dropConstraint hextended).trans
      ?_, ?_, fun key hkey hother => ?_⟩
  · rw [haltered]
    rfl
  · exact table?_putTable_self hput (hname.trans (hfiled htable).2)
  · exact hkeys key (List.mem_append_right _ hkey) hother

end Catalog

section Keys

variable {origin : Origin} {name : ObjectName} {constraint : String} {columns : List String}

/-- The operation of a clause that adds a named foreign key. -/
theorem Operation.eq_addConstraint_of_opens {table clause : String} {operation : Operation}
    (hne : columns ≠ [])
    (hopens : Chars.Opens (Text.unwords
      ("ADD" :: TableConstraint.keyWords (some constraint) columns)).toList clause.toList)
    (hread : Operation.read origin table clause = .ok operation) :
    ∃ key, operation = .addConstraint (.foreignKey key) ∧ key.name = some constraint ∧
      key.columns = columns ∧ key.referencedColumns.length = columns.length := by
  have hisWord : ∀ word ∈ TableConstraint.keyWords (some constraint) columns,
      Chars.IsWord word.toList := fun _ hword => TableConstraint.isWord_keyWords hword
  have hkey : TableConstraint.keyWords (some constraint) columns ≠ [] := List.cons_ne_nil _ _
  obtain ⟨added, rfl, hadded⟩ :=
    Text.exists_of_opens_unwords (List.cons_ne_nil "ADD" []) hkey hopens
  -- as for a column, the words come first with the blanks around the constraint or without
  obtain ⟨⟨others, hothers⟩, rest, hrest⟩ := Text.exists_words_of_opens hisWord hkey hadded
  have hall : Operation.read origin table (Text.unwords ["ADD", added]) = .ok operation := hread
  rw [read_addConstraint hothers (by decide)] at hall
  obtain ⟨result, hresult, rfl⟩ := except_map_eq_ok.mp hall
  obtain ⟨_, rfl, key, rfl, hname, hcolumns, hlength⟩ :=
    TableConstraint.eq_foreignKey_of_read? hne hrest hresult
  exact ⟨key, rfl, hname, hcolumns, hlength⟩

/-- What is read of a statement with one operation that adds a named foreign key. -/
theorem Statement.eq_addConstraint_of_opens {text : String} {statement : Statement}
    (hne : columns ≠ [])
    (hopens : Chars.Opens (AlterTable.statementText name.quoted (Text.unwords
      ("ADD" :: TableConstraint.keyWords (some constraint) columns))).toList text.toList)
    (hread : Statement.read origin text = .ok statement)
    (hsingle : ∀ name guard clauses, statement ≠ .alterTable ⟨name, guard, .several clauses⟩) :
    ∃ key, statement = .alterTable ⟨name, false, .addConstraint (.foreignKey key)⟩ ∧
      key.name = some constraint ∧ key.columns = columns ∧
      key.referencedColumns.length = columns.length := by
  have hwords : ∀ word ∈ "ADD" :: TableConstraint.keyWords (some constraint) columns,
      Chars.IsWord word.toList := by
    refine List.forall_mem_cons.mpr ⟨Operation.isWord_add, fun _ hword => ?_⟩
    exact TableConstraint.isWord_keyWords hword
  have hend : (Text.unwords
      ("ADD" :: TableConstraint.keyWords (some constraint) columns)).toList.getLast? ≠
        some ';' := by
    have hne : "REFERENCES".toList ≠ [] := by decide
    have hlast := Text.getLast?_unwords_concat
      ["ADD", "CONSTRAINT", Text.quoted '\x22' constraint, "FOREIGN", "KEY",
        Text.columnGroup columns] hne
    intro hsemicolon
    cases hsemicolon.symm.trans hlast
  obtain ⟨operation, rfl, ⟨clause, hclause, hoperation⟩ | ⟨clauses, rfl⟩⟩ :=
    AlterTable.read_opening (Text.isListed_unwords hwords (List.cons_ne_nil _ _)) hend hopens hread
  · obtain ⟨key, rfl, hname, hcolumns, hlength⟩ :=
      Operation.eq_addConstraint_of_opens hne hclause hoperation
    exact ⟨key, rfl, hname, hcolumns, hlength⟩
  · exact absurd rfl (hsingle _ _ _)

end Keys

/-- With more than one column, a constraint is stored under longer names. -/
theorem ForeignKeyConstraint.ne_of_mem_storedNames {name stored : String} {columns : List String}
    (hmany : columns.length > 1) (hstored : stored ∈ storedNames name columns) : stored ≠ name := by
  rw [storedNames, if_pos hmany] at hstored
  obtain ⟨column, -, rfl⟩ := List.mem_map.mp hstored
  intro hsame
  have hlength := congrArg String.length hsame
  simp only [String.length_append] at hlength
  have hunderscore : "_".length = 1 := rfl
  omega

/-- In every catalog that a replay leaves, a named foreign key that one statement adds to a table
can be taken back.  With one column it is stored under its name, and `DROP CONSTRAINT` gives exactly
the old catalog.  With several columns it is stored as one key for each of them, under
`ForeignKeyConstraint.storedNames`: `DROP CONSTRAINT` with the name of the constraint succeeds and
leaves the keys in place, and the old catalog comes back when the stored names are dropped one after
the other. -/
theorem dropConstraint_back_afterReplay {settings : Settings} {start catalog added : Catalog}
    (hstart : settings.catalog = .ok start) {calls : List ReplayCall}
    (hcatalog : afterReplay settings.family start calls = catalog)
    {family : Family} {file dropFile text constraint : String} {name : ObjectName}
    {columns : List String} (hne : columns ≠ [])
    (hopens : Chars.Opens (AlterTable.statementText name.quoted (Text.unwords
      ("ADD" :: TableConstraint.keyWords (some constraint) columns))).toList text.toList)
    (hsingle : ∀ table guard clauses,
      Statement.read ⟨file, family⟩ text ≠ .ok (.alterTable ⟨table, guard, .several clauses⟩))
    (hadd : (Migration.applyStatement family file text).run catalog = .ok () added) :
    (∃ left, (Migration.applyStatement family dropFile
        (AlterTable.dropText name "CONSTRAINT" constraint)).run added = .ok () left ∧
      (left = catalog ↔ columns.length = 1)) ∧
    ((ForeignKeyConstraint.storedNames constraint columns).forM fun key =>
        Migration.applyStatement family dropFile (AlterTable.dropText name "CONSTRAINT" key)).run
      added = .ok () catalog := by
  obtain ⟨hsound, -⟩ := sound_afterReplay settings.family settings.defaultSchema calls
  rw [← Settings.eq_new_of_catalog hstart, hcatalog] at hsound
  obtain ⟨statement, hread, -⟩ := Migration.applyStatement_iff.mp hadd
  obtain ⟨key, rfl, hname, rfl, hlength⟩ := Statement.eq_addConstraint_of_opens hne hopens hread
    fun _ _ _ hsame => hsingle _ _ _ (hsame ▸ hread)
  obtain ⟨table, htable, hadmits, rfl⟩ := Catalog.operate_addForeignKey_iff.mp
    ((Migration.applyStatement_alterTable_iff hread rfl).mp hadd)
  have hnames : (key.expand table.name file).map ForeignKey.name =
      ForeignKeyConstraint.storedNames constraint key.columns :=
    ForeignKeyConstraint.names_expand hname hne hlength table.name file
  have hback := Catalog.run_dropKeys hsound.filed htable hadmits.keys_new family dropFile
  rw [hnames] at hback
  refine ⟨?_, hback⟩
  by_cases hmany : key.columns.length > 1
  · obtain ⟨left, found, hdrop, hfound, hkept⟩ := Catalog.exists_operate_dropConstraint
      hsound.filed htable (key.expand table.name file) ⟨dropFile, family⟩ constraint
    refine ⟨left, (Migration.applyStatement_alterTable_iff
      (AlterTable.read_dropConstraint _ name constraint) rfl).mpr hdrop, ?_⟩
    have hother : left ≠ catalog := by
      rintro rfl
      -- One of the added keys would be a key of the old table.
      obtain ⟨stored, hstored⟩ : ∃ stored, stored ∈ key.expand table.name file := by
        refine List.exists_mem_of_ne_nil _ fun hnil => ?_
        rw [hnil, ForeignKeyConstraint.storedNames, if_pos hmany] at hnames
        exact hne (List.map_eq_nil_iff.mp hnames.symm)
      have hlonger : stored.name ≠ constraint := by
        refine ForeignKeyConstraint.ne_of_mem_storedNames hmany ?_
        rw [← hnames]
        exact List.mem_map_of_mem hstored
      obtain rfl := Option.some.inj (hfound.symm.trans htable)
      exact hadmits.keys_new _ hstored (List.mem_map_of_mem (hkept _ hstored hlonger))
    exact ⟨fun hsame => absurd hsame hother, fun hone => by omega⟩
  · have hone : key.columns.length = 1 := by
      have hpos := List.length_pos_of_ne_nil hne
      omega
    rw [ForeignKeyConstraint.storedNames, if_neg hmany, List.forM_eq_forM, List.forM_cons,
      List.forM_nil, bind_pure_unit] at hback
    exact ⟨catalog, hback, fun _ => hone, fun _ => rfl⟩

/-- One table with two columns. -/
def twoColumns : Catalog :=
  afterReplay .postgres (.new "public") [.statement "1.sql" "CREATE TABLE t (x uuid, y uuid)"]

theorem twoColumns_eq : twoColumns = (Catalog.new "public").settle
    ((Catalog.new "public").declare ⟨"1.sql", .postgres⟩ ⟨⟨none, "t"⟩, false,
      ["x", "y"].map fun name =>
        { Column.plain name ⟨"uuid", none, none, none⟩ with createdIn := "1.sql" }, [], []⟩) := by
  decide +kernel

/-- A constraint on both columns. -/
def addPair : String :=
  "ALTER TABLE \x22t\x22 ADD CONSTRAINT \x22n\x22 FOREIGN KEY (\x22x\x22, \x22y\x22) " ++
    "REFERENCES \x22t\x22 (\x22y\x22, \x22x\x22)"

/-- What the text adds. -/
def pair : Operation :=
  .addConstraint (.foreignKey ⟨some "n", ["x", "y"], none, "t", ["y", "x"], .noAction, .noAction⟩)

/-- The catalog with the constraint. -/
def pairedColumns : Catalog :=
  twoColumns.settle (twoColumns.operate ⟨"2.sql", .postgres⟩ ⟨none, "t"⟩ pair)

/-- The words of the constraint in it. -/
def pairWords : List String :=
  TableConstraint.keyWords (some "n") ["x", "y"] ++
    [Text.quoted '\x22' "t", Text.columnGroup ["y", "x"]]

theorem read_addPair : Statement.read ⟨"2.sql", .postgres⟩ addPair =
    .ok (.alterTable ⟨⟨none, "t"⟩, false, pair⟩) := by
  have hwords : ∀ word ∈ pairWords, Chars.IsWord word.toList := by
    rw [pairWords, List.forall_mem_append]
    simp only [List.forall_mem_cons]
    exact ⟨fun _ hword => TableConstraint.isWord_keyWords hword, Text.isWord_quoted rfl "t",
      Text.isWord_columnGroup ["y", "x"], List.forall_mem_nil _⟩
  have htext : AlterTable.addConstraintText ⟨none, "t"⟩ (Text.unwords pairWords) = addPair := by
    decide +kernel
  have hpair : TableConstraint.read? ⟨"2.sql", .postgres⟩ (Text.unwords pairWords) =
      .ok (some (.foreignKey ⟨some "n", ["x", "y"], none, "t", ["y", "x"], .noAction,
        .noAction⟩)) := by
    decide +kernel
  have hlisted := Text.isListed_unwords hwords (List.cons_ne_nil _ _)
  rw [← htext, AlterTable.read_addConstraintText hlisted (by decide +kernel)
    (Text.words_unwords hwords) (by decide), hpair]
  rfl

theorem run_addPair :
    (Migration.applyStatement .postgres "2.sql" addPair).run twoColumns = .ok () pairedColumns := by
  have hoperate : twoColumns.operate ⟨"2.sql", .postgres⟩ ⟨none, "t"⟩ pair = .ok pairedColumns := by
    rw [pairedColumns, twoColumns_eq]
    decide +kernel
  exact (Migration.applyStatement_alterTable_iff read_addPair rfl).mpr hoperate

theorem dropConstraint_back_afterReplay_pair :
    (∃ left, (Migration.applyStatement .postgres "3.sql"
        (AlterTable.dropText ⟨none, "t"⟩ "CONSTRAINT" "n")).run pairedColumns = .ok () left ∧
      left ≠ twoColumns) ∧
    (["n_x", "n_y"].forM fun key => Migration.applyStatement .postgres "3.sql"
        (AlterTable.dropText ⟨none, "t"⟩ "CONSTRAINT" key)).run pairedColumns =
      .ok () twoColumns := by
  have hstart : Settings.standard.catalog = .ok (.new "public") := by decide +kernel
  have hopens : Chars.Opens (AlterTable.statementText (ObjectName.quoted ⟨none, "t"⟩)
      (Text.unwords ("ADD" :: TableConstraint.keyWords (some "n") ["x", "y"]))).toList
        addPair.toList := by
    have htext : addPair.toList = (AlterTable.statementText (ObjectName.quoted ⟨none, "t"⟩)
        (Text.unwords ("ADD" :: TableConstraint.keyWords (some "n") ["x", "y"]))).toList ++
          ' ' :: "\x22t\x22 (\x22y\x22, \x22x\x22)".toList := by
      decide +kernel
    rw [htext]
    exact Chars.opens_append_blank _ _ (by decide)
  have hsingle : ∀ table guard clauses, Statement.read ⟨"2.sql", .postgres⟩ addPair ≠
      .ok (.alterTable ⟨table, guard, .several clauses⟩) := by
    intro table guard clauses hseveral
    cases read_addPair.symm.trans hseveral
  have hstored : ForeignKeyConstraint.storedNames "n" ["x", "y"] = ["n_x", "n_y"] := by decide
  -- two columns, so that the name of the constraint is none of the stored ones
  have hback : (∃ left, (Migration.applyStatement .postgres "3.sql"
        (AlterTable.dropText ⟨none, "t"⟩ "CONSTRAINT" "n")).run pairedColumns = .ok () left ∧
      (left = twoColumns ↔ ["x", "y"].length = 1)) ∧
      ((ForeignKeyConstraint.storedNames "n" ["x", "y"]).forM fun key =>
        Migration.applyStatement .postgres "3.sql"
          (AlterTable.dropText ⟨none, "t"⟩ "CONSTRAINT" key)).run pairedColumns =
        .ok () twoColumns :=
    dropConstraint_back_afterReplay hstart (rfl : afterReplay _ _ _ = twoColumns)
      (List.cons_ne_nil "x" ["y"]) hopens hsingle run_addPair
  rw [hstored] at hback
  obtain ⟨⟨left, hdrop, hleft⟩, hkeys⟩ := hback
  refine ⟨⟨left, hdrop, fun hsame => ?_⟩, hkeys⟩
  cases hleft.mp hsame

/-- The name of a constraint on two columns removes nothing, though the constraint was added and no
key has its name or a name that goes on behind it. -/
theorem not_dropConstraint_back_pair :
    (∀ table, twoColumns.table? "public" "t" = some table →
      ∀ key ∈ table.foreignKeys, key.name ≠ "n" ∧ ¬ "n_".toList <+: key.name.toList) ∧
    (Migration.applyStatement .postgres "2.sql" addPair).run twoColumns = .ok () pairedColumns ∧
    (Migration.applyStatement .postgres "3.sql"
      "ALTER TABLE \x22t\x22 DROP CONSTRAINT \x22n\x22").run pairedColumns = .ok () pairedColumns ∧
    pairedColumns ≠ twoColumns := by
  have htext : AlterTable.dropText ⟨none, "t"⟩ "CONSTRAINT" "n" =
      "ALTER TABLE \x22t\x22 DROP CONSTRAINT \x22n\x22" := by
    decide +kernel
  have hread := AlterTable.read_dropConstraint ⟨"3.sql", .postgres⟩ ⟨none, "t"⟩ "n"
  obtain ⟨hdrop, hchanged, hkeys⟩ :
      pairedColumns.operate ⟨"3.sql", .postgres⟩ ⟨none, "t"⟩ (.dropConstraint "n" false) =
          .ok pairedColumns ∧
        pairedColumns ≠ twoColumns ∧
        ∀ table ∈ twoColumns.table? "public" "t", table.foreignKeys = [] := by
    rw [pairedColumns, twoColumns_eq]
    decide +kernel
  rw [← htext]
  refine ⟨fun table htable key hkey => ?_, run_addPair,
    (Migration.applyStatement_alterTable_iff hread rfl).mpr hdrop, hchanged⟩
  rw [hkeys table htable] at hkey
  cases hkey

end Schemata
