import Schemata.Proofs.Catalog.Renaming
import Schemata.Proofs.KeyPlacement

/-!
# Adding a column that refers to another

`ADD COLUMN` with an unnamed reference behind the type adds a column and a foreign key of the
default name.  The names of keys live longer than the names they were made of: a renaming of the
column or the table leaves them as they are.  So the default name may be in use although the column
is new, and then the statement is refused.

The statement is followed from its text to the catalog.  The words of the definition are known one
by one, up to a type of one word, and what is read of them is a column without constraints and one
key.  On a sound catalog both can be added just when the name of the key is free; that the target
resolves is asked of the catalog before, where a reference to the table itself may only lead to an
old column.

* `WrittenReference.read_referring_iff`: what the definition of the column says.
* `Catalog.Sound.admits_referring_iff`: when the column and its key can be added to a table.
* `addColumn_referring_afterReplay`: what the statement does in every catalog that a replay leaves.
-/

namespace Schemata

/-! ## The definition of the column -/

/-- A column of the given name and type, as a migration file creates it. -/
def Column.created (name : String) (type : ColumnType) (file : String) : Column :=
  { Column.plain name type.dataType with array := type.array, createdIn := file }

namespace WrittenReference

open Reading

variable (written : WrittenReference) {column word : String} {type : ColumnType}

/-- The words of a column of a quoted name, with a type of one word and a reference without a
name. -/
def referringWords (column word : String) : List String :=
  Text.quoted '\x22' column :: word :: written.suffixWords none

theorem reads_readColumn_referring (column : String) (hkeyword : isColumnKeyword word = false)
    (htype : ColumnType.read? word = some type) (file : String) :
    Reads (ColumnDefinition.readColumn file) (written.referringWords column word)
      (Column.created column type file) (written.suffixWords none) := by
  have hfirst : ∀ other ∈ [word], (!isColumnKeyword other) = true := by
    simp [hkeyword]
  have hstop : ∀ other ∈ (written.suffixWords none).head?, (!isColumnKeyword other) = false := by
    intro other hother
    rw [(written.isKeySuffix_suffixWords none).isColumnKeyword other hother]
    rfl
  have hunwords : Text.unwords [word] = word := String.intercalate_singleton
  refine (reads_expectIdentifier _ _ _).bind ((reads_takeWhile hfirst hstop).bind ?_)
  rw [Text.unquoteIdentifier_quoted, List.isEmpty_cons, if_neg Bool.false_ne_true, hunwords, htype]
  exact reads_pure _ _

theorem reads_readWords_referring (hbase : written.target.base ≠ "") (column : String)
    (hkeyword : isColumnKeyword word = false) (htype : ColumnType.read? word = some type)
    (file : String) :
    Reads (ColumnDefinition.readWords file) (written.referringWords column word)
      ⟨Column.created column type file, some (written.key none column)⟩ [] := by
  have hconstraints : Reads (many (ColumnConstraint.read? column)) (written.suffixWords none)
      (written.constraints none) [] := by
    refine reads_get_bind fun reader hreader => ?_
    rw [hreader]
    exact written.reads_constraints hbase none (Nat.le_refl _)
  have hcolumn := written.reads_readColumn_referring column hkeyword htype file
  exact hcolumn.bind (hconstraints.bind (reads_pure _ []))

theorem fails_readWords_referring (hbase : written.target.base = "") (column : String)
    (hkeyword : isColumnKeyword word = false) (htype : ColumnType.read? word = some type)
    (file : String) :
    Fails (ColumnDefinition.readWords file) (written.referringWords column word) := by
  have hconstraints : Fails (many (ColumnConstraint.read? column)) (written.suffixWords none) := by
    intro reader hreader
    rw [many, run_get_bind, hreader]
    exact written.fails_constraints hbase none (Nat.le_refl _) hreader
  have hcolumn := written.reads_readColumn_referring column hkeyword htype file
  exact (hcolumn.goesOn _).fails (hconstraints.bind _)

/-- The definition is a column with a key of it if the reference names a table, and it is refused
if not. -/
theorem read_referring_iff {origin : Origin} {table text : String} {definition : ColumnDefinition}
    (hwords : Text.words text = written.referringWords column word)
    (hkeyword : isColumnKeyword word = false) (htype : ColumnType.read? word = some type) :
    ColumnDefinition.read origin table text = .ok definition ↔
      written.target.base ≠ "" ∧ definition =
        ⟨Column.created column type origin.file, some (written.key none column)⟩ := by
  -- a reference without a table is the one thing about these words that can be refused
  by_cases hbase : written.target.base = ""
  · have hfails := written.fails_readWords_referring hbase column hkeyword htype origin.file
    rw [← hwords] at hfails
    constructor
    · intro hread
      simp only [ColumnDefinition.read, except_bind_eq_ok] at hread
      obtain ⟨declared, hdeclared, -⟩ := hread
      exact absurd hdeclared hfails.ne_ok
    · rintro ⟨hne, -⟩
      exact absurd hbase hne
  · have hreads := written.reads_readWords_referring hbase column hkeyword htype origin.file
    rw [← hwords] at hreads
    have hcheck : origin.checkPrimaryKey table (Column.created column type origin.file) = .ok () :=
      rfl
    rw [ColumnDefinition.read, hreads.ofText, except_ok_bind, hcheck, except_ok_bind,
      except_pure_eq_ok, and_iff_right hbase]
    exact eq_comm

theorem target_reference : written.reference.target = written.target :=
  List.foldlRecOn (motive := fun reference => reference.target = written.target)
    (written.actions.map fun item => item.1.option item.2) Reference.withOption rfl
    fun _ hreference option _ => by cases option <;> exact hreference

/-- The foreign key of the default name that the reference makes of a column. -/
def unnamedKey (column table file : String) : ForeignKey :=
  { name := ForeignKey.defaultName table column
    column := column
    referencedSchema := written.target.schema
    referencedTable := written.target.base
    referencedColumn := written.column.getD "id"
    onUpdate := written.reference.onUpdate
    onDelete := written.reference.onDelete
    createdIn := file }

/-- The definition has one key, which has the default name. -/
theorem keys_referring (column table file : String) (declared : Column) :
    (ColumnDefinition.mk declared (some (written.key none column))).keys table file =
      [written.unnamedKey column table file] := by
  have hcolumns := written.columns_orId_reference
  have horId : written.reference.orId =
      { written.reference with columns := written.reference.orId.columns } := by
    unfold Reference.orId
    split <;> rfl
  rw [hcolumns] at horId
  rw [ColumnDefinition.keys, key, horId]
  simp [ForeignKeyConstraint.expand, ForeignKeyConstraint.keyName, Reference.constraint,
    unnamedKey, target_reference]

/-! ## The statement -/

theorem isWord_of_mem_referringWords (hword : Chars.IsWord word.toList) {other : String}
    (hother : other ∈ written.referringWords column word) : Chars.IsWord other.toList := by
  rcases List.mem_cons.mp hother with rfl | hother
  · exact Text.isWord_quoted rfl column
  rcases List.mem_cons.mp hother with rfl | hother
  · exact hword
  · exact written.isWord_of_mem_suffixWords none hother

/-- The statement that adds the column to a table. -/
def addReferringText (name : ObjectName) (column word : String) : String :=
  AlterTable.addColumnText name (Text.unwords (written.referringWords column word))

/-- The statement adds the column with its key if the reference names a table, and it is refused if
not. -/
theorem read_addReferringText_iff {origin : Origin} {name : ObjectName} {statement : Statement}
    (hword : Chars.IsWord word.toList) (hkeyword : isColumnKeyword word = false)
    (htype : ColumnType.read? word = some type) :
    Statement.read origin (written.addReferringText name column word) = .ok statement ↔
      written.target.base ≠ "" ∧ statement = .alterTable ⟨name, false, .addColumn
        ⟨Column.created column type origin.file, some (written.key none column)⟩ false⟩ := by
  have hall : ∀ other ∈ written.referringWords column word, Chars.IsWord other.toList :=
    fun _ hother => written.isWord_of_mem_referringWords hword hother
  have hwords := Text.words_unwords hall
  have hlisted := Text.isListed_unwords hall (List.cons_ne_nil _ _)
  have hlast : (Text.unwords (written.referringWords column word)).toList.getLast? ≠ some ';' :=
    written.getLast?_unwords_words [Text.quoted '\x22' column, word, "REFERENCES"]
  rw [addReferringText, AlterTable.read_addColumnText hlisted hlast hwords hkeyword,
    except_map_eq_ok]
  simp only [written.read_referring_iff hwords hkeyword htype]
  constructor
  · rintro ⟨definition, ⟨hbase, rfl⟩, rfl⟩
    exact ⟨hbase, rfl⟩
  · rintro ⟨hbase, rfl⟩
    exact ⟨_, ⟨hbase, rfl⟩, rfl⟩

end WrittenReference

/-! ## In a catalog -/

/-- A new column and a key of it that leads to a column of the catalog can be added when the name of
the key is free. -/
theorem Catalog.Sound.admits_referring_iff {catalog : Catalog} (hsound : catalog.Sound)
    {schema name : String} {table : Table} (htable : catalog.table? schema name = some table)
    {column : Column} (hcolumn : table.hasColumn column.name = false) {key : ForeignKey}
    (hkey : key.column = column.name)
    (htarget : catalog.HasColumn (key.targetSchema schema) key.referencedTable
      key.referencedColumn) :
    catalog.Admits table [column] [key] ↔ table.hasForeignKey key.name = false := by
  obtain ⟨rfl, rfl⟩ := hsound.filed htable
  rw [Table.hasForeignKey_eq_false_iff]
  constructor
  · exact fun hadmits => hadmits.keys_new key (List.mem_singleton_self key)
  · intro hnew
    refine ⟨List.nodup_singleton _, ?_, List.nodup_singleton _, by simpa using hnew, ?_⟩
    · simpa using Table.hasColumn_eq_false_iff.mp hcolumn
    · rw [List.forall_mem_singleton]
      refine Catalog.checkReference_eq_ok_iff.mpr ⟨by simp [Table.hasColumn_extend, hkey], ?_⟩
      rw [Table.schema_extend, Table.name_extend]
      split
      · -- A reference to the table itself finds one of its old columns.
        rename_i hself
        rw [hself.1, hself.2, Catalog.hasColumn_iff_of_table? htable] at htarget
        rw [Table.hasColumn_extend, htarget, Bool.true_or]
      · exact htarget

section Replay

variable {family : Family} {file text : String} {catalog after left : Catalog}
  {error : CatalogError}

/-- A statement of which nothing but one operation on a table can be read changes nothing when it is
refused. -/
theorem Migration.left_of_alterTable_error {name : ObjectName} {operation : Operation}
    (halteration : operation.isAlteration = true)
    (hread : ∀ statement, Statement.read ⟨file, family⟩ text = .ok statement →
      statement = .alterTable ⟨name, false, operation⟩)
    (hrun : (applyStatement family file text).run catalog = .error error left) :
    left = catalog := by
  obtain ⟨cause, hcause⟩ : ∃ cause,
      (Statement.applyText ⟨file, family⟩ text).run catalog = .error cause left := by
    unfold applyStatement EStateM.run at hrun
    dsimp only at hrun
    split at hrun
    · cases hrun
    · rename_i cause _ hcause
      cases hrun
      exact ⟨cause, hcause⟩
  -- a refused text leaves what its statement has changed, and an operation changes nothing in part
  obtain ⟨hunread, hremains⟩ := Statement.remains_of_rejected hcause
  cases hstatement : Statement.read ⟨file, family⟩ text with
  | error fault => exact hunread fault hstatement
  | ok statement =>
      have hleft := hremains statement hstatement
      rw [hread statement hstatement] at hleft
      cases operation with
      | several clauses => cases halteration
      | _ => exact hleft

namespace WrittenReference

variable (written : WrittenReference) {schema name column word : String} {table : Table}
  {type : ColumnType}

theorem run_addReferringText_iff {name : ObjectName} (hword : Chars.IsWord word.toList)
    (hkeyword : isColumnKeyword word = false) (htype : ColumnType.read? word = some type) :
    (Migration.applyStatement family file (written.addReferringText name column word)).run
        catalog = .ok () after ↔
      written.target.base ≠ "" ∧ catalog.operate ⟨file, family⟩ name (.addColumn
        ⟨Column.created column type file, some (written.key none column)⟩ false) = .ok after := by
  constructor
  · intro hrun
    obtain ⟨statement, hread, -⟩ := Migration.applyStatement_iff.mp hrun
    obtain ⟨hbase, rfl⟩ := (written.read_addReferringText_iff hword hkeyword htype).mp hread
    exact ⟨hbase, (Migration.applyStatement_alterTable_iff hread rfl).mp hrun⟩
  · rintro ⟨hbase, hoperate⟩
    have hread : Statement.read ⟨file, family⟩ (written.addReferringText name column word) =
        .ok (.alterTable ⟨name, false, .addColumn
          ⟨Column.created column type file, some (written.key none column)⟩ false⟩) :=
      (written.read_addReferringText_iff hword hkeyword htype).mpr ⟨hbase, rfl⟩
    exact (Migration.applyStatement_alterTable_iff hread rfl).mpr hoperate

/-- On a sound catalog, the statement adds the column and the key if the table referred to has a
name and the default name is free. -/
theorem run_addReferringText_sound_iff (hsound : catalog.Sound)
    (htable : catalog.table? schema name = some table) (hcolumn : table.hasColumn column = false)
    (htarget : catalog.HasColumn (written.target.schemaOr schema) written.target.base
      (written.column.getD "id"))
    (hword : Chars.IsWord word.toList) (hkeyword : isColumnKeyword word = false)
    (htype : ColumnType.read? word = some type) :
    (Migration.applyStatement family file
        (written.addReferringText ⟨some schema, name⟩ column word)).run catalog = .ok () after ↔
      (written.target.base ≠ "" ∧
        table.hasForeignKey (ForeignKey.defaultName name column) = false) ∧
      after = catalog.putTable schema (table.extend [Column.created column type file]
        [written.unnamedKey column name file]) := by
  have hadmits : catalog.Admits table [Column.created column type file]
      [written.unnamedKey column name file] ↔
        table.hasForeignKey (ForeignKey.defaultName name column) = false :=
    hsound.admits_referring_iff htable hcolumn rfl htarget
  have hplace : (ObjectName.mk (some schema) name).schemaOr catalog.defaultSchema = schema := rfl
  rw [written.run_addReferringText_iff hword hkeyword htype, Catalog.operate_addColumn_iff, hplace]
  dsimp only
  simp only [htable, Option.some.injEq, exists_eq_left', keys_referring, (hsound.filed htable).2,
    hadmits, and_assoc]

/-- A refused statement changes nothing. -/
theorem left_of_addReferringText_error {name : ObjectName} (hword : Chars.IsWord word.toList)
    (hkeyword : isColumnKeyword word = false) (htype : ColumnType.read? word = some type)
    (hrun : (Migration.applyStatement family file
      (written.addReferringText name column word)).run catalog = .error error left) :
    left = catalog :=
  Migration.left_of_alterTable_error rfl (fun _ hread =>
    ((written.read_addReferringText_iff hword hkeyword htype).mp hread).2) hrun

/-- The statement is refused if the table referred to has the empty name or if the default name is
in use, and then it changes nothing. -/
theorem exists_error_of_addReferringText (hsound : catalog.Sound)
    (htable : catalog.table? schema name = some table) (hcolumn : table.hasColumn column = false)
    (htarget : catalog.HasColumn (written.target.schemaOr schema) written.target.base
      (written.column.getD "id"))
    (hword : Chars.IsWord word.toList) (hkeyword : isColumnKeyword word = false)
    (htype : ColumnType.read? word = some type)
    (hrefused : written.target.base = "" ∨
      table.hasForeignKey (ForeignKey.defaultName name column) = true) :
    ∃ error, (Migration.applyStatement family file
      (written.addReferringText ⟨some schema, name⟩ column word)).run catalog =
        .error error catalog := by
  -- success would give both conditions that fail here
  cases hrun : (Migration.applyStatement family file
      (written.addReferringText ⟨some schema, name⟩ column word)).run catalog with
  | ok value after =>
      obtain ⟨⟨hbase, hfree⟩, -⟩ := (written.run_addReferringText_sound_iff hsound htable hcolumn
        htarget hword hkeyword htype).mp hrun
      rcases hrefused with hempty | hused
      · exact absurd hempty hbase
      · rw [hfree] at hused
        cases hused
  | error error left =>
      rw [written.left_of_addReferringText_error hword hkeyword htype hrun]
      exact ⟨error, rfl⟩

end WrittenReference

/-! ## After a replay -/

/-- The statement that adds a column to a table, with a type of one word and an unnamed reference to
a column of another table. -/
def referringText (name : ObjectName) (column word : String) (target : ObjectName)
    (referenced : String) : String :=
  AlterTable.addColumnText name (Text.unwords [Text.quoted '\x22' column, word, "REFERENCES",
    target.quoted, Text.columnGroup [referenced]])

/-- In every catalog that a replay leaves, take a new column of a table that refers to a column of
the catalog.  If the table has no key of the default name, the statement adds this column and one
key, of that name.  If it has one, or if the table referred to has been renamed to the empty name,
the statement is refused and changes nothing. -/
theorem addColumn_referring_afterReplay {settings : Settings} {start : Catalog}
    (hstart : settings.catalog = .ok start) {calls : List ReplayCall}
    (hcatalog : afterReplay settings.family start calls = catalog)
    {schema name : String} {table : Table} (htable : catalog.table? schema name = some table)
    {column : String} (hcolumn : table.hasColumn column = false)
    {targetSchema targetName : String} {target : Table}
    (htarget : catalog.table? targetSchema targetName = some target)
    {referenced : String} (hreferenced : target.hasColumn referenced = true)
    {word : String} (hword : Chars.IsWord word.toList) (hkeyword : isColumnKeyword word = false)
    {type : ColumnType} (htype : ColumnType.read? word = some type) (file : String) :
    (targetName ≠ "" → table.hasForeignKey (ForeignKey.defaultName name column) = false →
      (Migration.applyStatement settings.family file (referringText ⟨some schema, name⟩ column
          word ⟨some targetSchema, targetName⟩ referenced)).run catalog =
        .ok () (catalog.putTable schema (table.extend [Column.created column type file]
          [{ name := ForeignKey.defaultName name column
             column := column
             referencedSchema := some targetSchema
             referencedTable := targetName
             referencedColumn := referenced
             onUpdate := .noAction
             onDelete := .noAction
             createdIn := file }]))) ∧
    (targetName = "" ∨ table.hasForeignKey (ForeignKey.defaultName name column) = true →
      ∃ error, (Migration.applyStatement settings.family file (referringText
        ⟨some schema, name⟩ column word ⟨some targetSchema, targetName⟩ referenced)).run catalog =
          .error error catalog) := by
  obtain ⟨hsound, -⟩ := sound_afterReplay settings.family settings.defaultSchema calls
  rw [← Settings.eq_new_of_catalog hstart, hcatalog] at hsound
  -- The clause is a written reference with its column behind a blank and without actions.
  let written : WrittenReference :=
    ⟨⟨some targetSchema, targetName⟩, some referenced, false, []⟩
  have haim : catalog.HasColumn (written.target.schemaOr schema) written.target.base
      (written.column.getD "id") := ⟨target, htarget, hreferenced⟩
  constructor
  · intro hbase hfree
    exact (written.run_addReferringText_sound_iff hsound htable hcolumn haim hword hkeyword
      htype).mpr ⟨⟨hbase, hfree⟩, rfl⟩
  · exact written.exists_error_of_addReferringText hsound htable hcolumn haim hword hkeyword htype

/-- A key of the table `t` that leads to the column `x` of the table `r`. -/
def keyToX (name column : String) (schema : Option String) (file : String) : ForeignKey :=
  ⟨name, column, schema, "r", "x", .noAction, .noAction, file⟩

/-- The type of the columns. -/
def uuidType : ColumnType :=
  ⟨⟨"uuid", none, none, none⟩, false⟩

/-- The table `r`. -/
def tableR : Table :=
  ⟨"public", "r", [Column.created "x" uuidType "1.sql"], [], [], "1.sql"⟩

/-- The table `t`, with its column under the given name. -/
def tableT (column : Column) : Table :=
  ⟨"public", "t", [column], [], [keyToX "t_a_fkey" column.name none "1.sql"], "1.sql"⟩

/-- Statements that make both tables. -/
def referringCalls : List ReplayCall :=
  [.statement "1.sql" "CREATE TABLE r (x uuid)",
    .statement "1.sql" "CREATE TABLE t (a uuid REFERENCES r (x))"]

/-- A second column that refers to the same. -/
theorem addColumn_referring_afterReplay_second :
    ∃ catalog, afterReplay .postgres (.new "public") referringCalls = catalog ∧
      catalog.table? "public" "t" = some (tableT (Column.created "a" uuidType "1.sql")) ∧
      (Migration.applyStatement .postgres "2.sql"
        ("ALTER TABLE \x22public\x22.\x22t\x22 ADD COLUMN \x22b\x22 uuid " ++
          "REFERENCES \x22public\x22.\x22r\x22 (\x22x\x22)")).run catalog =
        .ok () (catalog.putTable "public"
          ((tableT (Column.created "a" uuidType "1.sql")).extend
            [Column.created "b" uuidType "2.sql"]
            [keyToX "t_b_fkey" "b" (some "public") "2.sql"])) := by
  have hstart : Settings.standard.catalog = .ok (.new "public") := by decide +kernel
  have htables :
      (afterReplay .postgres (.new "public") referringCalls).table? "public" "t" =
        some (tableT (Column.created "a" uuidType "1.sql")) ∧
      (afterReplay .postgres (.new "public") referringCalls).table? "public" "r" = some tableR := by
    decide +kernel
  have htext : referringText ⟨some "public", "t"⟩ "b" "uuid" ⟨some "public", "r"⟩ "x" =
      "ALTER TABLE \x22public\x22.\x22t\x22 ADD COLUMN \x22b\x22 uuid " ++
        "REFERENCES \x22public\x22.\x22r\x22 (\x22x\x22)" := by
    decide +kernel
  have hword : Chars.IsWord "uuid".toList := Chars.IsNameWord.isWord (by decide)
  have htype : ColumnType.read? "uuid" = some uuidType := by decide +kernel
  have hname : ForeignKey.defaultName "t" "b" = "t_b_fkey" := by decide +kernel
  have hcolumn : (tableT (Column.created "a" uuidType "1.sql")).hasColumn "b" = false := by
    decide +kernel
  have hreferenced : tableR.hasColumn "x" = true := by decide +kernel
  have hfree : (tableT (Column.created "a" uuidType "1.sql")).hasForeignKey
      (ForeignKey.defaultName "t" "b") = false := by
    decide +kernel
  -- the default name of the second key is free, for it is made of the second column
  have hadd := (addColumn_referring_afterReplay hstart rfl htables.1 hcolumn htables.2 hreferenced
    hword (by decide) htype "2.sql").1 (by decide) hfree
  rw [htext, hname] at hadd
  exact ⟨_, rfl, htables.1, hadd⟩

/-- After the calls, the table `t` has no column of the name and the other table has a column `x`,
and yet a column of type `uuid` that refers to it is refused. -/
def ReferringRefused (calls : List ReplayCall) (column targetName : String) : Prop :=
  ∃ catalog, afterReplay .postgres (.new "public") calls = catalog ∧
    (∃ table, catalog.table? "public" "t" = some table ∧ table.hasColumn column = false) ∧
    (∃ target, catalog.table? "public" targetName = some target ∧ target.hasColumn "x" = true) ∧
    ∃ error, (Migration.applyStatement .postgres "3.sql" (referringText ⟨some "public", "t"⟩ column
      "uuid" ⟨some "public", targetName⟩ "x")).run catalog = .error error catalog

theorem referringRefused_of_tables {calls : List ReplayCall} {column targetName : String}
    {table target : Table}
    (htable : (afterReplay .postgres (.new "public") calls).table? "public" "t" = some table)
    (hcolumn : table.hasColumn column = false)
    (htarget : (afterReplay .postgres (.new "public") calls).table? "public" targetName =
      some target)
    (hreferenced : target.hasColumn "x" = true)
    (hrefused : targetName = "" ∨
      table.hasForeignKey (ForeignKey.defaultName "t" column) = true) :
    ReferringRefused calls column targetName := by
  have hsound := (sound_afterReplay .postgres "public" calls).1
  have hword : Chars.IsWord "uuid".toList := Chars.IsNameWord.isWord (by decide)
  have htype : ColumnType.read? "uuid" = some uuidType := by decide +kernel
  let written : WrittenReference := ⟨⟨some "public", targetName⟩, some "x", false, []⟩
  exact ⟨_, rfl, ⟨table, htable, hcolumn⟩, ⟨target, htarget, hreferenced⟩,
    written.exists_error_of_addReferringText hsound htable hcolumn ⟨target, htarget, hreferenced⟩
      hword (by decide) htype hrefused⟩

/-- The key of a renamed column keeps the default name of the old one, so that a column of the old
name cannot be added with a reference; and no column can refer to a table of the empty name, which a
renaming can give. -/
theorem not_addColumn_referring :
    ReferringRefused
        (referringCalls ++ [.statement "2.sql" "ALTER TABLE t RENAME COLUMN a TO b"]) "a" "r" ∧
      ReferringRefused
        (referringCalls ++ [.statement "2.sql" "ALTER TABLE r RENAME TO \x22\x22"]) "b" "" := by
  constructor
  · -- the column has its new name, and its key the old one
    obtain ⟨htable, htarget⟩ :
        (afterReplay .postgres (.new "public") (referringCalls ++
            [.statement "2.sql" "ALTER TABLE t RENAME COLUMN a TO b"])).table? "public" "t" =
          some (tableT (Column.created "b" uuidType "1.sql")) ∧
        (afterReplay .postgres (.new "public") (referringCalls ++
            [.statement "2.sql" "ALTER TABLE t RENAME COLUMN a TO b"])).table? "public" "r" =
          some tableR := by
      decide +kernel
    exact referringRefused_of_tables htable (by decide +kernel) htarget (by decide +kernel)
      (Or.inr (by decide +kernel))
  · -- the table referred to has the empty name
    obtain ⟨htable, htarget⟩ :
        (afterReplay .postgres (.new "public") (referringCalls ++
            [.statement "2.sql" "ALTER TABLE r RENAME TO \x22\x22"])).table? "public" "t" =
          some { tableT (Column.created "a" uuidType "1.sql") with
            foreignKeys := [{ keyToX "t_a_fkey" "a" none "1.sql" with referencedTable := "" }] } ∧
        (afterReplay .postgres (.new "public") (referringCalls ++
            [.statement "2.sql" "ALTER TABLE r RENAME TO \x22\x22"])).table? "public" "" =
          some { tableR with name := "" } := by
      decide +kernel
    exact referringRefused_of_tables htable (by decide +kernel) htarget (by decide +kernel)
      (Or.inl rfl)

end Replay

end Schemata
