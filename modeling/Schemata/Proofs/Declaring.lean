import Schemata.Proofs.Statement.Success
import Schemata.Proofs.Statement.TableClauses

/-!
# Tables declared at once and in steps

A declaration with all columns and a declaration of the first that the others are added to are two
ways through the code: other readers, and a table built anew against a copy that is altered.  The
additions in steps are admitted one after the other, so they are admitted at once.

The converse fails, for a column may refer to one that comes after it: in a declaration both are
there when the reference is checked, and in steps the second is not there yet.  So this is an
implication and no equivalence, and its proof is about the conditions under which additions succeed
(`Catalog.Admits`), not about the tables on the way.

* `ColumnClause`: a clause that declares a column, with what is read of it.
* `admits_of_addColumns`: statements that add columns, by induction on the columns.
* `declare_of_addColumns`: all columns at once give the catalog that they give in steps.
-/

namespace Schemata

/-- A clause that declares a column of a table, as one item of a list. -/
structure ColumnClause (origin : Origin) (table : String) where
  text : String
  /-- What it declares. -/
  definition : ColumnDefinition
  balanced : Chars.Balanced text.toList
  uncut : Chars.Uncut (· == ',') .top text.toList
  plain : TableConstraint.read? origin text = .ok none
  read : ColumnDefinition.read origin table text = .ok definition

namespace ColumnClause

variable {origin : Origin} {table : String}

/-- What the clause declares, as a clause of a table. -/
def declared (clause : ColumnClause origin table) : Declared :=
  ⟨some clause.definition.column, clause.definition.foreignKey⟩

theorem declares (clause : ColumnClause origin table) :
    CreateTable.Declares origin table clause.text clause.declared :=
  CreateTable.declares_column clause.plain clause.read

theorem isItem (clause : ColumnClause origin table) : Chars.IsItem clause.text.toList := by
  obtain ⟨first, second, others, hwords, -⟩ := ColumnDefinition.words_of_read clause.read
  exact ⟨clause.balanced, clause.uncut,
    Text.trim_ne_nil clause.balanced.run_top (hwords ▸ List.cons_ne_nil _ _)⟩

/-- A column can be added by its own statement if its clause has no blanks around it and does not
end in a semicolon, which the statement would lose. -/
structure IsStatement (clause : ColumnClause origin table) : Prop where
  trimmed : Chars.Trimmed clause.text.toList
  last : clause.text.toList.getLast? ≠ some ';'

theorem IsStatement.isListed {clause : ColumnClause origin table} (hclause : clause.IsStatement) :
    Chars.IsListed clause.text.toList := by
  refine ⟨clause.balanced, hclause.trimmed, clause.uncut, fun hnil => clause.isItem.trim_ne_nil ?_⟩
  rw [hclause.trimmed.trim_eq, hnil]

theorem columns_declared (clauses : List (ColumnClause origin table)) :
    Declared.columns (clauses.map declared) = clauses.map (·.definition.column) := by
  induction clauses with
  | nil => rfl
  | cons clause rest ih =>
      rw [List.map_cons, Declared.columns_cons, ih]
      rfl

theorem keys_declared (clauses : List (ColumnClause origin table)) (file : String) :
    (Declared.keys (clauses.map declared)).flatMap (·.expand table file) =
      clauses.flatMap (·.definition.keys table file) := by
  induction clauses with
  | nil => rfl
  | cons clause rest ih =>
      rw [List.map_cons, Declared.keys_cons, List.flatMap_append, ih]
      rfl

end ColumnClause

/-- A declaration by clauses succeeds when its table has a name and can be declared. -/
theorem CreateTable.run_clauseText_iff {family : Family} {file : String} {name : ObjectName}
    {catalog after : Catalog} {clauses : List String} {declared : List Declared}
    (hne : clauses ≠ []) (hitems : ∀ clause ∈ clauses, Chars.IsItem clause.toList)
    (hdeclares : List.Forall₂ (Declares ⟨file, family⟩ name.base) (clauses.map Text.trim)
      declared) :
    (Migration.applyStatement family file (clauseText name clauses)).run catalog = .ok () after ↔
      name.base ≠ "" ∧ catalog.declare ⟨file, family⟩ {
        name := name
        ifNotExists := false
        columns := Declared.columns declared
        foreignKeys := (Declared.keys declared).flatMap (·.expand name.base file)
        primaryKey := [] } = .ok after := by
  constructor
  · intro hrun
    obtain ⟨statement, hread, -⟩ := Migration.applyStatement_iff.mp hrun
    obtain ⟨hbase, -, rfl⟩ :=
      (read_clauseText_iff hne hitems hdeclares).mp hread
    exact ⟨hbase, (Migration.applyStatement_createTable_iff hread rfl).mp hrun⟩
  · rintro ⟨hbase, hdeclare⟩
    -- a table that can be declared has columns of different names, which the reader asks for first
    obtain ⟨-, hadmits, -⟩ := Catalog.declare_iff.mp hdeclare
    have hread := (read_clauseText_iff hne hitems hdeclares).mpr
      ⟨hbase, hadmits.columns_nodup, rfl⟩
    exact (Migration.applyStatement_createTable_iff hread rfl).mpr hdeclare

/-! ## Columns added one after the other -/

section Columns

variable {family : Family} {file : String} {name : ObjectName}

/-- The statement adds what the clause declares. -/
theorem ColumnClause.IsStatement.read_addColumnText
    {clause : ColumnClause ⟨file, family⟩ name.base} (hclause : clause.IsStatement) :
    Statement.read ⟨file, family⟩ (AlterTable.addColumnText name clause.text) =
      .ok (.alterTable ⟨name, false, .addColumn clause.definition false⟩) := by
  obtain ⟨first, second, others, hwords, hsecond, -⟩ :=
    ColumnDefinition.words_of_read clause.read
  rw [AlterTable.read_addColumnText hclause.isListed hclause.last hwords hsecond, clause.read,
    except_map_ok]

variable {base after : Catalog} (start : Table) {columns : List Column} {keys : List ForeignKey}

/-- Columns that statements add to a table one after the other are admitted at once. -/
theorem admits_of_addColumns (hschema : base.hasSchema start.schema = true)
    (hplace : name.schemaOr base.defaultSchema = start.schema) (hname : start.name = name.base)
    {clauses : List (ColumnClause ⟨file, family⟩ name.base)}
    (hclauses : ∀ clause ∈ clauses, clause.IsStatement) (hadmits : base.Admits start columns keys)
    (hrun : (clauses.forM fun clause => Migration.applyStatement family file
      (AlterTable.addColumnText name clause.text)).run
        (base.putTable start.schema (start.extend columns keys)) = .ok () after) :
    base.Admits start (columns ++ clauses.map (·.definition.column))
        (keys ++ clauses.flatMap (·.definition.keys name.base file)) ∧
      after = base.putTable start.schema
        (start.extend (columns ++ clauses.map (·.definition.column))
          (keys ++ clauses.flatMap (·.definition.keys name.base file))) := by
  -- What was added so far is part of the statement, as a key may refer to a column of it.
  induction clauses generalizing columns keys with
  | nil =>
      cases hrun
      rw [List.map_nil, List.flatMap_nil, List.append_nil, List.append_nil]
      exact ⟨hadmits, rfl⟩
  | cons clause rest ih =>
      obtain ⟨hclause, hrest⟩ := List.forall_mem_cons.mp hclauses
      obtain ⟨middle, hmiddle, hrun⟩ := Change.run_then_eq_ok.mp hrun
      have hplaced : (start.extend columns keys).name = name.base := hname
      have hadds := Operation.alterations_addColumn ⟨file, family⟩ clause.definition
      rw [Migration.applyStatement_alterTable_iff hclause.read_addColumnText rfl,
        Catalog.operate_placed_iff hschema hplace hplaced hadds, hplaced] at hmiddle
      obtain ⟨hnext, rfl⟩ := hmiddle
      rw [Table.extend_extend] at hrun
      have hall := ih hrest (hadmits.append hschema hnext) hrun
      rw [List.append_assoc, List.append_assoc] at hall
      exact hall

/-- A declaration of columns by clauses that are statements. -/
theorem ColumnClause.run_clauseText_iff {catalog : Catalog}
    {clauses : List (ColumnClause ⟨file, family⟩ name.base)} (hne : clauses ≠ [])
    (hclauses : ∀ clause ∈ clauses, clause.IsStatement) :
    (Migration.applyStatement family file
        (CreateTable.clauseText name (clauses.map ColumnClause.text))).run catalog = .ok () after ↔
      name.base ≠ "" ∧ catalog.declare ⟨file, family⟩ {
        name := name
        ifNotExists := false
        columns := clauses.map (·.definition.column)
        foreignKeys := clauses.flatMap (·.definition.keys name.base file)
        primaryKey := [] } = .ok after := by
  -- a clause that is a statement of its own has no blanks to lose
  have htexts : (clauses.map ColumnClause.text).map Text.trim =
      clauses.map ColumnClause.text := by
    rw [List.map_map]
    refine List.map_congr_left fun clause hclause => ?_
    exact Text.trim_eq_self (hclauses clause hclause).trimmed
  have hdeclares : List.Forall₂ (CreateTable.Declares ⟨file, family⟩ name.base)
      ((clauses.map ColumnClause.text).map Text.trim) (clauses.map declared) := by
    rw [htexts, List.forall₂_map_left_iff, List.forall₂_map_right_iff, List.forall₂_same]
    exact fun clause _ => clause.declares
  rw [CreateTable.run_clauseText_iff (by simpa using hne)
    (List.forall_mem_map.mpr fun clause _ => clause.isItem) hdeclares, columns_declared,
    keys_declared]

end Columns

/-- Whatever the catalog, if a table is declared with one column and each of its other columns is
added by a statement of its own, then a declaration with all columns succeeds as well and gives the
same catalog. -/
theorem declare_of_addColumns {family : Family} {file : String} {name : ObjectName}
    {catalog after : Catalog} {first : ColumnClause ⟨file, family⟩ name.base}
    {others : List (ColumnClause ⟨file, family⟩ name.base)}
    (hclauses : ∀ clause ∈ first :: others, clause.IsStatement)
    (hsteps : (do
      Migration.applyStatement family file (CreateTable.clauseText name [first.text])
      others.forM fun clause => Migration.applyStatement family file
        (AlterTable.addColumnText name clause.text)).run catalog = .ok () after) :
    (Migration.applyStatement family file
      (CreateTable.clauseText name ((first :: others).map ColumnClause.text))).run catalog =
        .ok () after := by
  obtain ⟨hfirst, hothers⟩ := List.forall_mem_cons.mp hclauses
  obtain ⟨middle, hcreate, hadds⟩ := Change.run_then_eq_ok.mp hsteps
  obtain ⟨hbase, hdeclare⟩ := (ColumnClause.run_clauseText_iff (List.cons_ne_nil first [])
    (List.forall_mem_singleton.mpr hfirst)).mp hcreate
  obtain ⟨hnone, hadmits, rfl⟩ := Catalog.declare_iff.mp hdeclare
  -- by the first statement the schema is there, and the others find the table in it
  have hplace : name.schemaOr
      (catalog.ensureSchema (name.schemaOr catalog.defaultSchema)).defaultSchema =
        (Table.empty (name.schemaOr catalog.defaultSchema) name.base file).schema := by
    rw [Catalog.defaultSchema_ensureSchema]
    rfl
  dsimp only at hadmits hadds
  -- admitted one after the other, the columns are admitted at once
  obtain ⟨hall, hafter⟩ := admits_of_addColumns
    (Table.empty (name.schemaOr catalog.defaultSchema) name.base file)
    (Catalog.hasSchema_ensureSchema catalog _) hplace rfl hothers hadmits hadds
  rw [← List.map_append, ← List.flatMap_append] at hall hafter
  exact (ColumnClause.run_clauseText_iff (List.cons_ne_nil first others) hclauses).mpr
    ⟨hbase, Catalog.declare_iff.mpr ⟨hnone, hall, hafter⟩⟩

/-- Words without quotes make a clause. -/
theorem Text.isListed_of_isNameWord {words : List String}
    (hwords : ∀ word ∈ words, Chars.IsNameWord word.toList) (hne : words ≠ []) :
    Chars.IsListed (unwords words).toList :=
  isListed_unwords (fun word hword => (hwords word hword).isWord) hne

/-- A primary key. -/
def keyClause : ColumnClause ⟨"1.sql", .postgres⟩ "n" where
  text := Text.unwords ["id", "uuid", "PRIMARY", "KEY"]
  definition := ⟨{ Column.plain "id" ⟨"uuid", none, none, none⟩ with
    primaryKey := true, nullable := false, createdIn := "1.sql" }, none⟩
  balanced := (Text.isListed_of_isNameWord (by decide) (by decide)).toBalanced
  uncut := (Text.isListed_of_isNameWord (by decide) (by decide)).uncut
  plain := by decide +kernel
  read := by decide +kernel

/-- A column that refers to the primary key of its own table. -/
def parentClause : ColumnClause ⟨"1.sql", .postgres⟩ "n" where
  text := Text.unwords ["up", "uuid", "REFERENCES", "n"]
  definition := ⟨{ Column.plain "up" ⟨"uuid", none, none, none⟩ with createdIn := "1.sql" },
    some ⟨none, ["up"], none, "n", ["id"], .noAction, .noAction⟩⟩
  balanced := (Text.isListed_of_isNameWord (by decide) (by decide)).toBalanced
  uncut := (Text.isListed_of_isNameWord (by decide) (by decide)).uncut
  plain := by decide +kernel
  read := by decide +kernel

/-- The catalog with the key alone. -/
def keyOnly : Catalog :=
  (Catalog.new "public").settle
    ((Catalog.new "public").declare ⟨"1.sql", .postgres⟩
      ⟨⟨none, "n"⟩, false, [keyClause.definition.column], [], []⟩)

/-- The catalog with the key and the column that refers to it. -/
def keyAndParent : Catalog :=
  keyOnly.settle (keyOnly.operate ⟨"1.sql", .postgres⟩ ⟨none, "n"⟩
    (.addColumn parentClause.definition false))

theorem declare_of_addColumns_parent :
    keyAndParent ≠ keyOnly ∧
      (do
        Migration.applyStatement .postgres "1.sql"
          (CreateTable.clauseText ⟨none, "n"⟩ [keyClause.text])
        [parentClause].forM fun clause => Migration.applyStatement .postgres "1.sql"
          (AlterTable.addColumnText ⟨none, "n"⟩ clause.text)).run (.new "public") =
        .ok () keyAndParent ∧
      (Migration.applyStatement .postgres "1.sql"
        "CREATE TABLE \x22n\x22 (id uuid PRIMARY KEY, up uuid REFERENCES n)").run (.new "public") =
        .ok () keyAndParent := by
  have hkey : keyClause.IsStatement :=
    ⟨(Text.isListed_of_isNameWord (by decide) (by decide)).toTrimmed, by decide +kernel⟩
  have hparent : parentClause.IsStatement :=
    ⟨(Text.isListed_of_isNameWord (by decide) (by decide)).toTrimmed, by decide +kernel⟩
  have hclauses : ∀ clause ∈ [keyClause, parentClause], clause.IsStatement :=
    List.forall_mem_cons.mpr ⟨hkey, List.forall_mem_singleton.mpr hparent⟩
  have htext : CreateTable.clauseText ⟨none, "n"⟩
      ([keyClause, parentClause].map ColumnClause.text) =
        "CREATE TABLE \x22n\x22 (id uuid PRIMARY KEY, up uuid REFERENCES n)" := by
    decide +kernel
  obtain ⟨hdeclare, hoperate, hchanged⟩ :
      (Catalog.new "public").declare ⟨"1.sql", .postgres⟩
          ⟨⟨none, "n"⟩, false, [keyClause.definition.column], [], []⟩ = .ok keyOnly ∧
        keyOnly.operate ⟨"1.sql", .postgres⟩ ⟨none, "n"⟩
          (.addColumn parentClause.definition false) = .ok keyAndParent ∧
        keyAndParent ≠ keyOnly := by
    decide +kernel
  have hcreate : (Migration.applyStatement .postgres "1.sql"
      (CreateTable.clauseText ⟨none, "n"⟩ [keyClause.text])).run (.new "public") =
        .ok () keyOnly :=
    (ColumnClause.run_clauseText_iff (List.cons_ne_nil keyClause [])
      (List.forall_mem_singleton.mpr hkey)).mpr ⟨by decide, hdeclare⟩
  have hadd : ([parentClause].forM fun clause => Migration.applyStatement .postgres "1.sql"
      (AlterTable.addColumnText ⟨none, "n"⟩ clause.text)).run keyOnly = .ok () keyAndParent := by
    rw [List.forM_eq_forM, List.forM_cons, List.forM_nil, bind_pure_unit]
    exact (Migration.applyStatement_alterTable_iff hparent.read_addColumnText rfl).mpr
      hoperate
  -- the steps, from which the declaration at once follows
  have hsteps := Change.run_then_eq_ok.mpr ⟨keyOnly, hcreate, hadd⟩
  rw [← htext]
  exact ⟨hchanged, hsteps, declare_of_addColumns hclauses hsteps⟩

end Schemata
