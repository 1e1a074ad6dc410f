import Schemata.Proofs.Declaring
import Schemata.Proofs.Statement.ReferenceClause

/-!
# The places of a foreign key

A foreign key of one column can be written behind the definition of its column, among the clauses of
its table, or in a statement that alters the table afterwards.  Each place has a reader of its own,
and the last one also checks the key on its own, against a catalog that holds the table already.

The first two places are compared as texts.  A clause makes a column, a key or nothing, and a table
takes the columns in the order of the clauses and the keys in the same order.  When no other clause
has a key, the place of the one that has does not matter, so both texts are the same statement or
are refused alike (`read_behind_iff`).

The third place is compared by what the catalog becomes.  Both ways end in the same table, and the
check of the key finds the same columns: in a new table those of the table itself count as well, and
by the time of the second statement that table is in the catalog (`run_behind_iff`).  If the key
leads nowhere, both ways fail, but only the first one leaves the catalog as it was.

* `foreignKey_places_agree`: the three places declare the same key.
-/

namespace Schemata

namespace ColumnClause

variable {origin : Origin} {table : String} {clauses : List (ColumnClause origin table)}
  (clause : ColumnClause origin table)

/-- The clause says nothing about a key. -/
def IsKeyless : Prop :=
  ∀ word ∈ Text.words clause.text, ColumnConstraint.IsPlain word

variable {clause}

theorem IsKeyless.foreignKey_eq (hclause : clause.IsKeyless) :
    clause.definition.foreignKey = none :=
  ColumnDefinition.foreignKey_of_isPlain hclause clause.read

/-- The blanks around the clause make no difference. -/
theorem IsKeyless.declares_trim (hclause : clause.IsKeyless) :
    CreateTable.Declares origin table (Text.trim clause.text) clause.declared := by
  obtain ⟨first, second, others, hwords, -⟩ := ColumnDefinition.words_of_read clause.read
  have htrim : Text.words (Text.trim clause.text) = Text.words clause.text :=
    Text.words_trim clause.balanced.run_top
  have hplain := TableConstraint.read?_none_of_append clause.plain hwords
    (htrim.trans (List.append_nil _).symm)
  exact CreateTable.declares_column hplain
    (ColumnDefinition.read_of_words hclause clause.read htrim)

theorem keys_of_isKeyless (hclauses : ∀ clause ∈ clauses, clause.IsKeyless) :
    Declared.keys (clauses.map declared) = [] := by
  rw [Declared.keys, List.filterMap_eq_nil_iff, List.forall_mem_map]
  exact fun clause hclause => (hclauses clause hclause).foreignKey_eq

theorem declares_of_isKeyless (hclauses : ∀ clause ∈ clauses, clause.IsKeyless) :
    List.Forall₂ (CreateTable.Declares origin table)
      ((clauses.map ColumnClause.text).map Text.trim) (clauses.map declared) := by
  rw [List.map_map, List.forall₂_map_left_iff, List.forall₂_map_right_iff, List.forall₂_same]
  exact fun clause hclause => (hclauses clause hclause).declares_trim

/-! ## A clause among others -/

/-- Clauses of a table with one more text among them. -/
def around (front : List (ColumnClause origin table)) (text : String)
    (back : List (ColumnClause origin table)) : List String :=
  front.map ColumnClause.text ++ text :: back.map ColumnClause.text

variable {front back : List (ColumnClause origin table)} {text : String} {found : Declared}

theorem isItem_of_mem_around (htext : Chars.IsItem text.toList) :
    ∀ item ∈ around front text back, Chars.IsItem item.toList := by
  rw [around, List.forall_mem_append, List.forall_mem_cons]
  exact ⟨List.forall_mem_map.mpr fun clause _ => clause.isItem, htext,
    List.forall_mem_map.mpr fun clause _ => clause.isItem⟩

theorem mem_around : text ∈ around front text back :=
  List.mem_append_right _ List.mem_cons_self

theorem around_ne_nil : around front text back ≠ [] :=
  List.append_ne_nil_of_right_ne_nil _ (List.cons_ne_nil _ _)

theorem declares_around (hfront : ∀ clause ∈ front, clause.IsKeyless)
    (hback : ∀ clause ∈ back, clause.IsKeyless)
    (htext : CreateTable.Declares origin table (Text.trim text) found) :
    List.Forall₂ (CreateTable.Declares origin table) ((around front text back).map Text.trim)
      (front.map declared ++ found :: back.map declared) := by
  rw [around, List.map_append, List.map_cons]
  exact List.rel_append (declares_of_isKeyless hfront)
    (List.Forall₂.cons htext (declares_of_isKeyless hback))

theorem columns_around :
    Declared.columns (front.map declared ++ found :: back.map declared) =
      front.map (·.definition.column) ++
        (found.column.toList ++ back.map (·.definition.column)) := by
  rw [Declared.columns_append, Declared.columns_cons, columns_declared, columns_declared]

/-- The key of the text is the only one. -/
theorem keys_around (hfront : ∀ clause ∈ front, clause.IsKeyless)
    (hback : ∀ clause ∈ back, clause.IsKeyless) :
    Declared.keys (front.map declared ++ found :: back.map declared) = found.key.toList := by
  rw [Declared.keys_append, Declared.keys_cons, keys_of_isKeyless hfront,
    keys_of_isKeyless hback, List.nil_append, List.append_nil]

end ColumnClause

namespace WrittenReference

variable {origin : Origin} {table : String} {clause : ColumnClause origin table}
  (written : WrittenReference) (constraint : Option String)

/-! ## Behind the column -/

/-- The clause with the reference behind it. -/
def behind (clause : ColumnClause origin table) : String :=
  Text.unwords (clause.text :: written.suffixWords constraint)

theorem isWord_of_mem_suffixWords {word : String}
    (hword : word ∈ written.suffixWords constraint) : Chars.IsWord word.toList := by
  rcases List.mem_append.mp hword with hword | hword
  · exact TableConstraint.isWord_named hword
  rcases List.mem_cons.mp hword with rfl | hword
  · exact TableConstraint.isWord_of_mem_plain (by decide)
  · exact (written.isFinal_of_mem_words hword).toIsWord

theorem isItem_behind : Chars.IsItem (written.behind constraint clause).toList :=
  Text.isItem_unwords_cons clause.isItem
    (fun _ hword => written.isWord_of_mem_suffixWords constraint hword)
    (List.append_ne_nil_of_right_ne_nil _ (List.cons_ne_nil _ _))

theorem words_behind : Text.words (Text.trim (written.behind constraint clause)) =
    Text.words clause.text ++ written.suffixWords constraint := by
  rw [Text.words_trim (written.isItem_behind constraint).run_top, behind,
    Text.words_unwords_append clause.balanced
      fun _ hword => written.isWord_of_mem_suffixWords constraint hword]

theorem read?_behind :
    TableConstraint.read? origin (Text.trim (written.behind constraint clause)) = .ok none := by
  obtain ⟨first, second, others, hwords, -⟩ := ColumnDefinition.words_of_read clause.read
  exact TableConstraint.read?_none_of_append clause.plain hwords
    (written.words_behind constraint)

theorem declares_behind (hclause : clause.IsKeyless) (hbase : written.target.base ≠ "") :
    CreateTable.Declares origin table (Text.trim (written.behind constraint clause))
      ⟨some clause.definition.column,
        some (written.key constraint clause.definition.column.name)⟩ :=
  CreateTable.declares_column (written.read?_behind constraint)
    ((written.read_column_iff constraint hclause clause.read
      (written.words_behind constraint)).mpr ⟨hbase, rfl⟩)

theorem refuses_behind (hclause : clause.IsKeyless) (hbase : written.target.base = "") :
    CreateTable.Refuses origin table (Text.trim (written.behind constraint clause)) := by
  refine CreateTable.refuses_column (written.read?_behind constraint) fun definition hread => ?_
  exact ((written.read_column_iff constraint hclause clause.read
    (written.words_behind constraint)).mp hread).1 hbase

/-! ## Among the clauses -/

/-- The key of a column as a clause of its own. -/
def keyText (column : String) : String :=
  Text.unwords (TableConstraint.keyWords constraint [column] ++ written.words)

variable (column : String)

theorem isWord_of_mem_key {word : String}
    (hword : word ∈ TableConstraint.keyWords constraint [column] ++ written.words) :
    Chars.IsWord word.toList := by
  rcases List.mem_append.mp hword with hword | hword
  · exact TableConstraint.isWord_keyWords hword
  · exact (written.isFinal_of_mem_words hword).toIsWord

theorem isListed_keyText : Chars.IsListed (written.keyText constraint column).toList :=
  Text.isListed_unwords (fun _ hword => written.isWord_of_mem_key constraint column hword)
    (List.append_ne_nil_of_right_ne_nil _ written.words_ne_nil)

theorem words_keyText : Text.words (written.keyText constraint column) =
    TableConstraint.keyWords constraint [column] ++ written.words :=
  Text.words_unwords fun _ hword => written.isWord_of_mem_key constraint column hword

theorem trim_keyText :
    Text.trim (written.keyText constraint column) = written.keyText constraint column :=
  Text.trim_eq_self (written.isListed_keyText constraint column).toTrimmed

theorem declares_keyText (hbase : written.target.base ≠ "") :
    CreateTable.Declares origin table (Text.trim (written.keyText constraint column))
      ⟨none, some (written.key constraint column)⟩ := by
  rw [trim_keyText]
  exact CreateTable.declares_foreignKey ((written.read?_table_iff constraint column
    (written.words_keyText constraint column)).mpr ⟨hbase, rfl⟩)

theorem refuses_keyText (hbase : written.target.base = "") :
    CreateTable.Refuses origin table (Text.trim (written.keyText constraint column)) := by
  rw [trim_keyText]
  refine CreateTable.refuses_constraint fun found hread => ?_
  exact ((written.read?_table_iff constraint column
    (written.words_keyText constraint column)).mp hread).1 hbase

end WrittenReference

/-! ## In a statement of its own -/

namespace WrittenReference

variable {origin : Origin} (written : WrittenReference) (constraint : Option String)
  (column : String)

theorem getLast?_keyText :
    (written.keyText constraint column).toList.getLast? ≠ some ';' :=
  written.getLast?_unwords_words _

/-- A key starts with a keyword of a constraint. -/
theorem exists_words_keyText : ∃ word others,
    Text.words (written.keyText constraint column) = word :: others ∧
      Text.isAnyKeyword word constraintKeywords = true := by
  rw [words_keyText]
  cases constraint with
  | none => exact ⟨"FOREIGN", _, rfl, by decide⟩
  | some name => exact ⟨"CONSTRAINT", _, rfl, by decide⟩

/-- The statement adds the key, or it is refused. -/
theorem read_addConstraintText {name : ObjectName} {statement : Statement} :
    Statement.read origin
        (AlterTable.addConstraintText name (written.keyText constraint column)) = .ok statement ↔
      written.target.base ≠ "" ∧ statement = .alterTable ⟨name, false,
        .addConstraint (.foreignKey (written.key constraint column))⟩ := by
  obtain ⟨word, others, hwords, hkeyword⟩ := written.exists_words_keyText constraint column
  rw [AlterTable.read_addConstraintText (written.isListed_keyText constraint column)
    (written.getLast?_keyText constraint column) hwords hkeyword]
  simp only [except_map_eq_ok,
    written.read?_table_iff constraint column (written.words_keyText constraint column)]
  constructor
  · rintro ⟨_, ⟨hbase, rfl⟩, rfl⟩
    exact ⟨hbase, rfl⟩
  · rintro ⟨hbase, rfl⟩
    exact ⟨_, ⟨hbase, rfl⟩, rfl⟩

end WrittenReference

/-! ## The three places -/

section Places

variable {family : Family} {file : String} {name : ObjectName}
  {before rest front back : List (ColumnClause ⟨file, family⟩ name.base)}
  {clause : ColumnClause ⟨file, family⟩ name.base} {catalog after : Catalog}
  (written : WrittenReference) (constraint : Option String)

theorem WrittenReference.run_addConstraintText_iff (column : String) :
    (Migration.applyStatement family file
        (AlterTable.addConstraintText name (written.keyText constraint column))).run catalog =
          .ok () after ↔
      written.target.base ≠ "" ∧ catalog.operate ⟨file, family⟩ name
        (.addConstraint (.foreignKey (written.key constraint column))) = .ok after := by
  constructor
  · intro hrun
    obtain ⟨statement, hread, -⟩ := Migration.applyStatement_iff.mp hrun
    obtain ⟨hbase, rfl⟩ := (written.read_addConstraintText constraint column).mp hread
    exact ⟨hbase, (Migration.applyStatement_alterTable_iff hread rfl).mp hrun⟩
  · rintro ⟨hbase, hoperate⟩
    have hread : Statement.read ⟨file, family⟩
        (AlterTable.addConstraintText name (written.keyText constraint column)) =
          .ok (.alterTable ⟨name, false,
            .addConstraint (.foreignKey (written.key constraint column))⟩) :=
      (written.read_addConstraintText constraint column).mpr ⟨hbase, rfl⟩
    exact (Migration.applyStatement_alterTable_iff hread rfl).mpr hoperate

/-- A key that refers to a table without a name is refused behind its column. -/
theorem read_behind_ne_ok (hclause : clause.IsKeyless) (hbase : written.target.base = "")
    (statement : Statement) :
    Statement.read ⟨file, family⟩ (CreateTable.clauseText name
      (ColumnClause.around before (written.behind constraint clause) rest)) ≠ .ok statement :=
  CreateTable.read_clauseText_ne_ok
    (ColumnClause.isItem_of_mem_around (written.isItem_behind constraint))
    ColumnClause.mem_around (written.refuses_behind constraint hclause hbase)

/-- And so it is in a clause of its own. -/
theorem read_keyText_ne_ok (hbase : written.target.base = "") (column : String)
    (statement : Statement) :
    Statement.read ⟨file, family⟩ (CreateTable.clauseText name
      (ColumnClause.around front (written.keyText constraint column) back)) ≠ .ok statement :=
  CreateTable.read_clauseText_ne_ok
    (ColumnClause.isItem_of_mem_around (written.isListed_keyText constraint column).isItem)
    ColumnClause.mem_around (written.refuses_keyText constraint column hbase)

theorem columns_around_clause :
    before.map (·.definition.column) ++ ((some clause.definition.column).toList ++
      rest.map (·.definition.column)) = (before ++ clause :: rest).map (·.definition.column) := by
  rw [List.map_append]
  rfl

/-- Behind its column, a key makes the table that is declared without it and then altered. -/
theorem run_behind_iff (hkeyless : ∀ other ∈ before ++ clause :: rest, other.IsKeyless) :
    (Migration.applyStatement family file (CreateTable.clauseText name
        (ColumnClause.around before (written.behind constraint clause) rest))).run catalog =
          .ok () after ↔
      (do
        Migration.applyStatement family file (CreateTable.clauseText name
          ((before ++ clause :: rest).map ColumnClause.text))
        Migration.applyStatement family file (AlterTable.addConstraintText name
          (written.keyText constraint clause.definition.column.name))).run catalog =
        .ok () after := by
  obtain ⟨hbefore, hothers⟩ := List.forall_mem_append.mp hkeyless
  obtain ⟨hclause, hrest⟩ := List.forall_mem_cons.mp hothers
  have hitems : ∀ item ∈ ColumnClause.around before (written.behind constraint clause) rest,
      Chars.IsItem item.toList :=
    ColumnClause.isItem_of_mem_around (written.isItem_behind constraint)
  by_cases hbase : written.target.base = ""
  · constructor
    · intro hrun
      obtain ⟨statement, hread, -⟩ := Migration.applyStatement_iff.mp hrun
      exact absurd hread (read_behind_ne_ok written constraint hclause hbase statement)
    · intro hrun
      obtain ⟨middle, -, hadd⟩ := Change.run_then_eq_ok.mp hrun
      exact absurd hbase ((written.run_addConstraintText_iff constraint _).mp hadd).1
  · have hne : (before ++ clause :: rest).map ColumnClause.text ≠ [] := by simp
    have hplainItems : ∀ item ∈ (before ++ clause :: rest).map ColumnClause.text,
        Chars.IsItem item.toList := List.forall_mem_map.mpr fun other _ => other.isItem
    have hplain := ColumnClause.declares_of_isKeyless hkeyless
    have hdeclares := ColumnClause.declares_around hbefore hrest
      (written.declares_behind constraint hclause hbase)
    have hkey : (some (written.key constraint clause.definition.column.name)).toList.flatMap
        (·.expand name.base file) =
          [] ++ (written.key constraint clause.definition.column.name).expand name.base file := by
      rw [Option.toList_some, List.flatMap_singleton, List.nil_append]
    -- Both sides are now one declaration, with the key in it and with the key added to it.
    rw [CreateTable.run_clauseText_iff ColumnClause.around_ne_nil hitems hdeclares,
      Change.run_then_eq_ok, ColumnClause.columns_around, ColumnClause.keys_around hbefore hrest]
    dsimp only
    rw [columns_around_clause, hkey, Catalog.declare_append_keys_iff]
    simp only [CreateTable.run_clauseText_iff hne hplainItems hplain,
      written.run_addConstraintText_iff, ColumnClause.columns_declared,
      ColumnClause.keys_of_isKeyless hkeyless, List.flatMap_nil]
    constructor
    · rintro ⟨hname, middle, hdeclare, hoperate⟩
      exact ⟨middle, ⟨hname, hdeclare⟩, hbase, hoperate⟩
    · rintro ⟨middle, ⟨hname, hdeclare⟩, -, hoperate⟩
      exact ⟨hname, middle, hdeclare, hoperate⟩

/-- Wherever the key stands, the same table is read, or none. -/
theorem read_behind_iff (hkeyless : ∀ other ∈ before ++ clause :: rest, other.IsKeyless)
    (hplace : front ++ back = before ++ clause :: rest) {statement : Statement} :
    Statement.read ⟨file, family⟩ (CreateTable.clauseText name
        (ColumnClause.around before (written.behind constraint clause) rest)) = .ok statement ↔
      Statement.read ⟨file, family⟩ (CreateTable.clauseText name
        (ColumnClause.around front
          (written.keyText constraint clause.definition.column.name) back)) = .ok statement := by
  obtain ⟨hbefore, hothers⟩ := List.forall_mem_append.mp hkeyless
  obtain ⟨hclause, hrest⟩ := List.forall_mem_cons.mp hothers
  obtain ⟨hfront, hback⟩ := List.forall_mem_append.mp (hplace ▸ hkeyless)
  have hinline : ∀ item ∈ ColumnClause.around before (written.behind constraint clause) rest,
      Chars.IsItem item.toList :=
    ColumnClause.isItem_of_mem_around (written.isItem_behind constraint)
  have hitems : ∀ item ∈ ColumnClause.around front
      (written.keyText constraint clause.definition.column.name) back,
      Chars.IsItem item.toList :=
    ColumnClause.isItem_of_mem_around (written.isListed_keyText constraint _).isItem
  by_cases hbase : written.target.base = ""
  · exact iff_of_false (read_behind_ne_ok written constraint hclause hbase statement)
      (read_keyText_ne_ok written constraint hbase _ statement)
  · have hbehind := ColumnClause.declares_around hbefore hrest
      (written.declares_behind constraint hclause hbase)
    have hkey := ColumnClause.declares_around hfront hback
      (written.declares_keyText constraint clause.definition.column.name hbase)
    -- The columns come in one order at both places, and there is one key.
    rw [CreateTable.read_clauseText_iff ColumnClause.around_ne_nil hinline hbehind,
      CreateTable.read_clauseText_iff ColumnClause.around_ne_nil hitems hkey,
      ColumnClause.columns_around, ColumnClause.columns_around,
      ColumnClause.keys_around hbefore hrest, ColumnClause.keys_around hfront hback]
    dsimp only
    rw [columns_around_clause, ← hplace, List.map_append, Option.toList_none, List.nil_append]

end Places

/-- A key of one column is declared behind the column, in any place among the clauses, or in a
statement after a declaration without it.  The first two give the same statement or none, and the
third succeeds in both its statements when the first does, with the same catalog. -/
theorem foreignKey_places_agree {family : Family} {file : String} (name : ObjectName)
    (before rest front back : List (ColumnClause ⟨file, family⟩ name.base))
    (clause : ColumnClause ⟨file, family⟩ name.base) (written : WrittenReference)
    (constraint : Option String)
    (hkeyless : ∀ other ∈ before ++ clause :: rest, other.IsKeyless)
    (hplace : front ++ back = before ++ clause :: rest) :
    (∀ statement,
      Statement.read ⟨file, family⟩ (CreateTable.clauseText name
          (ColumnClause.around before (written.behind constraint clause) rest)) = .ok statement ↔
        Statement.read ⟨file, family⟩ (CreateTable.clauseText name
          (ColumnClause.around front
            (written.keyText constraint clause.definition.column.name) back)) = .ok statement) ∧
    ∀ catalog after,
      (Migration.applyStatement family file (CreateTable.clauseText name
          (ColumnClause.around before (written.behind constraint clause) rest))).run catalog =
            .ok () after ↔
        (do
          Migration.applyStatement family file (CreateTable.clauseText name
            ((before ++ clause :: rest).map ColumnClause.text))
          Migration.applyStatement family file (AlterTable.addConstraintText name
            (written.keyText constraint clause.definition.column.name))).run catalog =
          .ok () after :=
  ⟨fun _ => read_behind_iff written constraint hkeyless hplace,
    fun _ _ => run_behind_iff written constraint hkeyless⟩

/-- A column without a key. -/
def upClause : ColumnClause ⟨"1.sql", .postgres⟩ "n" where
  text := Text.unwords ["up", "uuid"]
  definition := ⟨{ Column.plain "up" ⟨"uuid", none, none, none⟩ with createdIn := "1.sql" }, none⟩
  balanced := (Text.isListed_of_isNameWord (by decide) (by decide)).toBalanced
  uncut := (Text.isListed_of_isNameWord (by decide) (by decide)).uncut
  plain := by decide +kernel
  read := by decide +kernel

/-- A reference to the primary key of the same table. -/
def toKey : WrittenReference :=
  ⟨⟨none, "n"⟩, none, false, []⟩

/-- The catalog with both columns. -/
def keyAndUp : Catalog :=
  (Catalog.new "public").settle
    ((Catalog.new "public").declare ⟨"1.sql", .postgres⟩
      ⟨⟨none, "n"⟩, false, [keyClause, upClause].map (·.definition.column), [], []⟩)

/-- The catalog with the key of the second. -/
def keyAndUpKeyed : Catalog :=
  keyAndUp.settle (keyAndUp.operate ⟨"1.sql", .postgres⟩ ⟨none, "n"⟩
    (.addConstraint (.foreignKey (toKey.key (some "k") "up"))))

theorem foreignKey_places_agree_up :
    keyAndUpKeyed ≠ keyAndUp ∧
      (do
        Migration.applyStatement .postgres "1.sql"
          "CREATE TABLE \x22n\x22 (id uuid PRIMARY KEY, up uuid)"
        Migration.applyStatement .postgres "1.sql"
          ("ALTER TABLE \x22n\x22 ADD " ++
            "CONSTRAINT \x22k\x22 FOREIGN KEY (\x22up\x22) REFERENCES \x22n\x22")).run
              (.new "public") = .ok () keyAndUpKeyed ∧
      (Migration.applyStatement .postgres "1.sql"
        ("CREATE TABLE \x22n\x22 " ++
          "(id uuid PRIMARY KEY, up uuid CONSTRAINT \x22k\x22 REFERENCES \x22n\x22)")).run
            (.new "public") = .ok () keyAndUpKeyed ∧
      ∃ statement,
        Statement.read ⟨"1.sql", .postgres⟩ (CreateTable.clauseText ⟨none, "n"⟩
          (ColumnClause.around [keyClause] (toKey.behind (some "k") upClause) [])) =
            .ok statement ∧
        Statement.read ⟨"1.sql", .postgres⟩ (CreateTable.clauseText ⟨none, "n"⟩
          (ColumnClause.around [] (toKey.keyText (some "k") "up") [keyClause, upClause])) =
            .ok statement := by
  have hkey : keyClause.IsStatement :=
    ⟨(Text.isListed_of_isNameWord (by decide) (by decide)).toTrimmed, by decide +kernel⟩
  have hup : upClause.IsStatement :=
    ⟨(Text.isListed_of_isNameWord (by decide) (by decide)).toTrimmed, by decide +kernel⟩
  have hstatements : ∀ clause ∈ [keyClause, upClause], clause.IsStatement :=
    List.forall_mem_cons.mpr ⟨hkey, List.forall_mem_singleton.mpr hup⟩
  have hkeyless : ∀ other ∈ [keyClause] ++ upClause :: [], other.IsKeyless :=
    List.forall_mem_cons.mpr ⟨by unfold ColumnClause.IsKeyless; decide +kernel,
      List.forall_mem_singleton.mpr (by unfold ColumnClause.IsKeyless; decide +kernel)⟩
  obtain ⟨hinline, hplain, hadd⟩ :
      CreateTable.clauseText ⟨none, "n"⟩
          (ColumnClause.around [keyClause] (toKey.behind (some "k") upClause) []) =
        "CREATE TABLE \x22n\x22 " ++
          "(id uuid PRIMARY KEY, up uuid CONSTRAINT \x22k\x22 REFERENCES \x22n\x22)" ∧
      CreateTable.clauseText ⟨none, "n"⟩ ([keyClause, upClause].map ColumnClause.text) =
        "CREATE TABLE \x22n\x22 (id uuid PRIMARY KEY, up uuid)" ∧
      AlterTable.addConstraintText ⟨none, "n"⟩ (toKey.keyText (some "k") "up") =
        "ALTER TABLE \x22n\x22 ADD " ++
          "CONSTRAINT \x22k\x22 FOREIGN KEY (\x22up\x22) REFERENCES \x22n\x22" := by
    decide +kernel
  -- the two statements, the second of which changes the catalog
  obtain ⟨hdeclare, hoperate, hchanged⟩ :
      (Catalog.new "public").declare ⟨"1.sql", .postgres⟩
          ⟨⟨none, "n"⟩, false, [keyClause, upClause].map (·.definition.column), [], []⟩ =
            .ok keyAndUp ∧
        keyAndUp.operate ⟨"1.sql", .postgres⟩ ⟨none, "n"⟩
          (.addConstraint (.foreignKey (toKey.key (some "k") "up"))) = .ok keyAndUpKeyed ∧
        keyAndUpKeyed ≠ keyAndUp := by
    decide +kernel
  have hcreate : (Migration.applyStatement .postgres "1.sql"
      (CreateTable.clauseText ⟨none, "n"⟩ ([keyClause, upClause].map ColumnClause.text))).run
        (.new "public") = .ok () keyAndUp :=
    (ColumnClause.run_clauseText_iff (List.cons_ne_nil keyClause [upClause])
      hstatements).mpr ⟨by decide, hdeclare⟩
  have halter : (Migration.applyStatement .postgres "1.sql"
      (AlterTable.addConstraintText ⟨none, "n"⟩ (toKey.keyText (some "k") "up"))).run keyAndUp =
        .ok () keyAndUpKeyed :=
    (toKey.run_addConstraintText_iff (some "k") "up").mpr ⟨by decide, hoperate⟩
  have hsteps := Change.run_then_eq_ok.mpr ⟨keyAndUp, hcreate, halter⟩
  -- from these two steps the single statement and both of its readings
  obtain ⟨hread, hrun⟩ := foreignKey_places_agree ⟨none, "n"⟩ [keyClause] [] []
    [keyClause, upClause] upClause toKey (some "k") hkeyless rfl
  have hbehind := (hrun (.new "public") keyAndUpKeyed).mpr hsteps
  obtain ⟨statement, hstatement, -⟩ := Migration.applyStatement_iff.mp hbehind
  refine ⟨hchanged, ?_, ?_, statement, hstatement, (hread statement).mp hstatement⟩
  · rw [← hplain, ← hadd]
    exact hsteps
  · rw [← hinline]
    exact hbehind

end Schemata
