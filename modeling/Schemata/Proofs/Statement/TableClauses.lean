import Schemata.Proofs.Statement.ColumnReading
import Schemata.Proofs.Statement.Quoted
import Schemata.Proofs.Statement.TableDeclaration
import Schemata.Proofs.Statement.TableParts

/-!
# Tables declared clause by clause

`CREATE TABLE` gathers its clauses from the left.  A clause that declares a column, a foreign key or
both of one column is put behind what is there, and is refused only for the name of its column
(`CreateTable.Declares`).  A table of such clauses is read if its columns have different names.  A
table with a clause that is refused whatever stands before it (`CreateTable.Refuses`) is not read.

The text of the statement is built from the clauses, so most of the module is about the way back:
which words the text has, where the group ends, and that its clauses are those that went in.

* `CreateTable.foldlM_readClause_iff`: the clauses one after the other.
* `CreateTable.read_clauseText_iff`: the statement about a quoted table.
-/

namespace Schemata

/-- What a clause of a table declares. -/
structure Declared where
  /-- Its column. -/
  column : Option Column
  /-- Its foreign key. -/
  key : Option ForeignKeyConstraint

namespace Declared

/-- The columns of all clauses. -/
def columns (declared : List Declared) : List Column :=
  declared.filterMap Declared.column

/-- The foreign keys of all clauses. -/
def keys (declared : List Declared) : List ForeignKeyConstraint :=
  declared.filterMap Declared.key

theorem columns_cons (first : Declared) (others : List Declared) :
    columns (first :: others) = first.column.toList ++ columns others := by
  rw [columns, columns, List.filterMap_cons]
  cases first.column <;> rfl

theorem keys_cons (first : Declared) (others : List Declared) :
    keys (first :: others) = first.key.toList ++ keys others := by
  rw [keys, keys, List.filterMap_cons]
  cases first.key <;> rfl

theorem columns_append (first second : List Declared) :
    columns (first ++ second) = columns first ++ columns second :=
  List.filterMap_append

theorem keys_append (first second : List Declared) :
    keys (first ++ second) = keys first ++ keys second :=
  List.filterMap_append

end Declared

/-- The body with more columns and foreign keys. -/
def TableBody.extend (body : TableBody) (columns : List Column)
    (keys : List ForeignKeyConstraint) : TableBody :=
  { body with
    columns := body.columns ++ columns
    foreignKeys := body.foreignKeys ++ keys }

theorem TableBody.extend_nil (body : TableBody) : body.extend [] [] = body := by
  simp [extend]

theorem TableBody.extend_extend (body : TableBody) (columns more : List Column)
    (keys others : List ForeignKeyConstraint) :
    (body.extend columns keys).extend more others =
      body.extend (columns ++ more) (keys ++ others) := by
  simp [extend]

namespace CreateTable

variable {origin : Origin} {table clause text : String} {body result : TableBody}

/-! ## Clauses -/

/-- The clause puts what it declares behind what is there, unless its column has a name in use. -/
def Declares (origin : Origin) (table clause : String) (declared : Declared) : Prop :=
  ∀ (text : String) (body result : TableBody),
    readClause origin text table body clause = .ok result ↔
      (∀ column ∈ declared.column, column.name ∉ body.columns.map Column.name) ∧
        result = body.extend declared.column.toList declared.key.toList

/-- A clause declares what its part does, if that is a column or a foreign key. -/
theorem declares_of_readPart {part : TablePart} (hread : readPart origin table clause = .ok part)
    (hkey : part.primaryKey? = none) (hunique : part.unique? = none) :
    Declares origin table clause ⟨part.column?, part.foreignKey?⟩ := by
  intro text body result
  have hadded : readClause origin text table body clause = .ok result ↔
      body.addPart part = .ok result := by
    rw [readClause_eq_ok_iff]
    constructor
    · rintro ⟨found, hfound, hadd⟩
      cases hread.symm.trans hfound
      exact hadd
    · exact fun hadd => ⟨part, hread, hadd⟩
  rw [hadded, TableBody.addPart_eq_ok_iff, hkey, hunique]
  simp [TableBody.extend, eq_comm]

theorem declares_column {definition : ColumnDefinition}
    (hplain : TableConstraint.read? origin clause = .ok none)
    (hread : ColumnDefinition.read origin table clause = .ok definition) :
    Declares origin table clause ⟨some definition.column, definition.foreignKey⟩ := by
  have hpart : readPart origin table clause = .ok (.column definition) := by
    rw [readPart, hplain, except_ok_bind]
    dsimp only
    rw [hread]
    rfl
  exact declares_of_readPart hpart rfl rfl

theorem declares_foreignKey {key : ForeignKeyConstraint}
    (hread : TableConstraint.read? origin clause = .ok (some (.foreignKey key))) :
    Declares origin table clause ⟨none, some key⟩ := by
  have hpart : readPart origin table clause = .ok (.constraint (.foreignKey key)) := by
    rw [readPart, hread]
    rfl
  exact declares_of_readPart hpart rfl rfl

/-- The clause cannot be read, whatever stands before it. -/
def Refuses (origin : Origin) (table clause : String) : Prop :=
  ∀ (text : String) (body result : TableBody),
    readClause origin text table body clause ≠ .ok result

theorem refuses_column (hplain : TableConstraint.read? origin clause = .ok none)
    (hread : ∀ definition, ColumnDefinition.read origin table clause ≠ .ok definition) :
    Refuses origin table clause := by
  intro text body result hrun
  rw [readClause, hplain, except_ok_bind, except_bind_eq_ok] at hrun
  obtain ⟨definition, hdefinition, -⟩ := hrun
  exact hread definition hdefinition

theorem refuses_constraint
    (hread : ∀ constraint, TableConstraint.read? origin clause ≠ .ok constraint) :
    Refuses origin table clause := by
  intro text body result hrun
  rw [readClause, except_bind_eq_ok] at hrun
  obtain ⟨constraint, hconstraint, -⟩ := hrun
  exact hread constraint hconstraint

/-- Clauses are taken one after the other if the names of all columns are different. -/
theorem foldlM_readClause_iff {clauses : List String} {declared : List Declared}
    (hdeclares : List.Forall₂ (Declares origin table) clauses declared)
    (hbody : (body.columns.map Column.name).Nodup) :
    clauses.foldlM (readClause origin text table) body = .ok result ↔
      ((body.columns ++ Declared.columns declared).map Column.name).Nodup ∧
        result = body.extend (Declared.columns declared) (Declared.keys declared) := by
  -- The names in use grow with the body, so that the induction is over all bodies.
  induction hdeclares generalizing body with
  | nil =>
      rw [List.foldlM_nil, except_pure_eq_ok]
      simp [Declared.columns, Declared.keys, TableBody.extend_nil, hbody, eq_comm]
  | @cons clause first clauses others hfirst _ ih =>
      have hnew : (∀ column ∈ first.column, column.name ∉ body.columns.map Column.name) ↔
          ((body.columns ++ first.column.toList).map Column.name).Nodup := by
        rw [List.map_append, List.nodup_append']
        cases first.column <;> simp [hbody]
      have hassoc : body.columns ++ Declared.columns (first :: others) =
          body.columns ++ first.column.toList ++ Declared.columns others := by
        rw [Declared.columns_cons, List.append_assoc]
      have hextend : body.extend (Declared.columns (first :: others))
          (Declared.keys (first :: others)) =
            (body.extend first.column.toList first.key.toList).extend (Declared.columns others)
              (Declared.keys others) := by
        rw [TableBody.extend_extend, Declared.columns_cons, Declared.keys_cons]
      rw [List.foldlM_cons, except_bind_eq_ok, hassoc, hextend]
      constructor
      · rintro ⟨middle, hmiddle, hrest⟩
        obtain ⟨hcolumn, rfl⟩ := (hfirst text body middle).mp hmiddle
        exact (ih (hnew.mp hcolumn)).mp hrest
      · rintro ⟨hnodup, rfl⟩
        have hmiddle : ((body.columns ++ first.column.toList).map Column.name).Nodup := by
          rw [List.map_append] at hnodup
          exact hnodup.of_append_left
        exact ⟨_, (hfirst text body _).mpr ⟨hnew.mpr hmiddle, rfl⟩, (ih hmiddle).mpr ⟨hnodup, rfl⟩⟩

/-! ## The statement -/

/-- The statement that declares a table of a quoted name with the given clauses. -/
def clauseText (name : ObjectName) (clauses : List String) : String :=
  Text.unwords ["CREATE", "TABLE", name.quoted, "(" ++ Text.listed 1 clauses ++ ")"]

variable {name : ObjectName} {inside : String}

theorem isWord_of_mem_header (hinside : Chars.Balanced inside.toList) {word : String}
    (hword : word ∈ ["CREATE", "TABLE", name.quoted, "(" ++ inside ++ ")"]) :
    Chars.IsWord word.toList := by
  have hcreate : Chars.IsNameWord "CREATE".toList := by decide
  have htable : Chars.IsNameWord "TABLE".toList := by decide
  simp only [List.mem_cons, List.not_mem_nil, or_false] at hword
  rcases hword with rfl | rfl | rfl | rfl
  · exact hcreate.isWord
  · exact htable.isWord
  · exact name.isWord_quoted
  · exact Text.isWord_group hinside

/-- A quoted name that is not empty is taken as it stands, and the group behind it is the body. -/
theorem readHeader_quoted_iff {header : Header} (hinside : Chars.Balanced inside.toList)
    (htext : Text.words text = ["CREATE", "TABLE", name.quoted, "(" ++ inside ++ ")"])
    (file : String) :
    readHeader.ofText file text = .ok header ↔
      name.base ≠ "" ∧ header = ⟨name, false, inside⟩ := by
  have hguard : Text.startWithKeywords [name.quoted, "(" ++ inside ++ ")"]
      ["if", "not", "exists"] = false := by
    rw [Text.startWithKeywords, name.isKeyword_quoted (by decide), Bool.false_and]
  rw [readHeader_ofText_iff htext (Reading.reads_acceptAll_none hguard) name.uncut_quoted hinside,
    name.read_quoted]

section Body

variable {clauses : List String} {statement : Statement}

theorem balanced_listed_of_isItem (hitems : ∀ clause ∈ clauses, Chars.IsItem clause.toList) :
    Chars.Balanced (Text.listed 1 clauses).toList :=
  Text.balanced_listed 1 fun clause hclause => (hitems clause hclause).toBalanced

/-- The words of the statement are the two keywords, the name and the group of the clauses. -/
theorem words_clauseText (hitems : ∀ clause ∈ clauses, Chars.IsItem clause.toList) :
    Text.words (clauseText name clauses) =
      ["CREATE", "TABLE", name.quoted, "(" ++ Text.listed 1 clauses ++ ")"] :=
  Text.words_unwords fun _ hword => isWord_of_mem_header (balanced_listed_of_isItem hitems) hword

theorem isListed_clauseText (hitems : ∀ clause ∈ clauses, Chars.IsItem clause.toList) :
    Chars.IsListed (clauseText name clauses).toList :=
  Text.isListed_unwords
    (fun _ hword => isWord_of_mem_header (balanced_listed_of_isItem hitems) hword)
    (List.cons_ne_nil _ _)

/-- The text ends with the parenthesis that closes the group, so nothing is stripped from it. -/
theorem getLast?_clauseText_ne_semicolon (name : ObjectName) (clauses : List String) :
    (clauseText name clauses).toList.getLast? ≠ some ';' := by
  have hgroup := Text.toList_group (Text.listed 1 clauses)
  have hlast := Text.getLast?_unwords_concat ["CREATE", "TABLE", name.quoted]
    (hgroup ▸ List.cons_ne_nil '(' _)
  rw [hgroup, ← List.cons_append, List.getLast?_concat] at hlast
  intro hsemicolon
  cases hsemicolon.symm.trans hlast

/-- The statement is read when its table has a name and its clauses are read one after the other. -/
theorem read_clauseText (hne : clauses ≠ [])
    (hitems : ∀ clause ∈ clauses, Chars.IsItem clause.toList) :
    Statement.read origin (clauseText name clauses) = .ok statement ↔
      name.base ≠ "" ∧ ∃ body, (clauses.map Text.trim).foldlM
          (readClause origin (clauseText name clauses) name.base) .empty = .ok body ∧
        ∃ columns, markColumns origin (clauseText name clauses) name.base body = .ok columns ∧
          statement = .createTable {
            name := name
            ifNotExists := false
            columns := columns
            foreignKeys := body.foreignKeys.flatMap (·.expand name.base origin.file)
            primaryKey := body.primaryKey } := by
  have hclauses : Text.clauses (Text.listed 1 clauses) = clauses.map Text.trim :=
    Text.clauses_listed_of_isItem 1 hitems
  have hmap : clauses.map Text.trim ≠ [] := fun hnil => hne (List.map_eq_nil_iff.mp hnil)
  have hkind : Statement.Kind.ofWords? (Text.words (clauseText name clauses)) =
      some .createTable := by
    rw [words_clauseText hitems]
    rfl
  rw [Statement.read_eq (isListed_clauseText hitems).toTrimmed
    (getLast?_clauseText_ne_semicolon name clauses) hkind, Statement.readKind, except_bind_eq_ok]
  simp only [except_pure_eq_ok, CreateTable.read_eq, except_bind_eq_ok,
    readHeader_quoted_iff (balanced_listed_of_isItem hitems) (words_clauseText hitems),
    readBody_iff_foldlM]
  -- what is left of the reader is the fold over the trimmed clauses and the marking of the columns
  constructor
  · rintro ⟨value, ⟨header, ⟨hbase, rfl⟩, -, body, hbody, columns, hcolumns, rfl⟩, rfl⟩
    rw [hclauses] at hbody
    exact ⟨hbase, body, hbody, columns, hcolumns, rfl⟩
  · rintro ⟨hbase, body, hbody, columns, hcolumns, rfl⟩
    refine ⟨_, ⟨_, ⟨hbase, rfl⟩, ?_, body, ?_, columns, hcolumns, rfl⟩, rfl⟩
    · rw [hclauses]
      exact hmap
    · rw [hclauses]
      exact hbody

/-- A table with a clause that cannot be read is not read. -/
theorem read_clauseText_ne_ok (hitems : ∀ clause ∈ clauses, Chars.IsItem clause.toList)
    {clause : String} (hclause : clause ∈ clauses)
    (hrefuses : Refuses origin name.base (Text.trim clause)) :
    Statement.read origin (clauseText name clauses) ≠ .ok statement := by
  intro hread
  obtain ⟨-, body, hbody, -⟩ :=
    (read_clauseText (List.ne_nil_of_mem hclause) hitems).mp hread
  obtain ⟨current, next, hstep⟩ :=
    exists_of_foldlM_eq_ok hbody (List.mem_map_of_mem hclause)
  exact hrefuses _ _ _ hstep

/-- A table of clauses that declare columns and foreign keys is read if it has a name and its
columns have different ones. -/
theorem read_clauseText_iff {declared : List Declared} (hne : clauses ≠ [])
    (hitems : ∀ clause ∈ clauses, Chars.IsItem clause.toList)
    (hdeclares : List.Forall₂ (Declares origin name.base) (clauses.map Text.trim) declared) :
    Statement.read origin (clauseText name clauses) = .ok statement ↔
      name.base ≠ "" ∧ ((Declared.columns declared).map Column.name).Nodup ∧
        statement = .createTable {
          name := name
          ifNotExists := false
          columns := Declared.columns declared
          foreignKeys := (Declared.keys declared).flatMap (·.expand name.base origin.file)
          primaryKey := [] } := by
  have hfold : ∀ {text : String} {body : TableBody},
      (clauses.map Text.trim).foldlM (readClause origin text name.base) .empty = .ok body ↔
        ((Declared.columns declared).map Column.name).Nodup ∧
          body = TableBody.empty.extend (Declared.columns declared) (Declared.keys declared) :=
    foldlM_readClause_iff hdeclares List.nodup_nil
  rw [read_clauseText hne hitems]
  refine and_congr_right fun _ => ?_
  simp only [hfold]
  constructor
  · rintro ⟨body, ⟨hnodup, rfl⟩, columns, hcolumns, rfl⟩
    cases hcolumns
    exact ⟨hnodup, rfl⟩
  · rintro ⟨hnodup, rfl⟩
    exact ⟨_, ⟨hnodup, rfl⟩, _, rfl, rfl⟩

end Body

end CreateTable

end Schemata
