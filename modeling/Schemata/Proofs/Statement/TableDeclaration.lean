import Schemata.Proofs.Statement.Body
import Schemata.Proofs.Statement.ColumnDeclaration

/-!
# Declared tables

A table is declared by `CREATE TABLE`, its printed name and the declarations of its columns in
parentheses.  The text is cut into words, then the last word is opened, cut into clauses, and each
clause into words again.  Quoted names and literals with blanks, commas and parentheses in them
survive all of this, so the declaration is read as the table that it describes
(`TableDeclaration.read_declared`).

Each cut is undone by one fact: the words of the text are those that it was made of
(`TableDeclaration.words_text`), the header is read from them (`CreateTable.readHeader_ofText_iff`),
and every clause gives its column whatever columns stand before it, as long as their names differ
(`TableDeclaration.foldlM_readClause`).  A declaration carries the difference of its names, so that
the last fact applies to all of them.
-/

namespace Schemata

/-- A header is read unless the name of the table is empty.  A word without a group is the name as
it stands, and the group behind it is the body. -/
theorem CreateTable.readHeader_ofText_iff {file text word inside : String} {words : List String}
    {guarded : Bool} {header : Header} (hwords : Text.words text = "CREATE" :: "TABLE" :: words)
    (hguard : Reading.Reads (Reading.acceptAll ["if", "not", "exists"]) words guarded
      [word, "(" ++ inside ++ ")"])
    (huncut : Chars.Uncut (· == '(') .top word.toList) (hinside : Chars.Balanced inside.toList) :
    readHeader.ofText file text = .ok header ↔
      (ObjectName.read word).base ≠ "" ∧ header = ⟨ObjectName.read word, guarded, inside⟩ := by
  have hcreate : Text.isKeyword "CREATE" "create" = true := by decide
  have htable : Text.isKeyword "TABLE" "table" = true := by decide
  have hscope : ∀ first ∈ ("TABLE" :: words).head?,
      Text.isAnyKeyword first ["global", "local"] = false := by
    rintro first ⟨⟩
    decide
  have hlifetime : ∀ first ∈ ("TABLE" :: words).head?,
      Text.isAnyKeyword first ["temp", "temporary", "unlogged"] = false := by
    rintro first ⟨⟩
    decide
  have hopen : ("(" ++ inside ++ ")").toList.head? = some '(' := by
    rw [Text.toList_group]
    rfl
  have hstart : (Reader.start file text).remaining = "CREATE" :: "TABLE" :: words := hwords
  -- step by step to the name, with the words that are left after each step
  rw [Reading.ofText_eq_outcome, readHeader]
  obtain ⟨_, hleft, hrun⟩ := (Reading.reads_expectKeyword hcreate _).discard.run_bind _ hstart
  rw [hrun]
  obtain ⟨_, hleft, hrun⟩ := (Reading.reads_acceptAny_none hscope).discard.run_bind _ hleft
  rw [hrun]
  obtain ⟨_, hleft, hrun⟩ := (Reading.reads_acceptAny_none hlifetime).discard.run_bind _ hleft
  rw [hrun]
  obtain ⟨_, hleft, hrun⟩ := (Reading.reads_expectKeyword htable _).discard.run_bind _ hleft
  rw [hrun]
  obtain ⟨_, hleft, hrun⟩ := hguard.run_bind _ hleft
  rw [hrun]
  obtain ⟨_, hleft, hrun⟩ := (Reading.reads_expectWord "table name" _ _).run_bind _ hleft
  rw [hrun, Text.head_of_uncut huncut]
  dsimp only
  -- the header fails here for an empty name, and the group is opened otherwise
  by_cases hbase : (ObjectName.read word).base = ""
  · rw [hbase, if_pos (by decide)]
    constructor
    · intro hfail
      cases hfail
    · rintro ⟨hne, -⟩
      exact absurd rfl hne
  · have hsome : ¬(ObjectName.read word).base.isEmpty = true := fun hempty =>
      hbase (String.isEmpty_iff.mp hempty)
    obtain ⟨last, -, hrun⟩ := (Reading.reads_group? (Text.group?_of_uncut huncut) hopen
      (Text.group?_group hinside) []).run_bind _ hleft
    rw [if_neg hsome, hrun]
    exact ⟨fun hsame => ⟨hbase, (Except.ok.inj hsame).symm⟩, fun hsame => congrArg _ hsame.2.symm⟩

/-- A table as it is declared: a name, and columns of different names. -/
structure TableDeclaration where
  name : ObjectName
  ifNotExists : Bool
  columns : List ColumnDeclaration
  named : name.base ≠ ""
  columns_ne_nil : columns ≠ []
  distinct : (columns.map ColumnDeclaration.name).Nodup

namespace TableDeclaration

/-- The columns, with some spaces behind each comma. -/
def list (declaration : TableDeclaration) (spaces : Nat) : String :=
  (String.ofList (',' :: List.replicate spaces ' ')).intercalate
    (declaration.columns.map ColumnDeclaration.text)

def words (declaration : TableDeclaration) (spaces : Nat) : List String :=
  ["CREATE", "TABLE"] ++ (if declaration.ifNotExists then ["IF", "NOT", "EXISTS"] else []) ++
    [declaration.name.text, "(" ++ declaration.list spaces ++ ")"]

/-- The declaration as text. -/
def text (declaration : TableDeclaration) (spaces : Nat) : String :=
  Text.unwords (declaration.words spaces)

variable (declaration : TableDeclaration) (spaces : Nat)

/-! ## The text -/

theorem isListed_of_mem {clause : String}
    (hclause : clause ∈ declaration.columns.map ColumnDeclaration.text) :
    Chars.IsListed clause.toList := by
  obtain ⟨column, -, rfl⟩ := List.mem_map.mp hclause
  exact column.isListed_text

theorem balanced_list : Chars.Balanced (declaration.list spaces).toList :=
  Text.balanced_listed spaces fun _ hclause => (declaration.isListed_of_mem hclause).toBalanced

/-- The clauses of the list are the declarations of the columns. -/
theorem clauses_list :
    Text.clauses (declaration.list spaces) = declaration.columns.map ColumnDeclaration.text :=
  Text.clauses_listed spaces fun _ hclause => declaration.isListed_of_mem hclause

theorem isWord_of_mem {word : String} (hword : word ∈ declaration.words spaces) :
    Chars.IsWord word.toList := by
  have hcases : word ∈ ["CREATE", "TABLE", "IF", "NOT", "EXISTS"] ∨
      word = declaration.name.text ∨ word = "(" ++ declaration.list spaces ++ ")" := by
    grind [words]
  have hkeywords : ∀ keyword ∈ ["CREATE", "TABLE", "IF", "NOT", "EXISTS"],
      Chars.IsNameWord keyword.toList := by decide
  rcases hcases with hkeyword | rfl | rfl
  · exact (hkeywords word hkeyword).isWord
  · exact declaration.name.isWord_text
  · exact Text.isWord_group (declaration.balanced_list spaces)

theorem words_text : Text.words (declaration.text spaces) = declaration.words spaces :=
  Text.words_unwords fun _ hword => declaration.isWord_of_mem spaces hword

theorem isListed_text : Chars.IsListed (declaration.text spaces).toList :=
  Text.isListed_unwords (fun _ hword => declaration.isWord_of_mem spaces hword)
    (List.append_ne_nil_of_right_ne_nil _ (List.cons_ne_nil _ _))

theorem getLast?_text : (declaration.text spaces).toList.getLast? = some ')' := by
  have hgroup := Text.toList_group (declaration.list spaces)
  have hwords : declaration.words spaces = ["CREATE", "TABLE"] ++
      (if declaration.ifNotExists then ["IF", "NOT", "EXISTS"] else []) ++
        [declaration.name.text] ++ ["(" ++ declaration.list spaces ++ ")"] := by
    simp [words]
  rw [text, hwords, Text.getLast?_unwords_concat _ (by rw [hgroup]; exact List.cons_ne_nil _ _),
    hgroup, ← List.cons_append, List.getLast?_concat]

/-! ## The header -/

theorem uncut_name : Chars.Uncut (· == '(') .top declaration.name.text.toList :=
  ObjectName.uncut_text rfl rfl
    (fun _ hc => beq_false_of_ne (Chars.ne_of_isNameChar hc (by decide))) declaration.name

/-- The guard is read where it is written.  A table named `if` is not taken for one, since its
columns follow it. -/
theorem reads_guard :
    Reading.Reads (Reading.acceptAll ["if", "not", "exists"])
      ((if declaration.ifNotExists then ["IF", "NOT", "EXISTS"] else []) ++
        [declaration.name.text, "(" ++ declaration.list spaces ++ ")"])
      declaration.ifNotExists
      [declaration.name.text, "(" ++ declaration.list spaces ++ ")"] := by
  have hcolumns : Text.isKeyword ("(" ++ declaration.list spaces ++ ")") "not" = false := by
    rw [Text.isKeyword, Chars.head, Text.call_group (declaration.balanced_list spaces)]
    rfl
  refine Reading.reads_acceptAll_of_optional declaration.ifNotExists rfl rfl ?_
  simp [Text.startWithKeywords, hcolumns]

theorem readHeader_text (file : String) :
    CreateTable.readHeader.ofText file (declaration.text spaces) =
      .ok ⟨declaration.name, declaration.ifNotExists, declaration.list spaces⟩ := by
  have hwords : Text.words (declaration.text spaces) = "CREATE" :: "TABLE" ::
      ((if declaration.ifNotExists then ["IF", "NOT", "EXISTS"] else []) ++
        [declaration.name.text, "(" ++ declaration.list spaces ++ ")"]) := by
    rw [words_text, words, List.append_assoc]
    rfl
  refine (CreateTable.readHeader_ofText_iff hwords (declaration.reads_guard spaces)
    declaration.uncut_name (declaration.balanced_list spaces)).mpr ?_
  rw [ObjectName.read_text]
  exact ⟨declaration.named, rfl⟩

/-! ## The body -/

section Body

variable {declaration : ColumnDeclaration} {origin : Origin} {table statement : String}

/-- The body of a table that declares the columns and nothing else. -/
def body (declared : List ColumnDeclaration) (file : String) : TableBody :=
  ⟨declared.map (·.column file), [], [], []⟩

/-- Only columns of the type that the family demands are declared keys, and no arrays. -/
def KeysAllowed (family : Family) (declared : List ColumnDeclaration) : Prop :=
  ∀ declaration ∈ declared, .primaryKey ∈ declaration.marks →
    declaration.array = false ∧ declaration.type.name = family.primaryKeyType

instance (family : Family) (declared : List ColumnDeclaration) :
    Decidable (KeysAllowed family declared) :=
  inferInstanceAs (Decidable (∀ declaration ∈ declared, _ ∈ _ → _ ∧ _))

/-- One more declaration is one more column. -/
theorem readClause_text {declared : List ColumnDeclaration}
    (hkey : .primaryKey ∈ declaration.marks → declaration.array = false ∧
      declaration.type.name = origin.family.primaryKeyType)
    (hnew : declaration.name ∉ declared.map ColumnDeclaration.name) :
    CreateTable.readClause origin statement table (body declared origin.file) declaration.text =
      .ok (body (declared ++ [declaration]) origin.file) := by
  have hfree : ¬(declared.map (·.column origin.file)).any
      (·.name == (declaration.column origin.file).name) = true := by
    rw [List.any_eq_true]
    rintro ⟨column, hcolumn, hname⟩
    obtain ⟨other, hother, rfl⟩ := List.mem_map.mp hcolumn
    have hname : other.name = declaration.name := eq_of_beq hname
    exact hnew (hname ▸ List.mem_map_of_mem hother)
  have hadd : (body declared origin.file).addColumn ⟨declaration.column origin.file, none⟩ =
      .ok (body (declared ++ [declaration]) origin.file) := by
    rw [TableBody.addColumn]
    refine (if_neg hfree).trans ?_
    simp [body]
  rw [CreateTable.readClause, ColumnDeclaration.readConstraint_text, except_ok_bind]
  dsimp only
  rw [ColumnDeclaration.read_text hkey, except_ok_bind, hadd]
  rfl

theorem foldlM_readClause {declared rest : List ColumnDeclaration}
    (hkeys : KeysAllowed origin.family rest)
    (hdistinct : ((declared ++ rest).map ColumnDeclaration.name).Nodup) :
    (rest.map ColumnDeclaration.text).foldlM (CreateTable.readClause origin statement table)
        (body declared origin.file) =
      .ok (body (declared ++ rest) origin.file) := by
  induction rest generalizing declared with
  | nil =>
      rw [List.append_nil]
      rfl
  | cons declaration others ih =>
      have hkey := hkeys declaration List.mem_cons_self
      have hothers : KeysAllowed origin.family others := fun other hother =>
        hkeys other (List.mem_cons_of_mem declaration hother)
      have hnew : declaration.name ∉ declared.map ColumnDeclaration.name := by
        intro hmem
        rw [List.map_append, List.nodup_append] at hdistinct
        exact hdistinct.2.2 _ hmem _ List.mem_cons_self rfl
      have happend : declared ++ declaration :: others = declared ++ [declaration] ++ others := by
        rw [List.append_assoc, List.singleton_append]
      rw [happend] at hdistinct ⊢
      rw [List.map_cons, List.foldlM_cons, readClause_text hkey hnew, except_ok_bind,
        ih hothers hdistinct]

end Body

/-! ## The statement -/

/-- A declared table is read as the table that is declared: the name, the guard and the columns in
order, and no constraint of the table besides. -/
theorem read_declared {origin : Origin} (hkeys : KeysAllowed origin.family declaration.columns) :
    Statement.read origin (declaration.text spaces) =
      .ok (.createTable {
        name := declaration.name
        ifNotExists := declaration.ifNotExists
        columns := declaration.columns.map (·.column origin.file)
        foreignKeys := []
        primaryKey := [] }) := by
  have hkind : Statement.Kind.ofWords? (Text.words (declaration.text spaces)) =
      some .createTable := by
    rw [words_text, words]
    cases declaration.ifNotExists <;> rfl
  have hend : (declaration.text spaces).toList.getLast? ≠ some ';' := by
    rw [getLast?_text]
    decide
  -- the clauses are read as the columns they were printed from
  have hbody : (declaration.columns.map ColumnDeclaration.text).foldlM
      (CreateTable.readClause origin (declaration.text spaces) declaration.name.base) .empty =
        .ok (body declaration.columns origin.file) :=
    @foldlM_readClause _ _ _ [] _ hkeys declaration.distinct
  rw [Statement.read_eq (declaration.isListed_text spaces).toTrimmed hend hkind, Statement.readKind,
    CreateTable.read, readHeader_text, except_ok_bind]
  dsimp only
  rw [clauses_list]
  -- a body without clauses would be refused, but a declaration has a column
  split
  · rename_i hnil
    exact absurd (List.map_eq_nil_iff.mp hnil) declaration.columns_ne_nil
  · rw [hbody, except_ok_bind]
    rfl

/-- A table named as a word of the header, with a column whose name and default value hold quotes,
commas, parentheses and keywords. -/
def priceTable : TableDeclaration where
  name := ⟨some "shop.eu", "if"⟩
  ifNotExists := true
  columns :=
    [⟨"id", ⟨"uuid", .none, by decide, by decide⟩, false, [.primaryKey], by decide⟩,
      ⟨"net, \x22not\x22 (gross", ⟨"numeric", .precision 10 2, by decide, by decide⟩, true,
        [.default "it\x27s NULL), (", .notNull, .unique], by decide⟩]
  named := by decide
  columns_ne_nil := by decide
  distinct := by decide

/-- The text of the declaration. -/
def priceText : String :=
  "CREATE TABLE IF NOT EXISTS \x22shop.eu\x22.if (\x22id\x22 uuid PRIMARY KEY, " ++
    "\x22net, \x22\x22not\x22\x22 (gross\x22 numeric(10, 2)[] " ++
    "DEFAULT \x27it\x27\x27s NULL), (\x27 NOT NULL UNIQUE)"

theorem read_declared_prices :
    KeysAllowed .postgres priceTable.columns ∧
    Statement.read ⟨"1.sql", .postgres⟩ priceText =
      .ok (.createTable {
        name := ⟨some "shop.eu", "if"⟩
        ifNotExists := true
        columns :=
          [⟨"id", ⟨"uuid", none, none, none⟩, false, false, none, true, false, "1.sql", none⟩,
            ⟨"net, \x22not\x22 (gross", ⟨"numeric", none, some 10, some 2⟩, false, true,
              some "\x27it\x27\x27s NULL), (\x27", false, true, "1.sql", none⟩]
        foreignKeys := []
        primaryKey := [] }) := by
  have hkeys : KeysAllowed .postgres priceTable.columns := by decide
  have htext : priceTable.text 1 = priceText := by decide +kernel
  have hread : Statement.read ⟨"1.sql", .postgres⟩ (priceTable.text 1) = _ :=
    priceTable.read_declared 1 hkeys
  rw [htext] at hread
  rw [hread]
  exact ⟨hkeys, by decide +kernel⟩

end TableDeclaration

end Schemata
