import Schemata.Proofs.DataType
import Schemata.Proofs.Outcome
import Schemata.Proofs.Reader
import Schemata.Statement.ColumnDefinition
import Schemata.Statement.TableConstraint

/-!
# Declared columns

A column is declared by its name in quotes, a type of one word and constraints in any order.  Name
and default value may hold any characters: they are in quotes, so each stays one word, and neither
is taken for a keyword.

Constraints may repeat here, and what several of them make of a column is said at once
(`ColumnMark.foldl_add`): flags are set when one of them sets them, and the last default value
counts.  The type has to be told from a keyword, because a column ends its type at the first one; it
is, since the name of a type in lower case is compared letter by letter
(`OneWordType.head_written`).

* `ColumnDeclaration.read_text`: a declaration is read as the column it describes.
* `ColumnDeclaration.readConstraint_text`: it is not taken for a constraint of the table.
-/

namespace Schemata

/-! ## Words in quotes -/

namespace Text

/-- A text in quotes, with the quotes in it doubled. -/
def quoted (quote : Char) (text : String) : String :=
  String.ofList (Chars.quoted quote text.toList)

theorem isWord_quoted {quote : Char} (hquote : Nesting.isQuote quote = true) (text : String) :
    Chars.IsWord (quoted quote text).toList := by
  rw [quoted, String.toList_ofList]
  exact ⟨Chars.whole_quoted hquote text.toList, List.cons_ne_nil _ _⟩

/-- Whatever a name holds, it is read back from its quotes. -/
theorem unquoteIdentifier_quoted (name : String) :
    unquoteIdentifier (quoted '\x22' name) = name := by
  have hwhole : Chars.Whole (Chars.quoted '\x22' name.toList) := Chars.whole_quoted rfl name.toList
  rw [unquoteIdentifier, quoted, String.toList_ofList, Chars.unquoteIdentifier, hwhole.trim_eq,
    Chars.quoted, Chars.between?_append]
  dsimp only
  rw [Chars.undouble_double, String.ofList_toList]

theorem getLast?_quoted (quote : Char) (text : String) :
    (quoted quote text).toList.getLast? = some quote := by
  rw [quoted, String.toList_ofList, Chars.quoted, ← List.cons_append, List.getLast?_concat]

/-- A name in quotes holds no group of its own. -/
theorem uncut_quoted (name : String) :
    Chars.Uncut (· == '(') .top (quoted '\x22' name).toList := by
  rw [quoted, String.toList_ofList]
  exact ⟨rfl, (Chars.uncut_double rfl rfl name.toList).1⟩

/-- A name in quotes is no keyword. -/
theorem isKeyword_quoted (name : String) {keyword : String}
    (hkeyword : Chars.isBare (keyword.toList.map Char.toLower) = true) :
    isKeyword (quoted '\x22' name) keyword = false := by
  refine isKeyword_eq_false (c := '\x22') (uncut_quoted name) hkeyword ?_ (by decide)
  rw [quoted, String.toList_ofList]
  exact List.mem_cons_self

end Text

/-! ## Declarations -/

/-- A constraint as it is written behind the type of a column. -/
inductive ColumnMark where
  | notNull
  | unique
  | primaryKey
  | default (literal : String)
  deriving DecidableEq, Repr

namespace ColumnMark

/-- The words of the constraint. -/
def words : ColumnMark → List String
  | notNull => ["NOT", "NULL"]
  | unique => ["UNIQUE"]
  | primaryKey => ["PRIMARY", "KEY"]
  | default literal => ["DEFAULT", Text.quoted '\x27' literal]

/-- The default value as written. -/
def default? : ColumnMark → Option String
  | default literal => some (Text.quoted '\x27' literal)
  | _ => none

end ColumnMark

/-- A column as it is declared in a table. -/
structure ColumnDeclaration where
  name : String
  type : OneWordType
  array : Bool
  marks : List ColumnMark
  free : type.name ∉ columnKeywords

namespace ColumnDeclaration

def words (declaration : ColumnDeclaration) : List String :=
  Text.quoted '\x22' declaration.name :: declaration.type.written declaration.array ::
    declaration.marks.flatMap ColumnMark.words

/-- The declaration as text. -/
def text (declaration : ColumnDeclaration) : String :=
  Text.unwords declaration.words

/-- The column that is declared.  Of several default values the last counts. -/
def column (declaration : ColumnDeclaration) (file : String) : Column :=
  { name := declaration.name
    dataType := declaration.type.dataType
    nullable := !(declaration.marks.contains .notNull || declaration.marks.contains .primaryKey)
    array := declaration.array
    defaultValue := (declaration.marks.filterMap ColumnMark.default?).getLast?
    primaryKey := declaration.marks.contains .primaryKey
    unique := declaration.marks.contains .unique
    createdIn := file
    modifiedIn := none }

end ColumnDeclaration

/-! ## Reading constraints -/

namespace ColumnConstraint

open Reading

variable {column : String} {rest : List String}

/-- A constraint is read from its first word on. -/
theorem reads_read?_cons {word : String} {words : List String} {constraint : ColumnConstraint}
    (hfrom : Reads (readFrom column word) words constraint rest) :
    Reads (read? column) (word :: words) (some constraint) rest :=
  (reads_next?_cons word words).bind (hfrom.bind (reads_pure _ _))

theorem reads_readFrom_notNull (column : String) (rest : List String) :
    Reads (readFrom column "NOT") ("NULL" :: rest) .notNull rest := by
  have hlower : Text.lower "NOT" = "not" := by decide
  have hnull : Text.isKeyword "NULL" "null" = true := by decide
  rw [readFrom, hlower]
  exact (reads_expectKeyword hnull _).discard.bind (reads_pure _ _)

theorem reads_readFrom_unique (column : String) (rest : List String) :
    Reads (readFrom column "UNIQUE") rest .unique rest := by
  have hlower : Text.lower "UNIQUE" = "unique" := by decide
  rw [readFrom, hlower]
  exact reads_pure _ _

theorem reads_readFrom_primaryKey (column : String) (rest : List String) :
    Reads (readFrom column "PRIMARY") ("KEY" :: rest) .primaryKey rest := by
  have hlower : Text.lower "PRIMARY" = "primary" := by decide
  have hkey : Text.isKeyword "KEY" "key" = true := by decide
  rw [readFrom, hlower]
  exact (reads_expectKeyword hkey _).discard.bind (reads_pure _ _)

/-- A default value is one word, if a keyword follows it. -/
theorem reads_readFrom_default (column value : String)
    (hrest : ∀ word ∈ rest.head?, isColumnKeyword word = true) :
    Reads (readFrom column "DEFAULT") (value :: rest) (.defaultValue value) rest := by
  have hlower : Text.lower "DEFAULT" = "default" := by decide
  have hstop : ∀ word ∈ rest.head?, (!isColumnKeyword word) = false := by
    intro word hword
    rw [hrest word hword]
    rfl
  have hnone : ∀ word ∈ ([] : List String), (!isColumnKeyword word) = true :=
    fun _ hword => nomatch hword
  rw [readFrom, hlower]
  exact (reads_expectWord _ _ _).bind ((reads_takeWhile hnone hstop).bind (reads_pure _ _))

end ColumnConstraint

namespace ColumnMark

open ColumnConstraint (reads_read?_cons reads_readFrom_notNull reads_readFrom_unique
  reads_readFrom_primaryKey reads_readFrom_default)

/-- The constraint that is read from the words. -/
def constraint : ColumnMark → ColumnConstraint
  | notNull => .notNull
  | unique => .unique
  | primaryKey => .primaryKey
  | default literal => .defaultValue (Text.quoted '\x27' literal)

theorem isWord_of_mem {mark : ColumnMark} {word : String} (hword : word ∈ mark.words) :
    Chars.IsWord word.toList := by
  have hcases : word ∈ ["NOT", "NULL", "UNIQUE", "PRIMARY", "KEY", "DEFAULT"] ∨
      ∃ literal, word = Text.quoted '\x27' literal := by
    cases mark <;> grind [words]
  have hkeywords : ∀ keyword ∈ ["NOT", "NULL", "UNIQUE", "PRIMARY", "KEY", "DEFAULT"],
      Chars.IsNameWord keyword.toList := by decide
  rcases hcases with hkeyword | ⟨literal, rfl⟩
  · exact (hkeywords word hkeyword).isWord
  · exact Text.isWord_quoted rfl literal

/-- The first word of a constraint ends what stands before it. -/
theorem isColumnKeyword_of_mem_head? {marks : List ColumnMark} {word : String}
    (hword : word ∈ (marks.flatMap words).head?) : isColumnKeyword word = true := by
  cases marks with
  | nil => cases hword
  | cons mark others =>
      cases mark <;> cases hword <;> decide

/-- A constraint in front of others is taken, and they are left. -/
theorem reads_read? (column : String) (mark : ColumnMark) (others : List ColumnMark) :
    Reading.Reads (ColumnConstraint.read? column) (mark.words ++ others.flatMap words)
      (some mark.constraint) (others.flatMap words) := by
  cases mark with
  | notNull => exact reads_read?_cons (reads_readFrom_notNull column _)
  | unique => exact reads_read?_cons (reads_readFrom_unique column _)
  | primaryKey => exact reads_read?_cons (reads_readFrom_primaryKey column _)
  | default literal =>
      exact reads_read?_cons
        (reads_readFrom_default column _ fun _ => isColumnKeyword_of_mem_head?)

theorem words_ne_nil (mark : ColumnMark) : mark.words ≠ [] := by
  cases mark <;> exact List.cons_ne_nil _ _

/-- What constraints make of a column. -/
theorem foldl_add (marks : List ColumnMark) (column : Column) :
    (marks.map constraint).foldl ColumnDraft.add ⟨column, none, none⟩ =
      ⟨{ column with
          nullable := column.nullable && !(marks.contains .notNull || marks.contains .primaryKey)
          defaultValue := (marks.filterMap default?).getLast?.or column.defaultValue
          primaryKey := column.primaryKey || marks.contains .primaryKey
          unique := column.unique || marks.contains .unique }, none, none⟩ := by
  -- on the constraints, with the column free: each is put on a column that has the earlier ones
  induction marks generalizing column with
  | nil => simp
  | cons mark others ih =>
      rw [List.map_cons, List.foldl_cons]
      cases mark with
      | notNull =>
          refine (ih { column with nullable := false }).trans ?_
          simp [default?]
      | unique =>
          refine (ih { column with unique := true }).trans ?_
          simp [default?]
      | primaryKey =>
          refine (ih column.asPrimaryKey).trans ?_
          simp [default?, Column.asPrimaryKey]
      | default literal =>
          refine (ih { column with defaultValue := some (Text.quoted '\x27' literal) }).trans ?_
          simp [default?, List.getLast?_cons]

end ColumnMark

/-! ## Reading declarations -/

/-- A type is compared with keywords by its name. -/
theorem OneWordType.head_written (type : OneWordType) (array : Bool) :
    Chars.head (type.written array).toList = type.name.toList ∨
      Chars.head (type.written array).toList = type.name.toList ++ ['[', ']'] := by
  have hrun : Nesting.top.run type.name.toList = .top :=
    Chars.run_of_nameChars type.isNameChar_name
  rw [toList_written]
  rcases type.text_cases with ⟨-, htext⟩ | ⟨-, htext⟩
  · rw [htext]
    cases array with
    | false =>
        rw [if_neg Bool.false_ne_true, List.append_nil]
        exact Or.inl (Chars.head_of_uncut type.uncut_name)
    | true =>
        refine Or.inr (Chars.head_of_uncut ?_)
        rw [Chars.uncut_append, hrun]
        exact ⟨type.uncut_name, rfl, rfl, trivial⟩
  · left
    rw [htext, List.append_assoc, List.cons_append, List.append_assoc, Chars.head,
      List.singleton_append, Chars.call_group type.uncut_name hrun type.sizes.balanced_chars]
    exact Chars.trimEnd_eq_self (Chars.whole_of_nameChars type.isNameChar_name).last

namespace ColumnDeclaration

variable (declaration : ColumnDeclaration)

theorem not_isColumnKeyword_type :
    isColumnKeyword (declaration.type.written declaration.array) = false := by
  have hkeywords : ∀ keyword ∈ columnKeywords,
      keyword.toList.map Char.toLower = keyword.toList ∧
        Chars.isBare (keyword.toList.map Char.toLower) = true := by decide
  rw [isColumnKeyword, Text.isAnyKeyword, List.any_eq_false]
  intro keyword hmem hsame
  obtain ⟨hlower, hbare⟩ := hkeywords keyword hmem
  -- what is compared is the name of the type, with brackets behind it if there are no sizes
  rcases declaration.type.head_written declaration.array with hhead | hhead
  · rw [Text.isKeyword, hhead] at hsame
    have hname : declaration.type.name.toList.map Char.toLower = declaration.type.name.toList :=
      calc declaration.type.name.toList.map Char.toLower
          = declaration.type.name.toList.map id :=
            List.map_congr_left declaration.type.toLower_name
        _ = declaration.type.name.toList := List.map_id _
    have hsame : declaration.type.name.toList.map Char.toLower = keyword.toList.map Char.toLower :=
      eq_of_beq hsame
    rw [hname, hlower] at hsame
    exact declaration.free (String.toList_inj.mp hsame ▸ hmem)
  · -- Brackets are in no keyword.
    rw [Text.isKeyword, hhead] at hsame
    have hbrackets := Chars.isNameChar_of_isBare (Chars.isBare_of_sameIgnoringCase hbare hsame) '['
      (List.mem_append_right _ List.mem_cons_self)
    cases hbrackets

theorem isWord_of_mem {word : String} (hword : word ∈ declaration.words) :
    Chars.IsWord word.toList := by
  rcases List.mem_cons.mp hword with rfl | hword
  · exact Text.isWord_quoted rfl declaration.name
  rcases List.mem_cons.mp hword with rfl | hword
  · exact declaration.type.isWord_written declaration.array
  · obtain ⟨mark, -, hmark⟩ := List.mem_flatMap.mp hword
    exact ColumnMark.isWord_of_mem hmark

theorem words_text : Text.words declaration.text = declaration.words :=
  Text.words_unwords fun _ hword => declaration.isWord_of_mem hword

/-- A declaration is one clause of a list. -/
theorem isListed_text : Chars.IsListed declaration.text.toList :=
  Text.isListed_unwords (fun _ hword => declaration.isWord_of_mem hword) (List.cons_ne_nil _ _)

/-- The column before its constraints are put on it. -/
def plainColumn (file : String) : Column :=
  { Column.plain declaration.name declaration.type.dataType with
    array := declaration.array, createdIn := file }

theorem reads_readColumn (file : String) :
    Reading.Reads (ColumnDefinition.readColumn file) declaration.words
      (declaration.plainColumn file) (declaration.marks.flatMap ColumnMark.words) := by
  refine (Reading.reads_expectIdentifier _ _ _).bind ?_
  rw [Text.unquoteIdentifier_quoted]
  have htype : ∀ word ∈ [declaration.type.written declaration.array],
      (!isColumnKeyword word) = true := by
    intro word hword
    obtain rfl := List.mem_singleton.mp hword
    rw [declaration.not_isColumnKeyword_type]
    rfl
  have hstop : ∀ word ∈ (declaration.marks.flatMap ColumnMark.words).head?,
      (!isColumnKeyword word) = false := by
    intro word hword
    rw [ColumnMark.isColumnKeyword_of_mem_head? hword]
    rfl
  refine (Reading.reads_takeWhile htype hstop).bind ?_
  have hunwords : Text.unwords [declaration.type.written declaration.array] =
      declaration.type.written declaration.array := rfl
  rw [List.isEmpty_cons, if_neg Bool.false_ne_true, hunwords, declaration.type.read?_written]
  exact Reading.reads_pure _ _

theorem reads_readWords (file : String) :
    Reading.Reads (ColumnDefinition.readWords file) declaration.words
      ⟨declaration.column file, none⟩ [] := by
  refine (declaration.reads_readColumn file).bind ?_
  have hmarks : Reading.Reads (Reading.many (ColumnConstraint.read? declaration.name))
      (declaration.marks.flatMap ColumnMark.words) (declaration.marks.map ColumnMark.constraint)
      [] :=
    Reading.reads_many (ColumnMark.reads_read? declaration.name)
      (Reading.reads_next?_nil.bind (Reading.reads_pure none [])) ColumnMark.words_ne_nil
      declaration.marks
  have hcolumn : ((declaration.marks.map ColumnMark.constraint).foldl ColumnDraft.add
      ⟨declaration.plainColumn file, none, none⟩).definition = ⟨declaration.column file, none⟩ := by
    rw [ColumnMark.foldl_add]
    simp [ColumnDraft.definition, column, plainColumn, Column.plain]
  rw [← hcolumn]
  exact hmarks.bind (Reading.reads_pure _ [])

variable {declaration}

/-- A declaration is read as its column, if that may be a key where it is declared one. -/
theorem read_text {origin : Origin}
    (hkey : .primaryKey ∈ declaration.marks → declaration.array = false ∧
      declaration.type.name = origin.family.primaryKeyType) (table : String) :
    ColumnDefinition.read origin table declaration.text =
      .ok ⟨declaration.column origin.file, none⟩ := by
  have haccepts : origin.family.accepts (declaration.column origin.file) = true := by
    by_cases hmark : .primaryKey ∈ declaration.marks
    · obtain ⟨harray, hname⟩ := hkey hmark
      have hfamily : declaration.type.dataType.name = declaration.type.name := by
        unfold OneWordType.dataType
        cases declaration.type.sizes <;> rfl
      simp [Family.accepts, column, harray, hfamily, hname]
    · simp [Family.accepts, column, hmark]
  have hwords := declaration.reads_readWords origin.file
  rw [← declaration.words_text] at hwords
  rw [ColumnDefinition.read, hwords.ofText, except_ok_bind, Origin.checkPrimaryKey, if_pos haccepts]
  rfl

/-- A declaration is not taken for a constraint of the table. -/
theorem readConstraint_text (origin : Origin) :
    TableConstraint.read? origin declaration.text = .ok none := by
  have hwords : Text.words declaration.text = declaration.words := declaration.words_text
  -- the first word is in quotes and no keyword
  have hnot : ∀ keyword ∈ ["constraint", "primary", "foreign", "unique", "check", "exclude"],
      ∀ reader : Reader, reader.remaining = declaration.words → reader.nextIs keyword = false := by
    have hbare : ∀ keyword ∈ ["constraint", "primary", "foreign", "unique", "check", "exclude"],
        Chars.isBare (keyword.toList.map Char.toLower) = true := by decide
    intro keyword hkeyword reader hreader
    rw [Reader.nextIs, Reader.peek, hreader]
    exact Text.isKeyword_quoted declaration.name (hbare keyword hkeyword)
  have hreads : Reading.Reads TableConstraint.readWords? declaration.words none
      declaration.words := by
    have hname : Reading.Reads TableConstraint.readName? declaration.words none
        declaration.words := by
      intro reader hreader
      refine ⟨reader, ?_, hreader⟩
      rw [TableConstraint.readName?, Reading.run_accept_else,
        hnot "constraint" (by decide) reader hreader]
      rfl
    refine hname.bind (Reading.reads_get_bind fun reader hreader => ?_)
    rw [hnot "primary" (by decide) reader hreader, hnot "foreign" (by decide) reader hreader,
      hnot "unique" (by decide) reader hreader, hnot "check" (by decide) reader hreader,
      hnot "exclude" (by decide) reader hreader]
    exact Reading.reads_pure none _
  rw [← hwords] at hreads
  exact hreads.ofText origin.file

end ColumnDeclaration

end Schemata
