import Schemata.Proofs.Statement.KeywordGroup

/-!
# Spaces in front of groups

A column definition may have a group right behind a keyword, as in `CHECK(price > 0)`, or with a
space between the two.  Behind `CHECK` both are read alike.  Behind `DEFAULT` they are not: a group
that touches the word makes it an unknown word, which is passed over, and there is no default value.

The two spellings are different words, so they are compared constraint by constraint.  In front of
the group both hold the same name and type, and behind it both go on with the same words; in
between, one spelling makes constraints that leave the draft alone where the other gives it a
default value.  A default value commutes with everything that may follow, except that a later one
replaces it:

* `ColumnDraft.foldl_add_withDefault`: what an earlier default value changes in the end.
* `ColumnDefinition.exists_gives_readWords`: two definitions that differ behind name and type.
* `ColumnDefinition.exists_gives_check`, `ColumnDefinition.exists_gives_default`: the two keywords.
* `GroupedColumn.read_spaced`: what a definition with the space is, given the one without.
* `GroupedColumn.not_read_spaced`: a default value that is lost.
-/

namespace Schemata

/-! ## Default values -/

/-- The draft with a default value, if it has none. -/
def ColumnDraft.withDefault (expression : String) (draft : ColumnDraft) : ColumnDraft :=
  { draft with column := { draft.column with
      defaultValue := some (draft.column.defaultValue.getD expression) } }

/-- The definition with a default value, if it has none. -/
def ColumnDefinition.withDefault (expression : String) (definition : ColumnDefinition) :
    ColumnDefinition :=
  { definition with column := { definition.column with
      defaultValue := some (definition.column.defaultValue.getD expression) } }

theorem ColumnDefinition.withDefault_eq_self_iff (expression : String)
    (definition : ColumnDefinition) :
    definition.withDefault expression = definition ↔ definition.column.defaultValue ≠ none := by
  constructor
  · intro hsame hnone
    have hvalue : some (definition.column.defaultValue.getD expression) =
        definition.column.defaultValue :=
      congrArg (fun definition => definition.column.defaultValue) hsame
    rw [hnone] at hvalue
    cases hvalue
  · intro hne
    obtain ⟨found, hfound⟩ := Option.ne_none_iff_exists'.mp hne
    rw [withDefault, hfound, Option.getD_some, ← hfound]

namespace ColumnDraft

/-- A constraint makes the same of a draft with a default value, which it may replace. -/
theorem add_withDefault (expression : String) (draft : ColumnDraft)
    (constraint : ColumnConstraint) :
    (draft.withDefault expression).add constraint =
      (draft.add constraint).withDefault expression := by
  cases constraint with
  | null =>
      rw [add, add]
      cases hkey : draft.column.primaryKey <;> simp [withDefault, hkey]
  | _ => rfl

theorem foldl_add_withDefault (expression : String) (draft : ColumnDraft)
    (constraints : List ColumnConstraint) :
    constraints.foldl add (draft.withDefault expression) =
      (constraints.foldl add draft).withDefault expression := by
  induction constraints generalizing draft with
  | nil => rfl
  | cons constraint rest ih =>
      rw [List.foldl_cons, List.foldl_cons, add_withDefault, ih]

theorem foldl_add_untracked (draft : ColumnDraft) (free : List String)
    (constraints : List ColumnConstraint) :
    (free.map (fun _ => ColumnConstraint.untracked) ++ constraints).foldl add draft =
      constraints.foldl add draft := by
  induction free with
  | nil => rfl
  | cons word others ih => exact ih

/-- A default value in front counts unless another follows, and words that are passed over in its
place leave the draft as it is. -/
theorem foldl_add_defaultValue (draft : ColumnDraft) (hnone : draft.column.defaultValue = none)
    (expression : String) (free : List String) (constraints : List ColumnConstraint) :
    (ColumnConstraint.defaultValue expression :: constraints).foldl add draft =
      ((ColumnConstraint.untracked ::
        (free.map (fun _ => ColumnConstraint.untracked) ++ constraints)).foldl add
          draft).withDefault expression := by
  have hdefault : draft.add (.defaultValue expression) = draft.withDefault expression := by
    simp only [add, withDefault, hnone, Option.getD_none]
  rw [List.foldl_cons, hdefault, foldl_add_withDefault, List.foldl_cons, foldl_add_untracked]
  rfl

end ColumnDraft

/-! ## Reading definitions with groups -/

/-- The error, as it is about another text. -/
def ParseError.inText (text : String) : ParseError → ParseError
  | malformed file _ fault => ofFault file text fault
  | error => error

namespace ColumnDefinition

open Reading

variable {origin : Origin} {table file word inside : String} {type free tail : List String}

/-- Texts whose words are read alike are read alike, but for the text in an error. -/
theorem read_of_gives {first second : String} {change : ColumnDefinition → ColumnDefinition}
    {result : Except Fault (ColumnDefinition × List String)}
    (hchange : ∀ definition, origin.checkPrimaryKey table (change definition).column =
      origin.checkPrimaryKey table definition.column)
    (hfirst : Gives (readWords origin.file) (Text.words first) result)
    (hsecond : Gives (readWords origin.file) (Text.words second)
      (result.map (Prod.map change id))) :
    read origin table second =
      ((read origin table first).mapError (ParseError.inText second)).map change := by
  rw [read, read, hfirst.ofText, hsecond.ofText]
  cases result with
  | error fault => rfl
  | ok given =>
      show (do
        origin.checkPrimaryKey table (change given.1).column
        return change given.1) =
          ((do
            origin.checkPrimaryKey table given.1.column
            return given.1).mapError (ParseError.inText second)).map change
      rw [hchange, Origin.checkPrimaryKey]
      split <;> rfl

/-- What is made of the name and the type of a column. -/
def plainColumn (file name : String) (type : List String) : Except Fault Column :=
  if type.isEmpty then .error (.missingType (Text.unquoteIdentifier name))
  else
    match ColumnType.read? (Text.unwords type) with
    | none => .error (.invalidType (Text.unwords type))
    | some found => .ok { Column.plain (Text.unquoteIdentifier name) found.dataType with
        array := found.array, createdIn := file }

theorem defaultValue_of_plainColumn {name : String} {column : Column}
    (hcolumn : plainColumn file name type = .ok column) : column.defaultValue = none := by
  unfold plainColumn at hcolumn
  split at hcolumn
  · cases hcolumn
  split at hcolumn
  · cases hcolumn
  · cases hcolumn
    rfl

/-- The name and the type are taken up to the first keyword. -/
theorem gives_readColumn (file name : String) {behind : List String}
    (htype : ∀ word ∈ type, isColumnKeyword word = false)
    (hbehind : ∀ word ∈ behind.head?, isColumnKeyword word = true) :
    Gives (readColumn file) (name :: (type ++ behind))
      ((plainColumn file name type).map fun column => (column, behind)) := by
  have hname : Gives (expectIdentifier "column name") (name :: (type ++ behind))
      (.ok (Text.unquoteIdentifier name, type ++ behind)) :=
    (isWordwise_expectIdentifier _).gives_of_reads (reads_expectIdentifier _ name _)
  refine hname.bind ((gives_takeWhile_keyword htype hbehind).bind ?_)
  unfold plainColumn
  cases type.isEmpty with
  | true => exact gives_fail _ behind
  | false =>
      cases ColumnType.read? (Text.unwords type) with
      | none => exact gives_fail _ behind
      | some found => exact gives_pure _ behind

/-- Takes the constraints of a column. -/
def readConstraints (column : Column) : Reading ColumnDefinition := do
  let constraints ← many (ColumnConstraint.read? column.name)
  return (constraints.foldl ColumnDraft.add ⟨column, none, none⟩).definition

/-- What constraints change behind name and type. -/
theorem exists_gives_readWords (file name : String)
    (htype : ∀ word ∈ type, isColumnKeyword word = false)
    {change : ColumnDefinition → ColumnDefinition} {first second : List String}
    (hfirst : ∀ word ∈ first.head?, isColumnKeyword word = true)
    (hsecond : ∀ word ∈ second.head?, isColumnKeyword word = true)
    (hconstraints : ∀ column : Column, column.defaultValue = none →
      ∃ result, Gives (readConstraints column) first result ∧
        Gives (readConstraints column) second (result.map (Prod.map change id))) :
    ∃ result, Gives (readWords file) (name :: (type ++ first)) result ∧
      Gives (readWords file) (name :: (type ++ second)) (result.map (Prod.map change id)) := by
  have hfront := gives_readColumn file name htype hfirst
  have hother := gives_readColumn file name htype hsecond
  cases hcolumn : plainColumn file name type with
  | error fault =>
      rw [hcolumn] at hfront hother
      exact ⟨.error fault, hfront.bind_error _, hother.bind_error _⟩
  | ok column =>
      rw [hcolumn] at hfront hother
      obtain ⟨result, hresult, hchanged⟩ :=
        hconstraints column (defaultValue_of_plainColumn hcolumn)
      exact ⟨result, hfront.bind hresult, hother.bind hchanged⟩

/-- A space in front of the group of `CHECK` makes no difference to the constraints. -/
theorem exists_gives_check (hword : IsSpelling "check" word)
    (hinside : Chars.Balanced inside.toList) (column : Column) (rest : List String) :
    ∃ result, Gives (readConstraints column) (Text.withGroup word inside :: rest) result ∧
      Gives (readConstraints column) (word :: Text.group inside :: rest)
        (result.map (Prod.map id id)) := by
  obtain ⟨constraints, hrest⟩ :=
    isWordwise_many (ColumnConstraint.isWordwise_read? column.name) rest
  have htouching := ColumnConstraint.gives_many_cons
    (ColumnConstraint.gives_readFrom_checkGroup hword hinside column.name rest) hrest
  have hspaced := ColumnConstraint.gives_many_cons
    (ColumnConstraint.gives_readFrom_check hword hinside column.name rest) hrest
  refine ⟨_, htouching.bind_pure _, ?_⟩
  have hboth := hspaced.bind_pure fun constraints =>
    (constraints.foldl ColumnDraft.add ⟨column, none, none⟩).definition
  cases constraints <;> exact hboth

/-- A group that touches `DEFAULT` does not make it the word `CHECK`. -/
theorem isKeyword_withGroup_check (hword : IsSpelling "default" word)
    (hinside : Chars.Balanced inside.toList) :
    Text.isKeyword (Text.withGroup word inside) "check" = false := by
  have hmem : "default" ∈ columnKeywords := by decide
  have hmap : word.toList.map Char.toLower = "default".toList.map Char.toLower := eq_of_beq hword
  rw [Text.isKeyword_withGroup hmem hword hinside, Text.isKeyword, Chars.head,
    Text.call_of_isSpelling hmem hword, Chars.sameIgnoringCase, hmap]
  decide

/-- A group that touches `DEFAULT` is no default value. -/
theorem exists_gives_default (hword : IsSpelling "default" word)
    (hinside : Chars.Balanced inside.toList) {column : Column} (hnone : column.defaultValue = none)
    (hfree : ∀ word ∈ free, isColumnKeyword word = false)
    (hlower : ∀ word ∈ free, Text.lower word ∉ columnKeywords)
    (htail : ∀ word ∈ tail.head?, isColumnKeyword word = true) :
    ∃ result, Gives (readConstraints column) (Text.withGroup word inside :: (free ++ tail)) result ∧
      Gives (readConstraints column) (word :: Text.group inside :: (free ++ tail))
        (result.map (Prod.map (withDefault (Text.unwords (Text.group inside :: free))) id)) := by
  have hcheck : ∀ word ∈ free, Text.isKeyword word "check" = false := fun word hmem =>
    Bool.eq_false_iff.mpr (List.any_eq_false.mp (hfree word hmem) "check" (by decide))
  -- both spellings go on with the constraints behind the free words
  obtain ⟨constraints, hrest⟩ :=
    isWordwise_many (ColumnConstraint.isWordwise_read? column.name) tail
  -- with the group at the word, it and every free word are unknown words and passed over
  have htouching := ColumnConstraint.gives_many_cons
    (ColumnConstraint.gives_readFrom_untracked (Text.lower_withGroup_not_mem word inside)
      (isKeyword_withGroup_check hword hinside) column.name _)
    (ColumnConstraint.gives_many_untracked
      (fun word hmem => ⟨hlower word hmem, hcheck word hmem⟩) hrest)
  -- with the space, the group and the free words are the expression
  have hspaced := ColumnConstraint.gives_many_cons
    (ColumnConstraint.gives_readFrom_default hword (Text.group inside) hfree htail column.name)
    hrest
  refine ⟨_, htouching.bind_pure _, ?_⟩
  have hboth := hspaced.bind_pure fun constraints =>
    (constraints.foldl ColumnDraft.add ⟨column, none, none⟩).definition
  cases constraints with
  | error fault => exact hboth
  | ok given =>
      obtain ⟨constraints, left⟩ := given
      have hvalue := congrArg ColumnDraft.definition (ColumnDraft.foldl_add_defaultValue
        ⟨column, none, none⟩ hnone (Text.unwords (Text.group inside :: free)) free constraints)
      have hread : Gives (readConstraints column) (word :: Text.group inside :: (free ++ tail))
          (.ok (((ColumnConstraint.defaultValue (Text.unwords (Text.group inside :: free)) ::
            constraints).foldl ColumnDraft.add ⟨column, none, none⟩).definition, left)) := hboth
      rw [hvalue] at hread
      exact hread

end ColumnDefinition

/-! ## Texts -/

/-- A column definition with a keyword and a group behind the type. -/
structure GroupedColumn where
  /-- The name of the column. -/
  name : String
  /-- The type. -/
  type : String
  /-- The word in front of the group. -/
  keyword : String
  /-- What the group holds. -/
  inside : String
  /-- What follows, as texts with spaces between them. -/
  rest : List String
  isWord_name : Chars.IsWord name.toList
  balanced_type : Chars.Balanced type.toList
  free_type : ∀ word ∈ Text.words type, isColumnKeyword word = false
  balanced_inside : Chars.Balanced inside.toList

namespace GroupedColumn

/-- The definition with the given words behind the type. -/
def text (column : GroupedColumn) (words : List String) : String :=
  Text.unwords (column.name :: column.type :: (words ++ column.rest))

/-- The definition with a group that touches the keyword. -/
def touching (column : GroupedColumn) : String :=
  column.text [Text.withGroup column.keyword column.inside]

/-- The definition with a space between keyword and group. -/
def spaced (column : GroupedColumn) : String :=
  column.text [column.keyword, Text.group column.inside]

/-- The words behind the group up to the next keyword. -/
def free (column : GroupedColumn) : List String :=
  (Text.words (Text.unwords column.rest)).takeWhile (! isColumnKeyword ·)

/-- The group and the words up to the next keyword. -/
def expression (column : GroupedColumn) : String :=
  Text.unwords (Text.group column.inside :: column.free)

variable {column : GroupedColumn} {keyword : String}

theorem words_text {words : List String} (hwords : ∀ word ∈ words, Chars.IsWord word.toList) :
    Text.words (column.text words) = column.name :: (Text.words column.type ++
      (words ++ Text.words (Text.unwords column.rest))) := by
  rw [text, Text.words_unwords_cons_of_balanced column.isWord_name.toBalanced,
    Text.words_unwords_cons_of_balanced column.balanced_type,
    Text.words_unwords_words_append hwords, Text.words_of_isWord column.isWord_name]
  rfl

theorem words_touching (hkeyword : keyword ∈ columnKeywords)
    (hword : IsSpelling keyword column.keyword) :
    Text.words column.touching = column.name :: (Text.words column.type ++
      Text.withGroup column.keyword column.inside :: Text.words (Text.unwords column.rest)) :=
  words_text (List.forall_mem_singleton.mpr
    (Text.isWord_withGroup hkeyword hword column.balanced_inside))

theorem words_spaced (hkeyword : keyword ∈ columnKeywords)
    (hword : IsSpelling keyword column.keyword) :
    Text.words column.spaced = column.name :: (Text.words column.type ++
      column.keyword :: Text.group column.inside :: Text.words (Text.unwords column.rest)) :=
  words_text (List.forall_mem_cons.mpr ⟨Text.isWord_of_isSpelling hkeyword hword,
    List.forall_mem_singleton.mpr (Text.isWord_group column.balanced_inside)⟩)

/-! ### Both spellings -/

/-- A space in front of the group of `CHECK` makes no difference. -/
theorem read_spaced_check (hcheck : IsSpelling "check" column.keyword) (origin : Origin)
    (table : String) :
    ColumnDefinition.read origin table column.spaced =
      (ColumnDefinition.read origin table column.touching).mapError
        (ParseError.inText column.spaced) := by
  have hmem : "check" ∈ columnKeywords := by decide
  have hkeyword := Text.isColumnKeyword_of_isSpelling hmem hcheck
  obtain ⟨result, htouching, hspaced⟩ :=
    ColumnDefinition.exists_gives_readWords origin.file column.name column.free_type
      (by simpa using Text.isColumnKeyword_withGroup hmem hcheck column.balanced_inside)
      (by simpa using hkeyword)
      fun plain _ => ColumnDefinition.exists_gives_check hcheck column.balanced_inside plain
        (Text.words (Text.unwords column.rest))
  rw [← words_touching hmem hcheck] at htouching
  rw [← words_spaced hmem hcheck] at hspaced
  rw [ColumnDefinition.read_of_gives (fun _ => rfl) htouching hspaced]
  cases ColumnDefinition.read origin table column.touching <;> rfl

/-- A group that touches `DEFAULT` is passed over with the words behind it, and a group behind it
starts the default value. -/
theorem read_spaced_default (hdefault : IsSpelling "default" column.keyword)
    (hfree : ∀ word ∈ column.free, Text.lower word ∉ columnKeywords) (origin : Origin)
    (table : String) :
    ColumnDefinition.read origin table column.spaced =
      ((ColumnDefinition.read origin table column.touching).mapError
        (ParseError.inText column.spaced)).map
          (ColumnDefinition.withDefault column.expression) := by
  have hmem : "default" ∈ columnKeywords := by decide
  have hkeyword := Text.isColumnKeyword_of_isSpelling hmem hdefault
  -- what follows the group, cut at the first keyword: the free words belong to the expression
  let words := Text.words (Text.unwords column.rest)
  have hfirst : ∀ word ∈ column.free, isColumnKeyword word = false := by
    intro word hword
    simpa using List.all_eq_true.mp List.all_takeWhile word hword
  have htail : ∀ word ∈ (words.dropWhile (! isColumnKeyword ·)).head?,
      isColumnKeyword word = true := by
    intro word hword
    have hnot := List.head?_dropWhile_not (! isColumnKeyword ·) words
    rw [Option.mem_def.mp hword] at hnot
    simpa using hnot
  obtain ⟨result, htouching, hspaced⟩ :=
    ColumnDefinition.exists_gives_readWords origin.file column.name column.free_type
      (by simpa using Text.isColumnKeyword_withGroup hmem hdefault column.balanced_inside)
      (by simpa using hkeyword)
      fun plain hnone => ColumnDefinition.exists_gives_default hdefault column.balanced_inside hnone
        hfirst hfree htail
  have hwords : column.free ++ words.dropWhile (! isColumnKeyword ·) = words :=
    List.takeWhile_append_dropWhile
  rw [hwords, ← words_touching hmem hdefault] at htouching
  rw [hwords, ← words_spaced hmem hdefault] at hspaced
  exact ColumnDefinition.read_of_gives (fun _ => rfl) htouching hspaced

/-- A space in front of the group of `CHECK` makes no difference.  A group that touches `DEFAULT` is
no default value, so that the definition has one only if another follows: with the space it has the
group, and the words behind it, in its place.  Both spellings are read alike just when a default
value follows or the text is refused. -/
theorem read_spaced (column : GroupedColumn) (origin : Origin) (table : String) :
    (IsSpelling "check" column.keyword →
      ColumnDefinition.read origin table column.spaced =
        (ColumnDefinition.read origin table column.touching).mapError
          (ParseError.inText column.spaced)) ∧
      (IsSpelling "default" column.keyword →
        (∀ word ∈ column.free, Text.lower word ∉ columnKeywords) →
        ColumnDefinition.read origin table column.spaced =
            ((ColumnDefinition.read origin table column.touching).mapError
              (ParseError.inText column.spaced)).map
                (ColumnDefinition.withDefault column.expression) ∧
          (ColumnDefinition.read origin table column.spaced =
              (ColumnDefinition.read origin table column.touching).mapError
                (ParseError.inText column.spaced) ↔
            ∀ definition, ColumnDefinition.read origin table column.touching = .ok definition →
              definition.column.defaultValue ≠ none)) ∧
      (column.free = [] → column.expression = "(" ++ column.inside ++ ")") := by
  refine ⟨fun hcheck => read_spaced_check hcheck origin table, fun hdefault hfree => ?_,
    fun hnil => ?_⟩
  · have hspaced := read_spaced_default hdefault hfree origin table
    refine ⟨hspaced, ?_⟩
    -- the two agree where giving a default value changes nothing: there is one already
    rw [hspaced]
    cases ColumnDefinition.read origin table column.touching with
    | error error => simp [Except.mapError, Except.map]
    | ok definition =>
        have hsame := ColumnDefinition.withDefault_eq_self_iff column.expression definition
        simpa [Except.mapError, Except.map] using hsame
  · rw [expression, hnil]
    rfl

/-- `a int`, a keyword and the group `(1)`. -/
def ofKeyword (keyword : String) (rest : List String) : GroupedColumn where
  name := "a"
  type := "int"
  keyword := keyword
  inside := "1"
  rest := rest
  isWord_name := Chars.IsNameWord.isWord (by decide)
  balanced_type := (Chars.IsNameWord.isWord (by decide)).toBalanced
  free_type := by decide
  balanced_inside := (Chars.IsNameWord.isWord (by decide)).toBalanced

/-- The default value `(1)` behind `DEFAULT`, and a condition that is not kept. -/
theorem read_spaced_unique :
    (∃ definition,
      ColumnDefinition.read ⟨"0001.sql", .postgres⟩ "t" "a int DEFAULT(1) UNIQUE" =
        .ok definition ∧
      ColumnDefinition.read ⟨"0001.sql", .postgres⟩ "t" "a int DEFAULT (1) UNIQUE" =
        .ok (definition.withDefault "(1)") ∧ definition.column.defaultValue = none) ∧
      ColumnDefinition.read ⟨"0001.sql", .postgres⟩ "t" "a int check (1) UNIQUE" =
        (ColumnDefinition.read ⟨"0001.sql", .postgres⟩ "t" "a int check(1) UNIQUE").mapError
          (ParseError.inText "a int check (1) UNIQUE") := by
  have hdefault := (read_spaced (ofKeyword "DEFAULT" ["UNIQUE"]) ⟨"0001.sql", .postgres⟩ "t").2.1
    (by decide) (by decide)
  have hcheck := (read_spaced (ofKeyword "check" ["UNIQUE"]) ⟨"0001.sql", .postgres⟩ "t").1
    (by decide)
  let definition : ColumnDefinition :=
    ⟨{ Column.plain "a" ⟨"int", none, none, none⟩ with unique := true, createdIn := "0001.sql" },
      none⟩
  have htouching : ColumnDefinition.read ⟨"0001.sql", .postgres⟩ "t"
      (ofKeyword "DEFAULT" ["UNIQUE"]).touching = .ok definition := by decide +kernel
  rw [htouching] at hdefault
  exact ⟨⟨definition, htouching, hdefault.1, rfl⟩, hcheck⟩

/-- A space in front of the group of `DEFAULT` makes the group the default value. -/
theorem not_read_spaced :
    ¬ ∀ (column : GroupedColumn) (origin : Origin) (table : String),
      IsSpelling "check" column.keyword ∨ IsSpelling "default" column.keyword →
      ColumnDefinition.read origin table column.spaced =
        (ColumnDefinition.read origin table column.touching).mapError
          (ParseError.inText column.spaced) := by
  intro hall
  have hsame := hall (ofKeyword "DEFAULT" []) ⟨"0001.sql", .postgres⟩ "t" (Or.inr (by decide))
  exact absurd hsame (by decide +kernel)

end GroupedColumn

end Schemata
