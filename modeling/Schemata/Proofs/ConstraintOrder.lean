import Schemata.Proofs.Statement.KeywordGroup
import Schemata.Proofs.Statement.ReferenceClause

/-!
# The order of constraints

The constraints behind the type of a column may stand in any order, as long as each kind of them
stands there once at most.  Every constraint starts with a keyword that nothing in front of it can
take, so that all orders are read as the same constraints, and constraints of different kinds
change the column independently of one another: `NULL` gives way to `PRIMARY KEY` on either side.

The reader goes from left to right, so that there are two things to show.  Reading one constraint
takes its words and no more, whatever constraint comes next: a default value goes on up to a keyword
and a reference looks for options, and every constraint starts with a word that ends both.  And a
permutation changes the list that is folded into the column, which is a matter of two neighbours
when every two of different kinds commute (`List.Perm.foldl_eq'`).  `NULL` and `NOT NULL` do not
commute, and count as one kind.

* `DeclaredConstraint.reads_read?`: a constraint in front of others.
* `DeclaredConstraint.add_comm`: constraints of two kinds may change places.
* `ConstrainedColumn.read_of_perm`: the definition is the same in every order.
-/

namespace Schemata

open Reading

theorem Reading.Gives.reads {α : Type} {action : Reading α} {words rest : List String} {value : α}
    (hgives : Gives action words (.ok (value, rest))) : Reads action words value rest := by
  rintro ⟨file, text, taken, remaining⟩ rfl
  obtain ⟨count, hrun⟩ := hgives.2 file text taken
  exact ⟨_, hrun, rfl⟩

/-! ## Constraints as written -/

/-- What a constraint is about.  `NULL` and `NOT NULL` are about the same. -/
inductive ConstraintKind where
  | nullability
  | uniqueness
  | primaryKey
  | defaultValue
  | reference
  | condition
  | collation
  deriving DecidableEq, Repr

/-- A constraint as it is written behind the type of a column. -/
inductive DeclaredConstraint where
  | null
  | notNull
  | unique
  | primaryKey
  | default (value : String)
  | references (written : WrittenReference) (hnamed : written.target.base ≠ "")
  /-- A condition in parentheses, which touch the keyword or stand behind it. -/
  | check (expression : String) (attached : Bool) (hbalanced : Chars.Balanced expression.toList)
  | collate (collation : String)

namespace DeclaredConstraint

def kind : DeclaredConstraint → ConstraintKind
  | null => .nullability
  | notNull => .nullability
  | unique => .uniqueness
  | primaryKey => .primaryKey
  | default _ => .defaultValue
  | references _ _ => .reference
  | check _ _ _ => .condition
  | collate _ => .collation

/-- The words of the constraint. -/
def words : DeclaredConstraint → List String
  | null => ["NULL"]
  | notNull => ["NOT", "NULL"]
  | unique => ["UNIQUE"]
  | primaryKey => ["PRIMARY", "KEY"]
  | default value => ["DEFAULT", value]
  | references written _ => "REFERENCES" :: written.words
  | check expression attached _ =>
      if attached then [Text.withGroup "CHECK" expression] else ["CHECK", Text.group expression]
  | collate collation => ["COLLATE", collation]

/-- The constraint that is read from the words. -/
def constraint : DeclaredConstraint → ColumnConstraint
  | null => .null
  | notNull => .notNull
  | unique => .unique
  | primaryKey => .primaryKey
  | default value => .defaultValue value
  | references written _ => .references written.reference.orId
  | check _ _ _ => .untracked
  | collate _ => .untracked

/-- The keyword that the constraint starts with. -/
def keyword : DeclaredConstraint → String
  | null => "NULL"
  | notNull => "NOT"
  | unique => "UNIQUE"
  | primaryKey => "PRIMARY"
  | default _ => "DEFAULT"
  | references _ _ => "REFERENCES"
  | check _ _ _ => "CHECK"
  | collate _ => "COLLATE"

/-! ## The first word of a constraint -/

/-- The keywords that start constraints. -/
def keywords : List String :=
  ["NULL", "NOT", "UNIQUE", "PRIMARY", "DEFAULT", "REFERENCES", "CHECK", "COLLATE"]

theorem keyword_mem (declared : DeclaredConstraint) : declared.keyword ∈ keywords := by
  cases declared <;> simp [keyword, keywords]

/-- The keywords end a type or a value, open no group and start no option of a reference. -/
theorem keywords_comparisons : ∀ keyword ∈ keywords,
    isColumnKeyword keyword = true ∧ (keyword.toList.head? == some '(') = false ∧
      (∀ option ∈ ["on", "match", "initially", "deferrable"],
        Text.isKeyword keyword option = false) ∧
      (Text.isKeyword keyword "not" = true → keyword = "NOT") := by
  decide

/-- The first word of a constraint is compared as its keyword is, and opens no group. -/
theorem exists_words (declared : DeclaredConstraint) : ∃ word behind,
    declared.words = word :: behind ∧
      (∀ other, Text.isKeyword word other = Text.isKeyword declared.keyword other) ∧
      (word.toList.head? == some '(') = false := by
  have hclosed : ∀ keyword ∈ keywords, (keyword.toList.head? == some '(') = false :=
    fun keyword hkeyword => (keywords_comparisons keyword hkeyword).2.1
  cases declared with
  | check expression attached hbalanced =>
      cases attached with
      | false => exact ⟨"CHECK", _, rfl, fun _ => rfl, hclosed "CHECK" (by decide)⟩
      | true =>
          have hmem : "check" ∈ columnKeywords := by decide
          have hspelling : IsSpelling "check" "CHECK" := by decide
          refine ⟨Text.withGroup "CHECK" expression, [], rfl,
            Text.isKeyword_withGroup hmem hspelling hbalanced, ?_⟩
          rw [Text.toList_withGroup]
          exact hclosed "CHECK" (by decide)
  | _ => exact ⟨_, _, rfl, fun _ => rfl, hclosed _ (by decide)⟩

theorem words_ne_nil (declared : DeclaredConstraint) : declared.words ≠ [] := by
  obtain ⟨word, behind, hwords, -⟩ := declared.exists_words
  exact hwords ▸ List.cons_ne_nil word behind

/-- Behind `NOT` stands `NULL`. -/
theorem startWithKeywords_words (declared : DeclaredConstraint) (rest : List String) :
    Text.startWithKeywords (declared.words ++ rest) ["not", "deferrable"] = false := by
  obtain ⟨first, behind, hwords, hsame, -⟩ := declared.exists_words
  cases hnot : Text.isKeyword declared.keyword "not" with
  | false => rw [hwords, List.cons_append, Text.startWithKeywords, hsame, hnot, Bool.false_and]
  | true =>
      have hkeyword := (keywords_comparisons _ declared.keyword_mem).2.2.2 hnot
      cases declared with
      | notNull =>
          have hnull : Text.isKeyword "NULL" "deferrable" = false := by decide
          show (_ && (Text.isKeyword "NULL" "deferrable" && _)) = false
          rw [hnull, Bool.false_and, Bool.and_false]
      | _ => simp [keyword] at hkeyword

variable {others : List DeclaredConstraint}

/-- The first word of a constraint ends what stands before it. -/
theorem isColumnKeyword_of_mem_head? {word : String} (hword : word ∈ (others.flatMap words).head?) :
    isColumnKeyword word = true := by
  cases others with
  | nil => cases hword
  | cons declared rest =>
      obtain ⟨first, behind, hwords, hsame, -⟩ := declared.exists_words
      rw [List.flatMap_cons, hwords] at hword
      cases hword
      have hkeyword := (keywords_comparisons _ declared.keyword_mem).1
      rw [isColumnKeyword, Text.isAnyKeyword] at hkeyword ⊢
      rwa [funext hsame]

/-- A reference ends where a constraint starts. -/
theorem endsAt_flatMap_words (others : List DeclaredConstraint) :
    ReferenceOption.EndsAt (others.flatMap words) := by
  cases others with
  | nil => exact ReferenceOption.endsAt_nil
  | cons declared rest =>
      obtain ⟨first, behind, hwords, hsame, hclosed⟩ := declared.exists_words
      have hoptions := (keywords_comparisons _ declared.keyword_mem).2.2.1
      refine ⟨ReferenceOption.reads_read?_none (fun option hoption word hword => ?_)
        (declared.startWithKeywords_words _), fun word hword => ?_⟩
      · rw [List.flatMap_cons, hwords] at hword
        cases hword
        rw [hsame]
        exact hoptions option hoption
      · rw [List.flatMap_cons, hwords] at hword
        cases hword
        exact hclosed

/-! ## Reading constraints -/

open ColumnConstraint

/-- A constraint in front of others is taken, and they are left. -/
theorem reads_read? (column : String) (declared : DeclaredConstraint)
    (others : List DeclaredConstraint) :
    Reads (read? column) (declared.words ++ others.flatMap words) (some declared.constraint)
      (others.flatMap words) := by
  -- by the constraint; what takes as many words as it can stops at the keyword of the next one
  cases declared with
  | null =>
      have hlower : Text.lower "NULL" = "null" := by decide
      refine reads_read?_cons ?_
      rw [readFrom, hlower]
      exact reads_pure _ _
  | notNull => exact reads_read?_cons (reads_readFrom_notNull column _)
  | unique => exact reads_read?_cons (reads_readFrom_unique column _)
  | primaryKey => exact reads_read?_cons (reads_readFrom_primaryKey column _)
  | default value =>
      exact reads_read?_cons
        (reads_readFrom_default column value fun _ => isColumnKeyword_of_mem_head?)
  | references written hnamed =>
      have hlower : Text.lower "REFERENCES" = "references" := by decide +kernel
      refine reads_read?_cons ?_
      rw [readFrom, hlower]
      exact written.reads_readReference_append hnamed (endsAt_flatMap_words others) column
  | check expression attached hbalanced =>
      have hspelling : IsSpelling "check" "CHECK" := by decide
      cases attached with
      | false => exact reads_read?_cons (gives_readFrom_check hspelling hbalanced column _).reads
      | true =>
          exact reads_read?_cons (gives_readFrom_checkGroup hspelling hbalanced column _).reads
  | collate collation =>
      have hlower : Text.lower "COLLATE" = "collate" := by decide
      refine reads_read?_cons ?_
      rw [readFrom, hlower]
      exact (reads_expectWord _ _ _).discard.bind (reads_pure _ _)

/-! ## Constraints as text -/

/-- A value or a collation is one word. -/
def IsSpelled : DeclaredConstraint → Prop
  | default value => Chars.IsWord value.toList
  | collate collation => Chars.IsWord collation.toList
  | _ => True

theorem isWord_of_mem {declared : DeclaredConstraint} (hspelled : declared.IsSpelled)
    {word : String} (hword : word ∈ declared.words) : Chars.IsWord word.toList := by
  have hplain : ∀ word ∈ ["NULL", "NOT", "UNIQUE", "PRIMARY", "KEY", "DEFAULT", "REFERENCES",
      "CHECK", "COLLATE"], Chars.IsWord word.toList := by
    intro word hword
    have hname : ∀ word ∈ ["NULL", "NOT", "UNIQUE", "PRIMARY", "KEY", "DEFAULT", "REFERENCES",
        "CHECK", "COLLATE"], Chars.IsNameWord word.toList := by
      decide
    exact (hname word hword).isWord
  -- every other word than these is spelled by the constraint itself
  cases declared with
  | default value =>
      rcases List.mem_cons.mp hword with rfl | hword
      · exact hplain _ (by decide)
      · exact List.mem_singleton.mp hword ▸ hspelled
  | collate collation =>
      rcases List.mem_cons.mp hword with rfl | hword
      · exact hplain _ (by decide)
      · exact List.mem_singleton.mp hword ▸ hspelled
  | references written hnamed =>
      rcases List.mem_cons.mp hword with rfl | hword
      · exact hplain _ (by decide)
      · exact (written.isFinal_of_mem_words hword).toIsWord
  | check expression attached hbalanced =>
      cases attached with
      | false =>
          rcases List.mem_cons.mp hword with rfl | hword
          · exact hplain _ (by decide)
          · exact List.mem_singleton.mp hword ▸ Text.isWord_group hbalanced
      | true =>
          exact List.mem_singleton.mp hword ▸
            Text.isWord_withGroup (by decide) (by decide : IsSpelling "check" "CHECK") hbalanced
  | _ =>
      refine hplain word ?_
      simp only [words, List.mem_cons, List.not_mem_nil, or_false] at hword ⊢
      grind

/-! ## Constraints that change places -/

/-- Constraints of two kinds put on a column do the same in either order. -/
theorem add_comm {first second : DeclaredConstraint} (hkinds : first.kind ≠ second.kind)
    (draft : ColumnDraft) :
    (draft.add first.constraint).add second.constraint =
      (draft.add second.constraint).add first.constraint := by
  -- Only `NULL` looks at what is there, at the primary key.
  cases hkey : draft.column.primaryKey <;> cases first <;> cases second <;>
    first
      | exact absurd rfl hkinds
      | simp [constraint, ColumnDraft.add, Column.asPrimaryKey, hkey]

/-- Constraints of different kinds make the same of a column in every order. -/
theorem foldl_add_of_perm {constraints permuted : List DeclaredConstraint}
    (hperm : constraints.Perm permuted) (hkinds : (constraints.map kind).Nodup)
    (draft : ColumnDraft) :
    (constraints.map constraint).foldl ColumnDraft.add draft =
      (permuted.map constraint).foldl ColumnDraft.add draft := by
  rw [List.foldl_map, List.foldl_map]
  refine hperm.foldl_eq' (fun first hfirst second hsecond current => ?_) draft
  by_cases hsame : first.kind = second.kind
  · rw [List.inj_on_of_nodup_map hkinds hfirst hsecond hsame]
  · exact add_comm hsame current

end DeclaredConstraint

/-! ## Types of one identifier -/

theorem Chars.isNameChar_toLower {c : Char} (hname : isNameChar c = true) :
    isNameChar c.toLower = true := by
  have hsmall : ∀ code < 0x80, isNameChar (Char.ofNat code) = true →
      isNameChar (Char.ofNat code).toLower = true := by
    decide
  have hcode := hsmall c.toNat (Chars.toNat_of_isNameChar hname).2
  rw [Char.ofNat_toNat] at hcode
  exact hcode hname

/-- Every identifier is the name of a type. -/
theorem ColumnType.exists_read?_of_isBare {name : String}
    (hbare : Chars.isBare name.toList = true) : ∃ type, ColumnType.read? name = some type := by
  have hword := Chars.isNameWord_of_isBare hbare
  have hchars := hword.chars
  -- an identifier ends in no suffix
  have hsuffix : Chars.dropArraySuffix? name.toList = none := by
    have hbracket : name.toList.getLast? ≠ some ']' := by
      intro hlast
      cases hchars ']' (List.mem_of_getLast? hlast)
    have hblank : ∀ c ∈ name.toList, isBlank c = false := fun c hc =>
      Chars.isBlank_of_isNameChar (hchars c hc)
    rw [Chars.dropArraySuffix?, Chars.dropBrackets?_eq_none hbracket,
      Chars.dropArrayWord?_eq_none (Or.inr hblank)]
    rfl
  -- and lowered it is a name without parameters
  have hlower : Chars.lower name.toList = name.toList.map Char.toLower :=
    Chars.lower_eq_map_toLower fun c hc => (Chars.toNat_of_isNameChar (hchars c hc)).2
  have hlowered : ∀ c ∈ name.toList.map Char.toLower, Chars.isNameChar c = true := by
    intro c hc
    obtain ⟨old, hold, rfl⟩ := List.mem_map.mp hc
    exact Chars.isNameChar_toLower (hchars old hold)
  have huncut : Chars.Uncut (· == '(') .top (name.toList.map Char.toLower) :=
    Chars.uncut_of_nameChars hlowered fun _ hc =>
      beq_false_of_ne (Chars.ne_of_isNameChar hc (by decide))
  have hcollapse := (Chars.collapse_word (fun c hc => Chars.isBlank_of_isNameChar (hlowered c hc))
    (fun hnil => hword.ne_nil (List.map_eq_nil_iff.mp hnil))).1
  have hsome : (name.toList.map Char.toLower).isEmpty = false := by simp [hword.ne_nil]
  rw [ColumnType.read?, (Chars.whole_of_nameChars hchars).trim_eq,
    Chars.dropArraySuffixes_of_none hsuffix]
  dsimp only
  rw [hlower, ColumnType.nameAndParameters, Chars.breakAt_of_uncut huncut]
  dsimp only
  rw [hcollapse, hsome, if_neg Bool.false_ne_true]
  exact ⟨_, rfl⟩

/-! ## Columns with their constraints -/

/-- A column with a type of one identifier, without its constraints. -/
structure ConstrainedColumn where
  name : String
  typeName : String
  bare : Chars.isBare typeName.toList = true
  free : isColumnKeyword typeName = false

namespace ConstrainedColumn

variable (declared : ConstrainedColumn) {constraints permuted : List DeclaredConstraint}

/-- The words of the column with constraints behind it. -/
def words (constraints : List DeclaredConstraint) : List String :=
  Text.quoted '\x22' declared.name :: declared.typeName ::
    constraints.flatMap DeclaredConstraint.words

/-- The column as text, with a space between two words. -/
def text (constraints : List DeclaredConstraint) : String :=
  Text.unwords (declared.words constraints)

/-- The text falls into its words, if every value is one word. -/
theorem words_text (hspelled : ∀ constraint ∈ constraints, constraint.IsSpelled) :
    Text.words (declared.text constraints) = declared.words constraints := by
  have htype : Chars.IsWord declared.typeName.toList :=
    (Chars.isNameWord_of_isBare declared.bare).isWord
  refine Text.words_unwords fun word hword => ?_
  rcases List.mem_cons.mp hword with rfl | hword
  · exact Text.isWord_quoted rfl declared.name
  rcases List.mem_cons.mp hword with rfl | hword
  · exact htype
  · obtain ⟨constraint, hconstraint, hword⟩ := List.mem_flatMap.mp hword
    exact constraint.isWord_of_mem (hspelled constraint hconstraint) hword

/-- The name and the type are read first, whatever constraints follow. -/
theorem exists_reads_readColumn (file : String) : ∃ start : Column, start.name = declared.name ∧
    ∀ constraints, Reads (ColumnDefinition.readColumn file) (declared.words constraints) start
      (constraints.flatMap DeclaredConstraint.words) := by
  obtain ⟨type, htype⟩ := ColumnType.exists_read?_of_isBare declared.bare
  refine ⟨{ Column.plain declared.name type.dataType with
    array := type.array, createdIn := file }, rfl, fun constraints => ?_⟩
  have hname := reads_expectIdentifier "column name" (Text.quoted '\x22' declared.name)
    (declared.typeName :: constraints.flatMap DeclaredConstraint.words)
  rw [Text.unquoteIdentifier_quoted] at hname
  have hfree : ∀ word ∈ [declared.typeName], isColumnKeyword word = false := by
    intro word hword
    rw [List.mem_singleton.mp hword]
    exact declared.free
  have hbehind : ∀ word ∈ (constraints.flatMap DeclaredConstraint.words).head?,
      isColumnKeyword word = true :=
    fun _ => DeclaredConstraint.isColumnKeyword_of_mem_head?
  refine hname.bind ((gives_takeWhile_keyword hfree hbehind).reads.bind ?_)
  have hunwords : Text.unwords [declared.typeName] = declared.typeName := rfl
  rw [List.isEmpty_cons, if_neg Bool.false_ne_true, hunwords, htype]
  exact reads_pure _ _

/-- What is read is the column with its constraints put on it in the order written. -/
theorem exists_reads_readWords (file : String) : ∃ start : Column, start.name = declared.name ∧
    ∀ constraints, Reads (ColumnDefinition.readWords file) (declared.words constraints)
      ((constraints.map DeclaredConstraint.constraint).foldl ColumnDraft.add
        ⟨start, none, none⟩).definition [] := by
  obtain ⟨start, hname, hcolumn⟩ := declared.exists_reads_readColumn file
  refine ⟨start, hname, fun constraints => (hcolumn constraints).bind ?_⟩
  have hmany := reads_many (DeclaredConstraint.reads_read? start.name)
    (reads_next?_nil.bind (reads_pure none [])) DeclaredConstraint.words_ne_nil constraints
  exact hmany.bind (reads_pure _ [])

/-- Constraints of different kinds may stand in any order: the definition is the same, or it is
refused for the type of its primary key, with the same error. -/
theorem read_of_perm (hperm : constraints.Perm permuted)
    (hkinds : (constraints.map DeclaredConstraint.kind).Nodup) {first second : String}
    (hfirst : Text.words first = declared.words constraints)
    (hsecond : Text.words second = declared.words permuted) (origin : Origin) (table : String) :
    (∃ definition, ColumnDefinition.read origin table first = .ok definition ∧
      ColumnDefinition.read origin table second = .ok definition) ∨
    ∃ typeText,
      ColumnDefinition.read origin table first =
        .error (.primaryKeyType origin.file table declared.name typeText
          origin.family.primaryKeyType origin.family) ∧
      ColumnDefinition.read origin table second =
        .error (.primaryKeyType origin.file table declared.name typeText
          origin.family.primaryKeyType origin.family) := by
  -- both texts are read as the same start with constraints put on it, and the order does not count
  obtain ⟨start, hname, hreads⟩ := declared.exists_reads_readWords origin.file
  have hone := hreads constraints
  have htwo := hreads permuted
  rw [← hfirst] at hone
  rw [← hsecond, ← DeclaredConstraint.foldl_add_of_perm hperm hkinds] at htwo
  have hdraft : ((constraints.map DeclaredConstraint.constraint).foldl ColumnDraft.add
      ⟨start, none, none⟩).IsOf declared.name := by
    refine ColumnDraft.IsOf.foldl_add ⟨hname, fun _ hkey => ?_⟩ _
    cases hkey
  generalize (constraints.map DeclaredConstraint.constraint).foldl ColumnDraft.add
    ⟨start, none, none⟩ = draft at hone htwo hdraft
  rw [ColumnDefinition.read, ColumnDefinition.read, hone.ofText, htwo.ofText, except_ok_bind,
    Origin.checkPrimaryKey]
  -- only the type of a primary key is left to refuse
  split
  · exact Or.inl ⟨draft.definition, rfl, rfl⟩
  · refine Or.inr ⟨draft.column.typeText, ?_⟩
    rw [← hdraft.column]
    exact ⟨rfl, rfl⟩

/-- A column of identifiers. -/
def identifier : ConstrainedColumn where
  name := "a"
  typeName := "uuid"
  bare := rfl
  free := rfl

/-- Constraints of four kinds. -/
def identifierConstraints : List DeclaredConstraint :=
  [.null, .check "b > 0" false (Chars.balanced_of_plain (List.all_eq_true.mp (by decide))),
    .references ⟨⟨none, "r"⟩, none, false, [(.delete, .setNull)]⟩ (by decide), .primaryKey]

/-- The word `NULL` in front of a primary key, behind it and behind `SET`. -/
theorem read_of_perm_identifier :
    (identifierConstraints.map DeclaredConstraint.kind).Nodup ∧
    ∃ definition, definition.column.nullable = false ∧ definition.foreignKey.isSome = true ∧
      ColumnDefinition.read ⟨"1.sql", .postgres⟩ "t"
        "\x22a\x22 uuid NULL CHECK (b > 0) REFERENCES \x22r\x22 ON DELETE SET NULL PRIMARY KEY" =
          .ok definition ∧
      ColumnDefinition.read ⟨"1.sql", .postgres⟩ "t"
        "\x22a\x22 uuid PRIMARY KEY REFERENCES \x22r\x22 ON DELETE SET NULL CHECK (b > 0) NULL" =
          .ok definition := by
  have hspelled : ∀ constraint ∈ identifierConstraints, constraint.IsSpelled := by
    simp [identifierConstraints, DeclaredConstraint.IsSpelled]
  have hperm : identifierConstraints.Perm identifierConstraints.reverse :=
    (List.reverse_perm identifierConstraints).symm
  have hkinds : (identifierConstraints.map DeclaredConstraint.kind).Nodup := by decide
  have hfirst := identifier.words_text hspelled
  have hsecond := identifier.words_text fun constraint hconstraint =>
    hspelled constraint (hperm.mem_iff.mpr hconstraint)
  have hone : identifier.text identifierConstraints =
      "\x22a\x22 uuid NULL CHECK (b > 0) REFERENCES \x22r\x22 ON DELETE SET NULL PRIMARY KEY" := by
    decide +kernel
  have htwo : identifier.text identifierConstraints.reverse =
      "\x22a\x22 uuid PRIMARY KEY REFERENCES \x22r\x22 ON DELETE SET NULL CHECK (b > 0) NULL" := by
    decide +kernel
  -- the first order, from which the second one follows
  have hread : (ColumnDefinition.read ⟨"1.sql", .postgres⟩ "t"
      (identifier.text identifierConstraints)).toOption.any (fun definition =>
        !definition.column.nullable && definition.foreignKey.isSome) = true := by
    decide +kernel
  rw [← hone, ← htwo]
  rcases identifier.read_of_perm hperm hkinds hfirst hsecond ⟨"1.sql", .postgres⟩ "t" with
    ⟨definition, hdefinition, hsame⟩ | ⟨typeText, herror, -⟩
  · rw [hdefinition] at hread
    obtain ⟨hnullable, hkey⟩ := (Bool.and_eq_true _ _).mp hread
    exact ⟨hkinds, definition, (Bool.not_eq_true' _).mp hnullable, hkey, hdefinition, hsame⟩
  · rw [herror] at hread
    cases hread

end ConstrainedColumn

end Schemata
