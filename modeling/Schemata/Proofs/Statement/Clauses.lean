import Mathlib.Data.List.Basic
import Schemata.Proofs.Effect
import Schemata.Proofs.ObjectName
import Schemata.Proofs.Statement.Body
import Schemata.Proofs.Statement.Header
import Schemata.Proofs.Statement.Operation

/-!
# Clauses as statements of their own

Of several operations on a table each is printed as a statement of its own, behind the name of the
table, and read again.  The clauses survive this, and so do names with dots, quotes and brackets in
them.  A name that is a word of the header does not, since it is printed without quotes:
`AlterTable.IsMisread` says which names these are.

The header of such a statement is the table's name and what the reader passes over in front of it:
`ONLY`, and a guard of two words.  A quoted `only` comes back without its quotes and is passed over,
and then the first word of the clause is the name; a quoted `if` does the same in front of a clause
that starts with `EXISTS`.  What is read then is never the operation of the clause, since that has
lost its first word.  The two are alike all the same when neither of them can be read, so that the
condition for reading alike is not on the name alone.

* `AlterTable.read_clauseText`: any other name gives the operation of the clause.
* `AlterTable.ne_of_isMisread`: a misread name gives another table or another operation.
* `AlterTable.readsAlike_of_several`: when the printed statements do what their clauses say.
-/

namespace Schemata

/-- An unqualified name that is the keyword but for letter case. -/
def ObjectName.IsWord (name : ObjectName) (keyword : String) : Prop :=
  name.schema = none ∧ Chars.sameIgnoringCase name.base.toList keyword.toList = true

instance (name : ObjectName) (keyword : String) : Decidable (name.IsWord keyword) :=
  inferInstanceAs (Decidable (_ ∧ _))

namespace AlterTable

/-! ## The statement made from a clause -/

/-- A clause of a text: trimmed, not empty, and without a comma at the top. -/
structure IsClause (clause : String) : Prop where
  uncut : Chars.Uncut (· == ',') .top clause.toList
  trimmed : Chars.Trimmed clause.toList
  ne_nil : clause.toList ≠ []

theorem isClause_of_mem {text clause : String} (hclause : clause ∈ Text.clauses text) :
    IsClause clause := by
  obtain ⟨chars, hchars, rfl⟩ := List.mem_map.mp hclause
  obtain ⟨huncut, htrimmed, hne⟩ := Chars.of_mem_split hchars
  exact ⟨by rwa [String.toList_ofList], by rwa [String.toList_ofList],
    by rwa [String.toList_ofList]⟩

/-- A clause is its own only clause. -/
theorem IsClause.clauses_eq {clause : String} (hclause : IsClause clause) :
    Text.clauses clause = [clause] := by
  rw [Text.clauses, Text.split,
    Chars.split_eq_singleton hclause.uncut hclause.trimmed hclause.ne_nil, List.map_singleton,
    String.ofList_toList]

theorem IsClause.trim_eq {clause : String} (hclause : IsClause clause) :
    Text.trim clause = clause :=
  Text.trim_eq_self hclause.trimmed

section Text

/-- The statement about the table of the given word. -/
def statementText (table clause : String) : String :=
  "ALTER TABLE " ++ table ++ " " ++ clause

theorem toList_statementText (table clause : String) : (statementText table clause).toList =
    "ALTER".toList ++ ' ' ::
      ("TABLE".toList ++ ' ' :: (table.toList ++ ' ' :: clause.toList)) := by
  have halter : "ALTER TABLE ".toList = "ALTER".toList ++ ' ' :: ("TABLE".toList ++ [' ']) := by
    decide
  have hspace : " ".toList = [' '] := by decide
  rw [statementText, String.toList_append, String.toList_append, String.toList_append, halter,
    hspace]
  simp

theorem isNameChar_alter : ∀ c ∈ "ALTER".toList, Chars.isNameChar c = true :=
  List.all_eq_true.mp (by decide)

theorem isNameChar_table : ∀ c ∈ "TABLE".toList, Chars.isNameChar c = true :=
  List.all_eq_true.mp (by decide)

theorem words_statementText {table : String} (htable : Chars.IsWord table.toList)
    (clause : String) : Text.words (statementText table clause) =
      "ALTER" :: "TABLE" :: table :: Text.words clause := by
  rw [Text.words, toList_statementText, Chars.words_of_nameChars isNameChar_alter (by decide),
    Chars.words_of_nameChars isNameChar_table (by decide),
    Chars.words_append_cons htable.uncut_blank htable.run_top htable.ne_nil rfl]
  simp only [List.map_cons, String.ofList_toList]
  rfl

/-- Behind the table stands the clause. -/
theorem afterWords_statementText {table : String} (htable : Chars.IsWord table.toList)
    (clause : String) (count : Nat) :
    Text.afterWords (3 + count) (statementText table clause) = Text.afterWords count clause := by
  have hcount : 3 + count = count + 1 + 1 + 1 := by omega
  rw [Text.afterWords, toList_statementText, hcount,
    Chars.afterWords_of_nameChars isNameChar_alter (by decide),
    Chars.afterWords_of_nameChars isNameChar_table (by decide),
    Chars.afterWords_append_cons htable.uncut_blank htable.run_top htable.ne_nil rfl,
    Text.afterWords]

variable (name : ObjectName) (clause : String)

theorem toList_clauseText : (clauseText name clause).toList =
    "ALTER".toList ++ ' ' ::
      ("TABLE".toList ++ ' ' :: (name.text.toList ++ ' ' :: clause.toList)) :=
  toList_statementText name.text clause

theorem words_clauseText : Text.words (clauseText name clause) =
    "ALTER" :: "TABLE" :: name.text :: Text.words clause :=
  words_statementText name.isWord_text clause

/-- Behind the name stands the clause. -/
theorem afterWords_clauseText (count : Nat) :
    Text.afterWords (3 + count) (clauseText name clause) = Text.afterWords count clause :=
  afterWords_statementText name.isWord_text clause count

end Text

/-! ## Reading the statement made from a clause -/

section Reading

variable {origin : Origin} {table clause : String}

theorem getLast?_statementText (hclause : IsClause clause) :
    (statementText table clause).toList.getLast? = clause.toList.getLast? := by
  rw [statementText, String.toList_append, List.getLast?_append,
    List.getLast?_eq_some_getLast hclause.ne_nil]
  rfl

theorem trimmed_statementText (hclause : IsClause clause) :
    Chars.Trimmed (statementText table clause).toList := by
  constructor
  · intro c hc
    rw [toList_statementText] at hc
    cases hc
    decide
  · intro c hc
    rw [getLast?_statementText hclause] at hc
    exact hclause.trimmed.last c hc

/-- The statement is read as an `ALTER TABLE` statement. -/
theorem read_statementText_eq (htable : Chars.IsWord table.toList) (hclause : IsClause clause)
    (hend : clause.toList.getLast? ≠ some ';') :
    Statement.read origin (statementText table clause) =
      (AlterTable.read origin (statementText table clause)).map .alterTable := by
  rw [← getLast?_statementText hclause] at hend
  have hbody := Statement.body_eq_self (trimmed_statementText hclause) hend
  rw [Statement.read_alterTable (by rw [hbody, words_statementText htable]), hbody]

/-- When the word of the table is read as its name, the statement is the operation of the clause. -/
theorem read_statementText (htable : Chars.IsWord table.toList) (hclause : IsClause clause)
    (hend : clause.toList.getLast? ≠ some ';')
    (hheader : header? (table :: Text.words clause) = some (false, 1, table)) :
    Statement.read origin (statementText table clause) =
      (Operation.read origin (ObjectName.read table).base clause).map
        fun operation => .alterTable ⟨ObjectName.read table, false, operation⟩ := by
  have hafter : Text.trim (Text.afterWords (2 + 1) (statementText table clause)) = clause := by
    have hstart : Text.afterWords 0 clause = clause := by
      rw [Text.afterWords, Chars.afterWords, Chars.trimStart_eq_self hclause.trimmed.head,
        String.ofList_toList]
    rw [afterWords_statementText htable clause 0, hstart, hclause.trim_eq]
  have hread : readHeader.ofText origin.file (statementText table clause) =
      .ok (ObjectName.read table, false, [clause]) := by
    rw [readHeader_ofText (words_statementText htable clause), hheader]
    dsimp only
    rw [headed, hafter, hclause.clauses_eq]
  rw [read_statementText_eq htable hclause hend, AlterTable.read, hread, except_ok_bind]
  dsimp only
  cases hoperation : Operation.read origin (ObjectName.read table).base clause with
  | error error => simp
  | ok operation => simp [pure, Except.pure]

end Reading

/-! ## Names that the header reads differently -/

section Misread

variable {origin : Origin} {name : ObjectName} {clause word : String} {guard : Bool}
  {taken : Nat} {statement : AlterTable}

/-- Printed in front of the clause, the name is taken for a word of the header: it is an unqualified
`only`, or an unqualified `if` and the clause starts with `EXISTS`. -/
def IsMisread (name : ObjectName) (clause : String) : Prop :=
  name.IsWord "only" ∨
    name.IsWord "if" ∧ Text.startWithKeywords (Text.words clause) ["exists"] = true

instance (name : ObjectName) (clause : String) : Decidable (IsMisread name clause) :=
  inferInstanceAs (Decidable (_ ∨ _))

theorem isKeyword_only : Text.isKeyword name.text "only" = true ↔ name.IsWord "only" :=
  ObjectName.isKeyword_text_iff (by decide)

theorem isKeyword_if : Text.isKeyword name.text "if" = true ↔ name.IsWord "if" :=
  ObjectName.isKeyword_text_iff (by decide)

theorem startWithKeywords_cons (words : List String) :
    Text.startWithKeywords (name.text :: words) ["if", "exists"] = true ↔
      name.IsWord "if" ∧ Text.startWithKeywords words ["exists"] = true := by
  rw [← isKeyword_if, ← Bool.and_eq_true]
  rfl

/-- Any other name is read as the name. -/
theorem header?_of_not_isMisread (hname : ¬IsMisread name clause) :
    header? (name.text :: Text.words clause) = some (false, 1, name.text) := by
  have honly : ¬Text.isKeyword name.text "only" = true := fun honly =>
    hname (Or.inl (isKeyword_only.mp honly))
  have hguard : ¬Text.startWithKeywords (name.text :: Text.words clause) ["if", "exists"] = true :=
    fun hguard => hname (Or.inr ((startWithKeywords_cons _).mp hguard))
  rw [header?, if_neg hguard, named?, if_neg honly]
  rfl

/-- A misread name is passed over, and a word of the clause is read as the name: the first word
behind `only`, and a later one behind `if`. -/
theorem header?_of_isMisread (hname : IsMisread name clause)
    (hheader : header? (name.text :: Text.words clause) = some (guard, taken, word)) :
    2 ≤ taken ∧ (name.IsWord "only" ∧ (Text.words clause).head? = some word ∨
      Text.startWithKeywords (Text.words clause) ["exists"] = true) := by
  rcases hname with honly | ⟨hif, hexists⟩
  · -- `only` is no `if`, so that the guard is not looked at and the next word is the name
    have hguard :
        ¬Text.startWithKeywords (name.text :: Text.words clause) ["if", "exists"] = true := by
      rw [startWithKeywords_cons]
      rintro ⟨hif, -⟩
      have hsame : "only".toList.map Char.toLower = "if".toList.map Char.toLower :=
        calc "only".toList.map Char.toLower
            = name.base.toList.map Char.toLower := (eq_of_beq honly.2).symm
          _ = "if".toList.map Char.toLower := eq_of_beq hif.2
      exact absurd hsame (by decide)
    rw [header?, if_neg hguard, named?, if_pos (isKeyword_only.mpr honly)] at hheader
    obtain ⟨⟨more, found⟩, hfound, hpair⟩ := Option.map_eq_some_iff.mp hheader
    obtain ⟨first, hfirst, hmore⟩ := Option.map_eq_some_iff.mp hfound
    cases hmore
    cases hpair
    exact ⟨Nat.le_refl 2, Or.inl ⟨honly, hfirst⟩⟩
  · rw [header?, if_pos ((startWithKeywords_cons _).mpr ⟨hif, hexists⟩)] at hheader
    obtain ⟨⟨more, found⟩, hfound, hpair⟩ := Option.map_eq_some_iff.mp hheader
    cases hpair
    exact ⟨Nat.le_add_right 2 more, Or.inr hexists⟩

end Misread

/-! ## Statements of one and of several operations -/

section Read

variable {origin : Origin} {name : ObjectName} {clause : String} {clauses : List String}
  {guard : Bool} {statement : AlterTable}

/-- Several operations on a table are read from clauses of the text. -/
theorem isClause_of_mem_several {text : String}
    (hread : read origin text = .ok ⟨name, guard, .several clauses⟩) (hclause : clause ∈ clauses) :
    IsClause clause := by
  obtain ⟨found, hheader, ⟨single, -, hsingle⟩ | ⟨-, hseveral⟩⟩ := read_cases hread
  · exact absurd rfl (Operation.ne_several_of_read hsingle clauses)
  · cases hseveral
    obtain ⟨-, taken, hclauses⟩ := clauses_of_readHeader hheader
    rw [hclauses] at hclause
    exact isClause_of_mem hclause

/-- The operations of a statement that was read are clauses of its text. -/
theorem isClause_of_read {text : String}
    (hread : Statement.read origin text = .ok (.alterTable ⟨name, guard, .several clauses⟩))
    (hclause : clause ∈ clauses) : IsClause clause := by
  have hbody : read origin (Statement.body text) = .ok ⟨name, guard, .several clauses⟩ :=
    Statement.wasRead_of_read hread
  exact isClause_of_mem_several hbody hclause

/-- A text without a comma at the top holds one operation. -/
theorem ne_several_of_uncut {text : String} (huncut : Chars.Uncut (· == ',') .top text.toList)
    (hread : read origin text = .ok statement) (clauses : List String) :
    statement.operation ≠ .several clauses := by
  obtain ⟨found, hheader, ⟨single, -, hsingle⟩ | ⟨hnot, -⟩⟩ := read_cases hread
  · exact Operation.ne_several_of_read hsingle clauses
  · obtain ⟨hne, taken, hfound⟩ := clauses_of_readHeader hheader
    have hlength : found.length ≤ 1 := by
      rw [hfound, Text.clauses, Text.split, List.length_map, Text.trim, String.toList_ofList,
        Text.afterWords, String.toList_ofList]
      exact Chars.length_split_le_one (huncut.afterWords taken).trim
    have hpos : 0 < found.length := List.length_pos_iff.mpr hne
    obtain ⟨single, hsingle⟩ := List.length_eq_one_iff.mp (by omega : found.length = 1)
    exact absurd hsingle (hnot single)

end Read

/-! ## What a statement made from a clause is read as -/

section Alike

variable {origin : Origin} {name : ObjectName} {clause word keyword : String}
  {clauses : List String} {guard : Bool} {statement : AlterTable}

/-- The statement made from the clause is read if and only if the clause is, and then as the
operation of the clause on the named table. -/
def ReadsAlike (origin : Origin) (name : ObjectName) (clause : String) : Prop :=
  ((∃ statement, Statement.read origin (clauseText name clause) = .ok statement) ↔
    ∃ operation, Operation.read origin name.base clause = .ok operation) ∧
  ∀ statement operation, Statement.read origin (clauseText name clause) = .ok statement →
    Operation.read origin name.base clause = .ok operation →
      ∃ guard, statement = .alterTable ⟨name, guard, operation⟩

/-- Neither the statement made from the clause nor the clause can be read. -/
def Unreadable (origin : Origin) (name : ObjectName) (clause : String) : Prop :=
  (∀ statement, Statement.read origin (clauseText name clause) ≠ .ok statement) ∧
    ∀ operation, Operation.read origin name.base clause ≠ .ok operation

/-- With a name that is read as the name, the statement is the operation of the clause. -/
theorem read_clauseText (hclause : IsClause clause) (hend : clause.toList.getLast? ≠ some ';')
    (hname : ¬IsMisread name clause) :
    Statement.read origin (clauseText name clause) =
      (Operation.read origin name.base clause).map
        fun operation => .alterTable ⟨name, false, operation⟩ := by
  have hread : Statement.read origin (clauseText name clause) = _ :=
    read_statementText name.isWord_text hclause hend (header?_of_not_isMisread hname)
  rw [hread, ObjectName.read_text]

theorem head?_of_isKeyword (hne : keyword.toList ≠ [])
    (hkeyword : Text.isKeyword word keyword = true) :
    word.toList.head?.map Char.toLower = keyword.toList.head?.map Char.toLower := by
  have hsame : (Chars.head word.toList).map Char.toLower = keyword.toList.map Char.toLower :=
    eq_of_beq hkeyword
  obtain ⟨rest, hrest⟩ := Chars.head_beginning word.toList
  cases hhead : Chars.head word.toList with
  | nil =>
      rw [hhead] at hsame
      exact absurd (List.map_eq_nil_iff.mp hsame.symm) hne
  | cons c others =>
      have hfirst := congrArg List.head? hsame
      rw [hhead, List.head?_map, List.head?_map] at hfirst
      rw [← hrest, hhead]
      exact hfirst

/-- A word that starts an operation does not name a table `only`. -/
theorem ne_of_isKeyword
    (hkeyword : ∃ keyword ∈ Operation.keywords, Text.isKeyword word keyword = true)
    (honly : name.IsWord "only") : ObjectName.read word ≠ name := by
  rintro rfl
  obtain ⟨keyword, hmem, hkeyword⟩ := hkeyword
  -- every operation starts with one of three letters, and `only` with none of them
  have hletter : ∀ keyword ∈ Operation.keywords, keyword.toList ≠ [] ∧
      keyword.toList.head?.map Char.toLower ∈ [some 'a', some 'd', some 'r'] := by decide
  obtain ⟨hne, hfirst⟩ := hletter keyword hmem
  rw [← head?_of_isKeyword hne hkeyword] at hfirst
  cases hhead : word.toList.head? with
  | none => simp [hhead] at hfirst
  | some c =>
      rw [hhead, Option.map_some] at hfirst
      have hchar : Chars.isNameChar c = true := by
        refine Chars.isNameChar_of_toLower ?_
        have hall : ∀ first ∈ [some 'a', some 'd', some 'r'],
            first.any Chars.isNameChar = true := by
          decide
        exact hall _ hfirst
      have hbase := ObjectName.head?_base_read hhead hchar honly.1
      have hsame := congrArg List.head? (eq_of_beq honly.2)
      rw [List.head?_map, hbase, Option.map_some] at hsame
      rw [hsame] at hfirst
      exact absurd hfirst (by decide)

/-- `EXISTS` starts no operation. -/
theorem startWithKeywords_exists_eq_false {words : List String}
    (hmem : keyword ∈ Operation.keywords)
    (hstart : words.head?.any (Text.isKeyword · keyword) = true) :
    Text.startWithKeywords words ["exists"] = false := by
  have hnone : ∀ keyword ∈ Operation.keywords,
      keyword.toList.map Char.toLower ≠ "exists".toList.map Char.toLower := by decide
  refine Bool.eq_false_iff.mpr fun hexists => hnone keyword hmem ?_
  cases words with
  | nil => cases hstart
  | cons leading rest =>
      calc keyword.toList.map Char.toLower
          = (Chars.head leading.toList).map Char.toLower := (eq_of_beq hstart).symm
        _ = "exists".toList.map Char.toLower := eq_of_beq ((Bool.and_eq_true _ _).mp hexists).1

/-- What an operation that starts with no keyword is read as. -/
theorem operation_eq_unsupported {table : String} {operation : Operation}
    (hclause : IsClause clause) (hread : Operation.read origin table clause = .ok operation)
    (hkeyword : ¬∃ keyword ∈ Operation.keywords,
      (Reader.start origin.file clause).nextIs keyword = true) :
    operation = .unsupported clause := by
  rcases Operation.read_cases hread with ⟨hfound, -⟩ | hkept
  · exact absurd hfound hkeyword
  · rw [hkept, hclause.trim_eq]

/-- A text that is shorter than the clause is not read as the clause kept as it is. -/
theorem ne_unsupported_of_length_lt {text : String}
    (hoperation : (∃ single, Text.clauses text = [single] ∧
        Operation.read origin statement.name.base single = .ok statement.operation) ∨
      (∀ single, Text.clauses text ≠ [single]) ∧
        statement.operation = .several (Text.clauses text))
    (hshort : text.toList.length < clause.toList.length) :
    statement.operation ≠ .unsupported clause := by
  intro hkept
  rw [hkept] at hoperation
  rcases hoperation with ⟨single, hsingle, hread⟩ | ⟨-, hseveral⟩
  · have hmem : single ∈ Text.clauses text := hsingle ▸ List.mem_singleton_self single
    have htrim := (isClause_of_mem hmem).trim_eq
    have hlength : single.toList.length ≤ text.toList.length := by
      obtain ⟨chars, hchars, rfl⟩ := List.mem_map.mp hmem
      rw [String.toList_ofList]
      exact Chars.length_le_of_mem_split hchars
    rw [Operation.eq_of_read_unsupported hread, htrim] at hshort
    omega
  · cases hseveral

/-- When the name is misread, the statement does not do the operation of the clause to the named
table. -/
theorem ne_of_isMisread (hclause : IsClause clause) (hname : IsMisread name clause)
    (hread : AlterTable.read origin (clauseText name clause) = .ok statement)
    (hoperation : Operation.read origin name.base clause = .ok statement.operation) :
    statement.name ≠ name := by
  obtain ⟨clauses, hheader, hclauses⟩ := read_cases hread
  rw [readHeader_ofText (words_clauseText name clause)] at hheader
  split at hheader
  · cases hheader
  rename_i guard taken word hfound
  rw [headed] at hheader
  split at hheader
  · cases hheader
  rename_i first others hbehind
  simp only [Except.ok.injEq, Prod.mk.injEq] at hheader
  obtain ⟨hword, -, rfl⟩ := hheader
  rw [← hbehind] at hclauses
  obtain ⟨htaken, hcases⟩ := header?_of_isMisread hname hfound
  obtain ⟨more, rfl⟩ := Nat.exists_eq_add_of_le htaken
  -- A word of the clause is taken at least, so the operation is read from less text.
  have hafter : Text.afterWords (2 + (2 + more)) (clauseText name clause) =
      Text.afterWords (more + 1) clause := by
    have hcount : 2 + (2 + more) = 3 + (more + 1) := by omega
    rw [hcount, afterWords_clauseText]
  have hshort : (Text.trim (Text.afterWords (2 + (2 + more))
      (clauseText name clause))).toList.length < clause.toList.length := by
    rw [hafter, Text.trim, String.toList_ofList, Text.afterWords, String.toList_ofList]
    calc (Chars.trim (Chars.afterWords (more + 1) clause.toList)).length
        ≤ (Chars.afterWords (more + 1) clause.toList).length := Chars.length_trim_le _
      _ < clause.toList.length := Chars.length_afterWords_lt hclause.ne_nil more
  have hkeyword : ∃ keyword ∈ Operation.keywords,
      (Reader.start origin.file clause).nextIs keyword = true := by
    by_contra hkeyword
    exact ne_unsupported_of_length_lt hclauses hshort
      (operation_eq_unsupported hclause hoperation hkeyword)
  obtain ⟨keyword, hmem, hnext⟩ := hkeyword
  have hnext : (Text.words clause).head?.any (Text.isKeyword · keyword) = true := hnext
  rw [← hword]
  rcases hcases with ⟨honly, hhead⟩ | hexists
  · rw [hhead] at hnext
    exact ne_of_isKeyword ⟨keyword, hmem, hnext⟩ honly
  · rw [startWithKeywords_exists_eq_false hmem hnext] at hexists
    cases hexists

/-- Behind a name that is read as the name, the statement is read when the clause is. -/
theorem readsAlike_of_not_isMisread (hclause : IsClause clause)
    (hend : clause.toList.getLast? ≠ some ';') (hname : ¬IsMisread name clause) :
    ReadsAlike origin name clause := by
  have hread : Statement.read origin (clauseText name clause) = _ :=
    read_clauseText hclause hend hname
  constructor
  · rw [hread]
    constructor
    · rintro ⟨statement, hstatement⟩
      obtain ⟨operation, hoperation, -⟩ := except_map_eq_ok.mp hstatement
      exact ⟨operation, hoperation⟩
    · rintro ⟨operation, hoperation⟩
      exact ⟨_, except_map_eq_ok.mpr ⟨operation, hoperation, rfl⟩⟩
  · intro statement operation hstatement hoperation
    rw [hread, hoperation] at hstatement
    cases hstatement
    exact ⟨false, rfl⟩

theorem readsAlike_of_unreadable (hnone : Unreadable origin name clause) :
    ReadsAlike origin name clause := by
  obtain ⟨hnoStatement, hnoOperation⟩ := hnone
  constructor
  · constructor
    · rintro ⟨statement, hstatement⟩
      exact absurd hstatement (hnoStatement statement)
    · rintro ⟨operation, hoperation⟩
      exact absurd hoperation (hnoOperation operation)
  · intro statement operation hstatement
    exact absurd hstatement (hnoStatement statement)

/-- With a misread name the two are read alike only where neither is read: a statement that is read
does not do the operation of the clause to the named table. -/
theorem ReadsAlike.unreadable (halike : ReadsAlike origin name clause) (hclause : IsClause clause)
    (hend : clause.toList.getLast? ≠ some ';') (hname : IsMisread name clause) :
    Unreadable origin name clause := by
  obtain ⟨hboth, hsame⟩ := halike
  have hnone : ∀ operation, Operation.read origin name.base clause ≠ .ok operation := by
    intro operation hoperation
    obtain ⟨statement, hstatement⟩ := hboth.mpr ⟨operation, hoperation⟩
    obtain ⟨guard, rfl⟩ := hsame statement operation hstatement hoperation
    have hsplit : Statement.read origin (clauseText name clause) =
        (AlterTable.read origin (clauseText name clause)).map .alterTable :=
      read_statementText_eq name.isWord_text hclause hend
    rw [hsplit, except_map_eq_ok] at hstatement
    obtain ⟨inner, hinner, hinnerName⟩ := hstatement
    cases hinnerName
    exact ne_of_isMisread hclause hname hinner hoperation rfl
  refine ⟨fun statement hstatement => ?_, hnone⟩
  obtain ⟨operation, hoperation⟩ := hboth.mp ⟨statement, hstatement⟩
  exact hnone operation hoperation

/-- The statement made from a clause is read like the clause unless the name is misread and one of
the two can be read. -/
theorem readsAlike_iff (hclause : IsClause clause) (hend : clause.toList.getLast? ≠ some ';') :
    ReadsAlike origin name clause ↔ ¬IsMisread name clause ∨ Unreadable origin name clause := by
  constructor
  · intro halike
    by_cases hname : IsMisread name clause
    · exact Or.inr (halike.unreadable hclause hend hname)
    · exact Or.inl hname
  · rintro (hname | hnone)
    · exact readsAlike_of_not_isMisread hclause hend hname
    · exact readsAlike_of_unreadable hnone

end Alike

/-! ## Carrying out several operations -/

section Carry

variable {origin : Origin} {name : ObjectName} {clause : String} {clauses : List String}
  {guard : Bool}

/-- Several operations on the named table, each read from its clause when its turn comes and carried
out as a statement of its own. -/
def applyEach (origin : Origin) (name : ObjectName) (guard : Bool) (clauses : List String) :
    Change Unit := do
  let schema := name.schemaOr (← get).defaultSchema
  if guard && !(← get).hasTable schema name.base then return ()
  else
    let _ ← Change.ofExcept ((← get).table schema name.base)
    clauses.forM fun clause => do
      let operation ← Change.ofExcept (Change.ofReading (Operation.read origin name.base clause))
      (Statement.alterTable ⟨name, false, operation⟩).apply origin

/-- How other statements are carried out matters only for those made from the clauses. -/
theorem apply_congr {statement : AlterTable} {again other : String → Change Unit}
    (hagain : ∀ clauses, statement.operation = .several clauses → ∀ clause ∈ clauses,
      again (clauseText statement.name clause) = other (clauseText statement.name clause)) :
    statement.apply origin again = statement.apply origin other := by
  obtain ⟨name, guard, operation⟩ := statement
  unfold apply
  cases operation with
  | several clauses =>
      refine bind_congr fun catalog => bind_congr fun current => ?_
      split
      · rfl
      · refine bind_congr fun reached => bind_congr fun table => ?_
        exact Change.forM_congr (hagain clauses rfl)
  | _ => rfl

/-- A statement of one operation carries out no other statement. -/
theorem apply_eq_of_ne_several {statement : AlterTable}
    (hoperation : ∀ clauses, statement.operation ≠ .several clauses)
    (again other : String → Change Unit) :
    statement.apply origin again = statement.apply origin other :=
  apply_congr fun clauses hseveral => absurd hseveral (hoperation clauses)

/-- The text of a statement made from a clause has no comma at the top either. -/
theorem uncut_clauseText (hclause : IsClause clause) :
    Chars.Uncut (· == ',') .top (clauseText name clause).toList := by
  have hname : ∀ c, Chars.isNameChar c = true → (c == ',') = false := fun c hc =>
    beq_false_of_ne (Chars.ne_of_isNameChar hc (by decide))
  rw [toList_clauseText, Chars.uncut_append, Chars.run_of_nameChars isNameChar_alter]
  refine ⟨Chars.uncut_of_nameChars isNameChar_alter hname, rfl, ?_⟩
  show Chars.Uncut _ .top _
  rw [Chars.uncut_append, Chars.run_of_nameChars isNameChar_table]
  refine ⟨Chars.uncut_of_nameChars isNameChar_table hname, rfl, ?_⟩
  show Chars.Uncut _ .top _
  rw [Chars.uncut_append, name.run_text]
  exact ⟨ObjectName.uncut_text rfl rfl hname name, rfl, hclause.uncut⟩

/-- The statement made from a clause carries out no other statement. -/
theorem applyNested_clauseText_eq (hclause : IsClause clause) (first second : Nat) :
    (Change.ofExcept (Change.ofReading (Statement.read origin (clauseText name clause))) >>=
        Statement.applyNested origin first) =
      Change.ofExcept (Change.ofReading (Statement.read origin (clauseText name clause))) >>=
        Statement.applyNested origin second := by
  cases hread : Statement.read origin (clauseText name clause) with
  | error error => rw [Change.ofReading_error_bind, Change.ofReading_error_bind]
  | ok nested =>
      rw [Change.ofReading_ok_bind, Change.ofReading_ok_bind]
      cases nested with
      | alterTable nested =>
          rw [Statement.applyNested, Statement.applyNested]
          have hnested : read origin (Statement.body (clauseText name clause)) = .ok nested :=
            Statement.wasRead_of_read hread
          have hbeginning := Statement.body_beginning (clauseText name clause)
          generalize Statement.body (clauseText name clause) = body at hnested hbeginning
          have huncut := Chars.Uncut.of_beginning (Chars.Uncut.trim (uncut_clauseText hclause))
            hbeginning
          exact apply_eq_of_ne_several (ne_several_of_uncut huncut hnested) _ _
      | _ => rw [Statement.applyNested, Statement.applyNested]

/-- The statement made from a clause carries out the operation of the clause. -/
theorem applyNested_clauseText (hclause : IsClause clause)
    (hend : clause.toList.getLast? ≠ some ';') (hname : ¬IsMisread name clause) (depth : Nat) :
    (Change.ofExcept (Change.ofReading (Statement.read origin (clauseText name clause))) >>=
        Statement.applyNested origin depth) =
      Change.ofExcept (Change.ofReading (Operation.read origin name.base clause)) >>=
        fun operation => (Statement.alterTable ⟨name, false, operation⟩).apply origin := by
  rw [read_clauseText hclause hend hname]
  cases hread : Operation.read origin name.base clause with
  | error error =>
      rw [except_map_error, Change.ofReading_error_bind, Change.ofReading_error_bind]
  | ok operation =>
      rw [except_map_ok, Change.ofReading_ok_bind, Change.ofReading_ok_bind, Statement.apply,
        Statement.applyNested, Statement.applyNested]
      exact apply_eq_of_ne_several (Operation.ne_several_of_read hread) _ _

theorem apply_several (hclauses : ∀ clause ∈ clauses, IsClause clause ∧
    clause.toList.getLast? ≠ some ';' ∧ ¬IsMisread name clause) :
    (Statement.alterTable ⟨name, guard, .several clauses⟩).apply origin =
      applyEach origin name guard clauses := by
  rw [Statement.apply, Statement.nestingDepth, Statement.applyNested, apply, applyEach]
  dsimp only
  refine bind_congr fun catalog => bind_congr fun current => ?_
  split
  · rfl
  refine bind_congr fun reached => bind_congr fun table => ?_
  refine Change.forM_congr fun clause hmem => ?_
  obtain ⟨hclause, hend, hname⟩ := hclauses clause hmem
  exact applyNested_clauseText hclause hend hname 1

/-- In a statement of several operations, the statement made from a clause is read like the clause
unless the name is misread and one of the two can be read.  Where no name is misread, the statement
carries out the operations of its clauses on its table, one after the other. -/
theorem readsAlike_of_several {text : String}
    (hread : Statement.read origin text = .ok (.alterTable ⟨name, guard, .several clauses⟩)) :
    (∀ clause ∈ clauses, clause.toList.getLast? ≠ some ';' →
      (ReadsAlike origin name clause ↔ ¬IsMisread name clause ∨ Unreadable origin name clause)) ∧
    ((∀ clause ∈ clauses, clause.toList.getLast? ≠ some ';' ∧ ¬IsMisread name clause) →
      (Statement.alterTable ⟨name, guard, .several clauses⟩).apply origin =
        applyEach origin name guard clauses) := by
  constructor
  · intro clause hclause hend
    exact readsAlike_iff (isClause_of_read hread hclause) hend
  · intro hclauses
    refine apply_several fun clause hclause => ⟨isClause_of_read hread hclause, ?_⟩
    exact hclauses clause hclause

/-- A name that is no word of the header survives. -/
theorem readsAlike_of_several_plain :
    Statement.read ⟨"1.sql", .postgres⟩ "ALTER TABLE t ADD a text, DROP b" =
      .ok (.alterTable ⟨⟨none, "t"⟩, false, .several ["ADD a text", "DROP b"]⟩) ∧
    ReadsAlike ⟨"1.sql", .postgres⟩ ⟨none, "t"⟩ "DROP b" ∧
    (Statement.alterTable ⟨⟨none, "t"⟩, false, .several ["ADD a text", "DROP b"]⟩).apply
        ⟨"1.sql", .postgres⟩ =
      applyEach ⟨"1.sql", .postgres⟩ ⟨none, "t"⟩ false ["ADD a text", "DROP b"] := by
  have hread : Statement.read ⟨"1.sql", .postgres⟩ "ALTER TABLE t ADD a text, DROP b" =
      .ok (.alterTable ⟨⟨none, "t"⟩, false, .several ["ADD a text", "DROP b"]⟩) := by
    decide +kernel
  obtain ⟨hclauses, happly⟩ := readsAlike_of_several hread
  refine ⟨hread, ?_, happly (by decide +kernel)⟩
  exact (hclauses "DROP b" (by decide) (by decide)).mpr (Or.inl (by decide +kernel))

/-- A quoted `only` is printed without its quotes, and the next word is taken for the name. -/
theorem not_readsAlike_only :
    ¬∀ (origin : Origin) (text : String) (name : ObjectName) (guard : Bool) (clauses : List String),
      Statement.read origin text = .ok (.alterTable ⟨name, guard, .several clauses⟩) →
        ∀ clause ∈ clauses, clause.toList.getLast? ≠ some ';' → ReadsAlike origin name clause := by
  intro hall
  have halike := hall ⟨"1.sql", .postgres⟩ "ALTER TABLE \x22only\x22 ADD a text, DROP b"
    ⟨none, "only"⟩ false ["ADD a text", "DROP b"] (by decide +kernel) "DROP b" (by decide)
    (by decide)
  obtain ⟨guard, hguard⟩ := halike.2 (.alterTable ⟨⟨none, "DROP"⟩, false, .unsupported "b"⟩)
    (.dropColumn "b" false) (by decide +kernel) (by decide +kernel)
  simp at hguard

end Carry

end AlterTable

end Schemata
