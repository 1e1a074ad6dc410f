import Schemata.Proofs.Rejection
import Schemata.Proofs.Statement.ColumnDeclaration
import Schemata.Proofs.Text.Opening

/-!
# Statements about quoted tables

A name in double quotes is one word, is no keyword, and is read back whatever it holds.  A statement
about a quoted table is therefore the operation of its clause, and there is no name that its header
could misread.

Statements come in two ways.  Of some the whole text is known, as of those that drop something: they
are read as one operation, given in full.  Of others only the opening is known, and what comes
behind it may be anything, more clauses included: they have one operation, read from a text with the
same opening, or they have several.

* `AlterTable.read_quoted`: the statement with one clause is the operation of that clause.
* `AlterTable.read_opening`: of a clause with a known opening the statement has one operation, read
  from a text with that opening, or it has several.
* `Operation.read_addColumn`, `Operation.read_addConstraint`, `Operation.read_dropColumn`,
  `Operation.read_dropConstraint`: the operations that add and drop, from their texts.
* `AlterTable.read_addColumnText`, `AlterTable.read_addConstraintText`,
  `AlterTable.read_dropColumn`, `AlterTable.read_dropConstraint`: the statements of these.
-/

namespace Schemata

/-! ## Words that are put together -/

namespace Text

section Unwords

variable {word : String} {list others : List String}

theorem toList_unwords_append (hlist : list ≠ []) (hothers : others ≠ []) :
    (unwords (list ++ others)).toList =
      (unwords list).toList ++ ' ' :: (unwords others).toList := by
  rw [unwords, String.intercalate_append_of_ne_nil hlist hothers, String.toList_append,
    String.toList_append, List.append_assoc]
  rfl

theorem toList_unwords_cons (word : String) (hne : list ≠ []) :
    (unwords (word :: list)).toList = word.toList ++ ' ' :: (unwords list).toList :=
  toList_unwords_append (List.cons_ne_nil word []) hne

theorem words_unwords_cons (hword : Chars.IsWord word.toList) (hne : list ≠ []) :
    words (unwords (word :: list)) = word :: words (unwords list) := by
  rw [words, toList_unwords_cons word hne,
    Chars.words_append_cons hword.uncut_blank hword.run_top hword.ne_nil rfl, List.map_cons,
    String.ofList_toList]
  rfl

/-- A clause with words behind it is a clause. -/
theorem isItem_unwords_cons {text : String} (htext : Chars.IsItem text.toList)
    (hwords : ∀ word ∈ list, Chars.IsWord word.toList) (hne : list ≠ []) :
    Chars.IsItem (unwords (text :: list)).toList := by
  have hlisted := isListed_unwords hwords hne
  have hspace : Chars.Balanced [' '] := Chars.balanced_singleton rfl
  have hbalanced : Chars.Balanced (unwords (text :: list)).toList := by
    rw [toList_unwords_cons text hne]
    exact htext.toBalanced.append (hspace.append hlisted.toBalanced)
  refine ⟨hbalanced, ?_, trim_ne_nil hbalanced.run_top ?_⟩
  · rw [toList_unwords_cons text hne, Chars.uncut_append, htext.run_top]
    exact ⟨htext.uncut, rfl, hlisted.uncut⟩
  · rw [words_unwords_append htext.toBalanced hwords]
    exact List.append_ne_nil_of_right_ne_nil _ hne

theorem afterWords_unwords_cons (hword : Chars.IsWord word.toList) (hne : list ≠ [])
    (count : Nat) :
    afterWords (count + 1) (unwords (word :: list)) = afterWords count (unwords list) := by
  rw [afterWords, toList_unwords_cons word hne,
    Chars.afterWords_append_cons hword.uncut_blank hword.run_top hword.ne_nil rfl]
  rfl

theorem trim_afterWords_zero (text : String) : trim (afterWords 0 text) = trim text := by
  have hstart : Chars.trimStart (Chars.trimStart text.toList) = Chars.trimStart text.toList :=
    Chars.trimStart_eq_self fun _ hc => Chars.head?_trimStart _ hc
  rw [trim, afterWords, String.toList_ofList, Chars.afterWords, Chars.trim, hstart]
  rfl

/-- A text that opens with words is the first of them and a text that opens with the others. -/
theorem exists_of_opens_unwords (hlist : list ≠ []) (hothers : others ≠ []) {text : String}
    (hopens : Chars.Opens (unwords (list ++ others)).toList text.toList) :
    ∃ rest : String, text = unwords (list ++ [rest]) ∧
      Chars.Opens (unwords others).toList rest.toList := by
  rw [toList_unwords_append hlist hothers, List.append_cons] at hopens
  obtain ⟨rest, htext, hrest⟩ := Chars.opens_append_iff.mp hopens
  refine ⟨String.ofList rest, String.toList_inj.mp ?_, by rwa [String.toList_ofList]⟩
  have hsingle : unwords [String.ofList rest] = String.ofList rest := String.intercalate_singleton
  rw [toList_unwords_append hlist (List.cons_ne_nil _ _), htext, hsingle, String.toList_ofList,
    List.append_assoc, List.singleton_append]

end Unwords

end Text

/-! ## Names in quotes -/

namespace ObjectName

variable {cut : Char → Bool}

/-- The written form of a name with each of its parts in double quotes. -/
def quoted (name : ObjectName) : String :=
  match name.schema with
  | some schema => Text.quoted '\x22' schema ++ "." ++ Text.quoted '\x22' name.base
  | none => Text.quoted '\x22' name.base

theorem toList_quoted (name : ObjectName) :
    name.quoted.toList = match name.schema with
      | some schema =>
          Chars.quoted '\x22' schema.toList ++ '.' :: Chars.quoted '\x22' name.base.toList
      | none => Chars.quoted '\x22' name.base.toList := by
  unfold quoted Text.quoted
  cases name.schema with
  | none => rw [String.toList_ofList]
  | some schema =>
      simp only [String.toList_append, String.toList_ofList]
      rw [List.append_assoc]
      rfl

theorem isPart_quoted (part : String) : IsPart (Chars.quoted '\x22' part.toList) := by
  refine ⟨⟨Chars.whole_quoted rfl part.toList, List.cons_ne_nil _ _⟩, rfl, ?_⟩
  exact (Chars.uncut_double rfl rfl part.toList).1

/-- A quoted name is one word. -/
theorem isWord_quoted (name : ObjectName) : Chars.IsWord name.quoted.toList := by
  have hdot : Chars.Whole ['.'] :=
    Chars.whole_of_plain (List.forall_mem_singleton.mpr (by decide))
      (List.forall_mem_singleton.mpr (by decide))
  rw [toList_quoted]
  split
  · exact ⟨(isPart_quoted _).toWhole.append (hdot.append (isPart_quoted _).toWhole),
      List.append_ne_nil_of_right_ne_nil _ (List.cons_ne_nil _ _)⟩
  · exact (isPart_quoted _).toIsWord

/-- A quoted name holds no group of its own. -/
theorem uncut_quoted (name : ObjectName) : Chars.Uncut (· == '(') .top name.quoted.toList := by
  have hpart : ∀ part : String, Chars.Uncut (· == '(') .top (Chars.quoted '\x22' part.toList) :=
    fun part => ⟨rfl, (Chars.uncut_double rfl rfl part.toList).1⟩
  rw [toList_quoted]
  split
  · rw [Chars.uncut_append, (isPart_quoted _).run_top]
    exact ⟨hpart _, rfl, hpart _⟩
  · exact hpart _

/-- A quoted name is no keyword. -/
theorem isKeyword_quoted (name : ObjectName) {keyword : String}
    (hkeyword : Chars.isBare (keyword.toList.map Char.toLower) = true) :
    Text.isKeyword name.quoted keyword = false := by
  refine Text.isKeyword_eq_false (c := '\x22') name.uncut_quoted hkeyword ?_ (by decide)
  rw [toList_quoted]
  split <;> exact List.mem_cons_self

/-- Reading a quoted name gives the name back. -/
theorem read_quoted (name : ObjectName) : read name.quoted = name := by
  have hunquote : ∀ part : String,
      String.ofList (Chars.unquoteIdentifier (Chars.quoted '\x22' part.toList)) = part := by
    intro part
    have hback := Text.unquoteIdentifier_quoted part
    rwa [Text.unquoteIdentifier, Text.quoted, String.toList_ofList] at hback
  obtain ⟨schema, base⟩ := name
  have hchars := toList_quoted ⟨schema, base⟩
  cases schema with
  | none =>
      rw [← String.ofList_toList (s := quoted ⟨none, base⟩), hchars,
        read_part (isPart_quoted base), hunquote]
  | some schema =>
      rw [← String.ofList_toList (s := quoted ⟨some schema, base⟩), hchars,
        read_parts (isPart_quoted schema) (isPart_quoted base), hunquote, hunquote]

end ObjectName

/-! ## `ALTER TABLE` -/

namespace AlterTable

variable {origin : Origin} {name : ObjectName} {clause opening : String}

theorem header?_quoted (name : ObjectName) (words : List String) :
    header? (name.quoted :: words) = some (false, 1, name.quoted) := by
  have honly : Text.isKeyword name.quoted "only" = false := name.isKeyword_quoted (by decide)
  have hguard : Text.startWithKeywords (name.quoted :: words) ["if", "exists"] = false := by
    rw [Text.startWithKeywords, name.isKeyword_quoted (by decide), Bool.false_and]
  rw [header?, hguard, if_neg Bool.false_ne_true, named?, honly, if_neg Bool.false_ne_true]
  rfl

/-- The statement with one clause is the operation of that clause. -/
theorem read_quoted (hclause : IsClause clause) (hend : clause.toList.getLast? ≠ some ';') :
    Statement.read origin (statementText name.quoted clause) =
      (Operation.read origin name.base clause).map
        fun operation => .alterTable ⟨name, false, operation⟩ := by
  rw [read_statementText name.isWord_quoted hclause hend (header?_quoted name _),
    ObjectName.read_quoted]

section Opening

variable {text : String}

/-- What is read of a text that opens with a statement has the same keywords and name in front, and
behind them a text that opens with the clause. -/
theorem exists_body_eq_of_opens (hopening : IsClause opening)
    (hend : opening.toList.getLast? ≠ some ';')
    (htext : Chars.Opens (statementText name.quoted opening).toList text.toList) :
    ∃ kept : String, Statement.body text = statementText name.quoted kept ∧
      Chars.Opens opening.toList kept.toList := by
  have hne : (statementText name.quoted opening).toList ≠ [] := by
    rw [toList_statementText]
    exact List.cons_ne_nil _ _
  have hlast : (statementText name.quoted opening).toList.getLast? ≠ some ';' := by
    rwa [getLast?_statementText hopening]
  have hbody := htext.body (trimmed_statementText hopening) hne hlast
  rw [statementText, String.toList_append] at hbody
  obtain ⟨behind, hchars, hbehind⟩ := Chars.opens_append_iff.mp hbody
  refine ⟨String.ofList behind, String.toList_inj.mp ?_, by rwa [String.toList_ofList]⟩
  rw [hchars, statementText]
  simp only [String.toList_append, String.toList_ofList]

/-- Behind the header stands first a clause with the known opening. -/
theorem readHeader_of_opens (name : ObjectName) (hopening : Chars.IsListed opening.toList)
    {kept : String} (hkept : Chars.Opens opening.toList kept.toList) (file : String) :
    ∃ (clause : String) (others : List String), Chars.Opens opening.toList clause.toList ∧
      readHeader.ofText file (statementText name.quoted kept) =
        .ok (name, false, clause :: others) := by
  have hafter : Text.trim (Text.afterWords (2 + 1) (statementText name.quoted kept)) =
      Text.trim kept := by
    have hstart := hkept.trimStart hopening.toTrimmed hopening.ne_nil
    rw [afterWords_statementText name.isWord_quoted kept 0, Text.afterWords, Chars.afterWords,
      hstart, String.ofList_toList]
  obtain ⟨first, others, hsplit, hfirst⟩ :=
    (hkept.trim hopening.toTrimmed hopening.ne_nil).split hopening
  refine ⟨String.ofList first, others.map String.ofList, by rwa [String.toList_ofList], ?_⟩
  rw [readHeader_ofText (words_statementText name.isWord_quoted kept), header?_quoted]
  dsimp only
  rw [headed, hafter, ObjectName.read_quoted, Text.clauses, Text.split, Text.trim,
    String.toList_ofList, hsplit]
  rfl

/-- A statement of which the clause has a known opening has one operation, read from a text with
that opening, or it has several. -/
theorem read_opening {statement : Statement} (hopening : Chars.IsListed opening.toList)
    (hend : opening.toList.getLast? ≠ some ';')
    (htext : Chars.Opens (statementText name.quoted opening).toList text.toList)
    (hread : Statement.read origin text = .ok statement) :
    ∃ operation, statement = .alterTable ⟨name, false, operation⟩ ∧
      ((∃ clause : String, Chars.Opens opening.toList clause.toList ∧
          Operation.read origin name.base clause = .ok operation) ∨
        ∃ clauses, operation = .several clauses) := by
  have hclause : IsClause opening := ⟨hopening.uncut, hopening.toTrimmed, hopening.ne_nil⟩
  -- the opening survives the loss of blanks and semicolons, and then the cut into clauses
  obtain ⟨kept, hbody, hkept⟩ := exists_body_eq_of_opens hclause hend htext
  have hwords : Text.words (Statement.body text) =
      "ALTER" :: "TABLE" :: name.quoted :: Text.words kept := by
    rw [hbody, words_statementText name.isWord_quoted]
  rw [Statement.read_alterTable hwords, hbody, except_map_eq_ok] at hread
  obtain ⟨inner, hinner, rfl⟩ := hread
  obtain ⟨clauses, hheader, hclauses⟩ := read_cases hinner
  obtain ⟨first, others, hfirst, hfound⟩ := readHeader_of_opens name hopening hkept origin.file
  rw [hfound] at hheader
  simp only [Except.ok.injEq, Prod.mk.injEq] at hheader
  obtain ⟨hname, hguard, rfl⟩ := hheader
  refine ⟨inner.operation, by rw [hname, hguard], ?_⟩
  rcases hclauses with ⟨clause, hsingle, hoperation⟩ | ⟨-, hseveral⟩
  · rw [← hname, ← (List.cons.inj hsingle).1] at hoperation
    exact Or.inl ⟨first, hfirst, hoperation⟩
  · exact Or.inr ⟨_, hseveral⟩

end Opening

end AlterTable

/-! ## Operations that add and drop -/

namespace Operation

variable {origin : Origin} {table file text : String} {words : List String}

/-- What follows `ADD` is read on its own. -/
theorem readOutline_add (file : String) (hwords : Text.words text = "ADD" :: words) :
    readOutline.ofText file text = Reading.outcome (readAdd.run ⟨file, text, 1, words⟩) := by
  have hadd : Text.isKeyword "ADD" "add" = true := by decide
  have hstart : Reader.start file text = ⟨file, text, 0, "ADD" :: words⟩ := by
    rw [Reader.start, hwords]
  rw [Reading.ofText_eq_outcome, hstart, readOutline, Reading.run_accept_else,
    Reading.nextIs_cons, if_pos hadd, Reading.skip_one_cons]

/-- Behind `ADD COLUMN` the rest of the text is a column, if it is not empty and not guarded. -/
theorem outcome_readAdd_column (file text : String) (hne : words ≠ [])
    (hguard : Text.startWithKeywords words ["if", "not", "exists"] = false) :
    Reading.outcome (readAdd.run ⟨file, text, 1, "COLUMN" :: words⟩) =
      .ok (.column (Text.trim (Text.afterWords 2 text)) false) := by
  have hkeyword : Text.isKeyword "COLUMN" "column" = true := by decide
  have hconstraint : Text.isAnyKeyword "COLUMN" constraintKeywords = false := by decide
  obtain ⟨first, others, rfl⟩ := List.exists_cons_of_ne_nil hne
  rw [readAdd, Reading.run_get_bind, Reading.peek_cons, Option.any_some, hconstraint,
    if_neg Bool.false_ne_true, EStateM.run_bind, Reading.run_discard, Reading.run_accept,
    Reading.nextIs_cons, if_pos hkeyword, Reading.skip_one_cons]
  dsimp only
  rw [EStateM.run_bind, Reading.run_acceptAll, hguard, if_neg Bool.false_ne_true]
  rfl

/-- Behind `ADD` the rest of the text is a constraint, if it starts with a keyword of one. -/
theorem outcome_readAdd_constraint (file text : String) {word : String} (others : List String)
    (hword : Text.isAnyKeyword word constraintKeywords = true) :
    Reading.outcome (readAdd.run ⟨file, text, 1, word :: others⟩) =
      .ok (.constraint (Text.trim (Text.afterWords 1 text))) := by
  rw [readAdd, Reading.run_get_bind, Reading.peek_cons, Option.any_some, hword, if_pos rfl]
  rfl

theorem isWord_add : Chars.IsWord "ADD".toList :=
  Chars.IsNameWord.isWord (by decide)

theorem isWord_column : Chars.IsWord "COLUMN".toList :=
  Chars.IsNameWord.isWord (by decide)

variable {added : String}

/-- `ADD COLUMN` adds the column that the rest of the text declares. -/
theorem read_addColumn (hne : Text.words added ≠ [])
    (hguard : Text.startWithKeywords (Text.words added) ["if", "not", "exists"] = false) :
    read origin table (Text.unwords ["ADD", "COLUMN", added]) =
      (ColumnDefinition.read origin table (Text.trim added)).map (addColumn · false) := by
  have hadded : Text.unwords [added] = added := String.intercalate_singleton
  have hwords : Text.words (Text.unwords ["ADD", "COLUMN", added]) =
      "ADD" :: "COLUMN" :: Text.words added := by
    rw [Text.words_unwords_cons isWord_add (List.cons_ne_nil _ _),
      Text.words_unwords_cons isWord_column (List.cons_ne_nil _ _), hadded]
  have hafter : Text.trim (Text.afterWords 2 (Text.unwords ["ADD", "COLUMN", added])) =
      Text.trim added := by
    rw [Text.afterWords_unwords_cons isWord_add (List.cons_ne_nil _ _),
      Text.afterWords_unwords_cons isWord_column (List.cons_ne_nil _ _), hadded,
      Text.trim_afterWords_zero]
  rw [read, readOutline_add origin.file hwords, outcome_readAdd_column origin.file _ hne hguard,
    hafter, except_ok_bind]
  dsimp only
  generalize ColumnDefinition.read origin table (Text.trim added) = definition
  cases definition <;> rfl

/-- `ADD` adds the constraint that the rest of the text declares, if that starts as one. -/
theorem read_addConstraint {word : String} {others : List String}
    (hwords : Text.words added = word :: others)
    (hword : Text.isAnyKeyword word constraintKeywords = true) :
    read origin table (Text.unwords ["ADD", added]) =
      (TableConstraint.read? origin (Text.trim added)).map
        fun constraint => addConstraint (constraint.getD (.other (Text.trim added))) := by
  have hadded : Text.unwords [added] = added := String.intercalate_singleton
  have hall : Text.words (Text.unwords ["ADD", added]) = "ADD" :: word :: others := by
    rw [Text.words_unwords_cons isWord_add (List.cons_ne_nil _ _), hadded, hwords]
  have hafter : Text.trim (Text.afterWords 1 (Text.unwords ["ADD", added])) = Text.trim added := by
    rw [Text.afterWords_unwords_cons isWord_add (List.cons_ne_nil _ _), hadded,
      Text.trim_afterWords_zero]
  rw [read, readOutline_add origin.file hall, outcome_readAdd_constraint origin.file _ others hword,
    hafter, except_ok_bind]
  dsimp only
  generalize TableConstraint.read? origin (Text.trim added) = constraint
  cases constraint <;> rfl

/-- What follows `DROP` is the whole operation. -/
theorem reads_drop {operation : Operation} {words : List String}
    (hdrop : Reading.Reads readDrop words operation []) :
    Reading.Reads readOutline ("DROP" :: words) (.whole operation) [] := by
  have hnot : ∀ word ∈ ("DROP" :: words).head?, Text.isKeyword word "add" = false := by
    intro word hword
    obtain rfl := Option.mem_some_iff.mp hword
    decide
  refine (Reading.reads_accept_none hnot).bind ?_
  rw [if_neg Bool.false_ne_true]
  refine (Reading.reads_accept (by decide) words).bind ?_
  rw [if_pos rfl]
  exact hdrop.bind (Reading.reads_pure _ _)

/-- Nothing more stands behind what is dropped. -/
theorem reads_expectDropEnd : Reading.Reads expectDropEnd [] () [] := by
  have hnone : ∀ word ∈ ([] : List String).head?,
      Text.isAnyKeyword word ["cascade", "restrict"] = false :=
    fun _ hword => nomatch hword
  exact (Reading.reads_acceptAny_none hnone).discard.bind Reading.reads_expectEnd

/-- A quoted name is no guard. -/
theorem reads_unguarded (name : String) : Reading.Reads (Reading.acceptAll ["if", "exists"])
    [Text.quoted '\x22' name] false [Text.quoted '\x22' name] := by
  have hguard : Text.startWithKeywords [Text.quoted '\x22' name] ["if", "exists"] = false := by
    rw [Text.startWithKeywords, Text.isKeyword_quoted name (by decide), Bool.false_and]
  exact Reading.reads_acceptAll_none hguard

theorem reads_readDrop_column (column : String) :
    Reading.Reads readDrop ["COLUMN", Text.quoted '\x22' column] (dropColumn column false) [] := by
  have hnot : ∀ word ∈ ["COLUMN", Text.quoted '\x22' column].head?,
      Text.isKeyword word "constraint" = false := by
    intro word hword
    obtain rfl := Option.mem_some_iff.mp hword
    decide
  refine (Reading.reads_accept_none hnot).bind ?_
  rw [if_neg Bool.false_ne_true]
  refine (Reading.reads_accept (by decide) _).discard.bind ?_
  refine (reads_unguarded column).bind ?_
  refine (Reading.reads_expectIdentifier _ _ _).bind ?_
  rw [Text.unquoteIdentifier_quoted]
  exact reads_expectDropEnd.bind (Reading.reads_pure _ _)

theorem reads_readDrop_constraint (name : String) :
    Reading.Reads readDrop ["CONSTRAINT", Text.quoted '\x22' name] (dropConstraint name false)
      [] := by
  refine (Reading.reads_accept (by decide) _).bind ?_
  rw [if_pos rfl]
  refine (reads_unguarded name).bind ?_
  refine (Reading.reads_expectIdentifier _ _ _).bind ?_
  rw [Text.unquoteIdentifier_quoted]
  exact reads_expectDropEnd.bind (Reading.reads_pure _ _)

theorem read_whole {operation : Operation} {rest : List String}
    (houtline : Reading.Reads readOutline (Text.words text) (.whole operation) rest) :
    read origin table text = .ok operation := by
  rw [read, houtline.ofText origin.file]
  rfl

theorem isWord_of_mem_drop {keyword : String} (hkeyword : Chars.IsNameWord keyword.toList)
    {name word : String} (hword : word ∈ ["DROP", keyword, Text.quoted '\x22' name]) :
    Chars.IsWord word.toList := by
  have hdrop : Chars.IsNameWord "DROP".toList := by decide
  simp only [List.mem_cons, List.not_mem_nil, or_false] at hword
  rcases hword with rfl | rfl | rfl
  · exact hdrop.isWord
  · exact hkeyword.isWord
  · exact Text.isWord_quoted rfl name

theorem words_drop {keyword : String} (hkeyword : Chars.IsNameWord keyword.toList)
    (name : String) :
    Text.words (Text.unwords ["DROP", keyword, Text.quoted '\x22' name]) =
      ["DROP", keyword, Text.quoted '\x22' name] :=
  Text.words_unwords fun _ hword => isWord_of_mem_drop hkeyword hword

/-- `DROP COLUMN` drops the column of the name. -/
theorem read_dropColumn (origin : Origin) (table column : String) :
    read origin table (Text.unwords ["DROP", "COLUMN", Text.quoted '\x22' column]) =
      .ok (dropColumn column false) := by
  have houtline := reads_drop (reads_readDrop_column column)
  rw [← words_drop (by decide)] at houtline
  exact read_whole houtline

/-- `DROP CONSTRAINT` drops the constraint of the name. -/
theorem read_dropConstraint (origin : Origin) (table name : String) :
    read origin table (Text.unwords ["DROP", "CONSTRAINT", Text.quoted '\x22' name]) =
      .ok (dropConstraint name false) := by
  have houtline := reads_drop (reads_readDrop_constraint name)
  rw [← words_drop (by decide)] at houtline
  exact read_whole houtline

end Operation

/-! ## Statements that add -/

namespace AlterTable

variable {origin : Origin} {name : ObjectName} {added keyword word : String}
  {others : List String}

theorem isClause_of_isListed {clause : String} (hlisted : Chars.IsListed clause.toList) :
    IsClause clause :=
  ⟨hlisted.uncut, hlisted.toTrimmed, hlisted.ne_nil⟩

/-- A statement that adds is the operation of its clause. -/
theorem read_added (origin : Origin) (name : ObjectName) {keywords : List String}
    (hkeywords : ∀ keyword ∈ keywords, Chars.IsNameWord keyword.toList)
    (hadded : Chars.IsListed added.toList) (hlast : added.toList.getLast? ≠ some ';') :
    Statement.read origin (statementText name.quoted (Text.unwords (keywords ++ [added]))) =
      (Operation.read origin name.base (Text.unwords (keywords ++ [added]))).map
        fun operation => .alterTable ⟨name, false, operation⟩ := by
  have hparts : ∀ part ∈ keywords ++ [added], Chars.IsListed part.toList :=
    List.forall_mem_append.mpr
      ⟨fun keyword hkeyword => (hkeywords keyword hkeyword).isWord.isListed,
        List.forall_mem_singleton.mpr hadded⟩
  have hne : keywords ++ [added] ≠ [] :=
    List.append_ne_nil_of_right_ne_nil _ (List.cons_ne_nil added [])
  refine read_quoted (isClause_of_isListed (Text.isListed_unwords_of_parts hparts hne)) ?_
  rwa [Text.getLast?_unwords_concat keywords hadded.ne_nil]

/-- A statement that adds a column to a table of a quoted name. -/
def addColumnText (name : ObjectName) (clause : String) : String :=
  statementText name.quoted (Text.unwords ["ADD", "COLUMN", clause])

/-- The statement adds what its clause declares.  No type starts with `NOT`, so that the clause is
no guard. -/
theorem read_addColumnText (hadded : Chars.IsListed added.toList)
    (hlast : added.toList.getLast? ≠ some ';') {first second : String}
    (hwords : Text.words added = first :: second :: others)
    (hsecond : isColumnKeyword second = false) :
    Statement.read origin (addColumnText name added) =
      (ColumnDefinition.read origin name.base added).map
        fun definition => .alterTable ⟨name, false, .addColumn definition false⟩ := by
  -- a guard would have `NOT` as its second word, where the type stands
  have hguard : Text.startWithKeywords (Text.words added) ["if", "not", "exists"] = false := by
    have hnot : Text.isKeyword second "not" = false := by
      by_contra hkeyword
      have hany : isColumnKeyword second = true :=
        List.any_eq_true.mpr ⟨"not", by decide, by simpa using hkeyword⟩
      rw [hsecond] at hany
      cases hany
    rw [hwords, Text.startWithKeywords, Text.startWithKeywords, hnot, Bool.false_and,
      Bool.and_false]
  have hkeywords : ∀ keyword ∈ ["ADD", "COLUMN"], Chars.IsNameWord keyword.toList := by decide
  have hread := read_added origin name hkeywords hadded hlast
  rw [List.cons_append, List.cons_append, List.nil_append,
    Operation.read_addColumn (hwords ▸ List.cons_ne_nil _ _) hguard,
    Text.trim_eq_self hadded.toTrimmed] at hread
  rw [addColumnText, hread]
  cases ColumnDefinition.read origin name.base added <;> rfl

/-- A statement that adds a constraint to a table of a quoted name. -/
def addConstraintText (name : ObjectName) (constraint : String) : String :=
  statementText name.quoted (Text.unwords ["ADD", constraint])

/-- The statement adds the constraint that its clause declares. -/
theorem read_addConstraintText (hadded : Chars.IsListed added.toList)
    (hlast : added.toList.getLast? ≠ some ';') (hwords : Text.words added = word :: others)
    (hword : Text.isAnyKeyword word constraintKeywords = true) :
    Statement.read origin (addConstraintText name added) =
      (TableConstraint.read? origin added).map fun constraint =>
        .alterTable ⟨name, false, .addConstraint (constraint.getD (.other added))⟩ := by
  have hkeywords : ∀ keyword ∈ ["ADD"], Chars.IsNameWord keyword.toList := by decide
  have hread := read_added origin name hkeywords hadded hlast
  rw [List.cons_append, List.nil_append, Operation.read_addConstraint hwords hword,
    Text.trim_eq_self hadded.toTrimmed] at hread
  rw [addConstraintText, hread]
  cases TableConstraint.read? origin added <;> rfl

/-! ## Statements that drop -/

/-- A statement that drops a column or a constraint of a quoted name. -/
def dropText (name : ObjectName) (keyword dropped : String) : String :=
  statementText name.quoted (Text.unwords ["DROP", keyword, Text.quoted '\x22' dropped])

/-- A statement that drops is the operation of its clause. -/
theorem read_dropText (hkeyword : Chars.IsNameWord keyword.toList) (origin : Origin)
    (name : ObjectName) (dropped : String) :
    Statement.read origin (dropText name keyword dropped) =
      (Operation.read origin name.base
        (Text.unwords ["DROP", keyword, Text.quoted '\x22' dropped])).map
          fun operation => .alterTable ⟨name, false, operation⟩ := by
  have hword : Chars.IsWord (Text.quoted '\x22' dropped).toList := Text.isWord_quoted rfl dropped
  refine read_quoted (isClause_of_isListed (Text.isListed_unwords
    (fun _ hmem => Operation.isWord_of_mem_drop hkeyword hmem) (List.cons_ne_nil _ _))) ?_
  have hlast := Text.getLast?_unwords_concat ["DROP", keyword] hword.ne_nil
  rw [Text.getLast?_quoted] at hlast
  intro hsemicolon
  cases hsemicolon.symm.trans hlast

theorem read_dropColumn (origin : Origin) (name : ObjectName) (column : String) :
    Statement.read origin (dropText name "COLUMN" column) =
      .ok (.alterTable ⟨name, false, .dropColumn column false⟩) := by
  rw [read_dropText (by decide), Operation.read_dropColumn, except_map_ok]

theorem read_dropConstraint (origin : Origin) (name : ObjectName) (constraint : String) :
    Statement.read origin (dropText name "CONSTRAINT" constraint) =
      .ok (.alterTable ⟨name, false, .dropConstraint constraint false⟩) := by
  rw [read_dropText (by decide), Operation.read_dropConstraint, except_map_ok]

end AlterTable

end Schemata
