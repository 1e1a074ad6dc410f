import Schemata.Proofs.Statement.KeyDeclaration
import Schemata.Proofs.Statement.Quoted
import Schemata.Proofs.Statement.Suffix

/-!
# References as written

A reference is written with the word `REFERENCES`, a table, a column or none, and actions.  It can
stand behind a column definition or in a foreign key of the table, and in both places it is read as
the same key, or refused.

The written form is data (`WrittenReference`), with its words and the constraint that it means
beside it.  The words are read once, in front of any words that end the reference
(`ReferenceOption.EndsAt`), and the two places differ only in what is read before.

* `WrittenReference.reads_read`, `WrittenReference.fails_read`: the reference alone.
* `WrittenReference.read_column_iff`: behind a column definition.
* `WrittenReference.read?_table_iff`: in a foreign key of a table.
-/

namespace Schemata

/-! ## Actions -/

namespace ReferentialAction

/-- The words of the action, one by one. -/
def words : ReferentialAction → List String
  | noAction => ["NO", "ACTION"]
  | restrict => ["RESTRICT"]
  | cascade => ["CASCADE"]
  | setNull => ["SET", "NULL"]
  | setDefault => ["SET", "DEFAULT"]

theorem ofWords?_words (action : ReferentialAction) (rest : List String) :
    ofWords? (action.words ++ rest) = some (action, action.words.length) := by
  have hno : Text.lower "NO" = "no" ∧ Text.lower "ACTION" = "action" := by decide +kernel
  have hone : Text.lower "RESTRICT" = "restrict" ∧ Text.lower "CASCADE" = "cascade" := by
    decide +kernel
  have hset : Text.lower "SET" = "set" ∧ Text.lower "NULL" = "null" ∧
      Text.lower "DEFAULT" = "default" := by decide +kernel
  cases action <;> simp [ofWords?, words, hno, hone, hset]

end ReferentialAction

/-- What an action of a reference is for. -/
inductive ReferenceEvent where
  | delete
  | update
  deriving DecidableEq, Repr

namespace ReferenceEvent

/-- The keyword of the event. -/
def word : ReferenceEvent → String
  | delete => "DELETE"
  | update => "UPDATE"

/-- The option of a reference with this action. -/
def option : ReferenceEvent → ReferentialAction → ReferenceOption
  | delete, action => .onDelete action
  | update, action => .onUpdate action

end ReferenceEvent

namespace ReferenceOption

open Reading

/-- The words of an action for an event. -/
def actionWords (item : ReferenceEvent × ReferentialAction) : List String :=
  "ON" :: item.1.word :: item.2.words

theorem reads_read?_action (item : ReferenceEvent × ReferentialAction) (rest : List String) :
    Reads read? (actionWords item ++ rest) (some (item.1.option item.2)) rest := by
  obtain ⟨event, action⟩ := item
  have hall : actionWords (event, action) ++ rest =
      "ON" :: event.word :: (action.words ++ rest) := rfl
  rw [hall]
  refine (reads_accept (by decide) _).bind ?_
  rw [if_pos rfl]
  refine Reads.bind ?_ (reads_pure _ _)
  refine (reads_expectWord _ _ _).bind (reads_get_bind fun reader hwords => ?_)
  rw [hwords, action.ofWords?_words]
  dsimp only
  have hskip := reads_skip action.words.length (action.words ++ rest)
  rw [List.drop_left] at hskip
  refine hskip.bind ?_
  cases event with
  | delete =>
      rw [if_pos (by decide)]
      exact reads_pure _ _
  | update =>
      rw [if_neg (by decide), if_pos (by decide)]
      exact reads_pure _ _

/-- No option starts at a word that starts none. -/
theorem reads_read?_none {words : List String}
    (hnone : ∀ keyword ∈ ["on", "match", "initially", "deferrable"], ∀ word ∈ words.head?,
      Text.isKeyword word keyword = false)
    (hnot : Text.startWithKeywords words ["not", "deferrable"] = false) :
    Reads read? words none words := by
  refine (reads_accept_none (hnone "on" (by decide))).bind ?_
  rw [if_neg Bool.false_ne_true]
  refine (reads_accept_none (hnone "match" (by decide))).bind ?_
  rw [if_neg Bool.false_ne_true]
  refine (reads_accept_none (hnone "initially" (by decide))).bind ?_
  rw [if_neg Bool.false_ne_true]
  refine (reads_accept_none (hnone "deferrable" (by decide))).bind ?_
  rw [if_neg Bool.false_ne_true]
  exact (reads_acceptAll_none hnot).bind (reads_pure none words)

/-- A reference ends in front of the words: no option starts there, and no group. -/
structure EndsAt (rest : List String) : Prop where
  declines : Reads read? rest none rest
  closed : ∀ word ∈ rest.head?, (word.toList.head? == some '(') = false

theorem endsAt_nil : EndsAt [] where
  declines := reads_read?_none (fun _ _ _ hword => absurd hword (Option.not_mem_none _)) rfl
  closed _ hword := absurd hword (Option.not_mem_none _)

end ReferenceOption

/-! ## Words at the end of a statement -/

/-- A word that can end a statement, which loses a semicolon. -/
structure Chars.IsFinal (word : List Char) : Prop extends IsWord word where
  last_ne : word.getLast? ≠ some ';'

theorem Chars.IsFinal.append {first second : List Char} (hfirst : IsFinal first)
    (hsecond : IsFinal second) : IsFinal (first ++ second) where
  toWhole := hfirst.toWhole.append hsecond.toWhole
  ne_nil := List.append_ne_nil_of_right_ne_nil first hsecond.ne_nil
  last_ne := by
    rw [List.getLast?_append_of_ne_nil first hsecond.ne_nil]
    exact hsecond.last_ne

theorem Chars.IsNameWord.isFinal {word : List Char} (hword : IsNameWord word) :
    IsFinal word where
  toIsWord := hword.isWord
  last_ne hlast :=
    ne_of_isNameChar (hword.chars ';' (List.mem_of_getLast? hlast)) (by decide) rfl

theorem ReferenceOption.isFinal_of_mem_actionWords {item : ReferenceEvent × ReferentialAction}
    {word : String} (hword : word ∈ actionWords item) : Chars.IsFinal word.toList := by
  obtain ⟨event, action⟩ := item
  have hplain : ∀ word ∈ actionWords (event, action),
      Chars.IsNameWord word.toList := by
    cases event <;> cases action <;> decide
  exact (hplain word hword).isFinal

theorem Text.isFinal_columnGroup (columns : List String) :
    Chars.IsFinal (columnGroup columns).toList where
  toIsWord := isWord_columnGroup columns
  last_ne := by
    rw [columnGroup, toList_group, ← List.cons_append, List.getLast?_concat]
    decide

theorem ObjectName.isFinal_quoted (name : ObjectName) : Chars.IsFinal name.quoted.toList where
  toIsWord := name.isWord_quoted
  last_ne := by
    have hlast : name.quoted.toList.getLast? = some '\x22' := by
      unfold quoted
      split
      · rw [String.toList_append, List.getLast?_append, Text.getLast?_quoted]
        rfl
      · exact Text.getLast?_quoted _ _
    rw [hlast]
    decide

/-- Columns right behind a quoted name are the group of the word. -/
theorem ObjectName.call_columnGroup (name : ObjectName) (columns : List String) :
    Text.head (name.quoted ++ Text.columnGroup columns) = name.quoted ∧
      Text.group? (name.quoted ++ Text.columnGroup columns) =
        some (Text.listed 1 (columns.map (Text.quoted '\x22'))) := by
  have hchars : (name.quoted ++ Text.columnGroup columns).toList = name.quoted.toList ++
      '(' :: ((Text.listed 1 (columns.map (Text.quoted '\x22'))).toList ++ ')' :: []) := by
    rw [String.toList_append, Text.columnGroup, Text.toList_group]
  have hcall := Chars.call_group name.uncut_quoted name.isWord_quoted.run_top
    (Text.balanced_columns columns) []
  rw [← hchars, Chars.trimEnd_eq_self name.isWord_quoted.last] at hcall
  rw [Text.head, Text.group?, Text.call, hcall]
  simp

/-- A reference to a table of a quoted name, as it is written. -/
structure WrittenReference where
  target : ObjectName
  /-- The column, when written. -/
  column : Option String
  /-- The column stands right behind the table, without a blank. -/
  attached : Bool
  actions : List (ReferenceEvent × ReferentialAction)
  deriving DecidableEq, Repr

namespace WrittenReference

open Reading

variable (written : WrittenReference)

/-- The words of the table and the column. -/
def targetWords : List String :=
  match written.column with
  | none => [written.target.quoted]
  | some column =>
      if written.attached then [written.target.quoted ++ Text.columnGroup [column]]
      else [written.target.quoted, Text.columnGroup [column]]

/-- The words behind `REFERENCES`. -/
def words : List String :=
  written.targetWords ++ written.actions.flatMap ReferenceOption.actionWords

/-- What the words say. -/
def reference : Reference :=
  (written.actions.map fun item => item.1.option item.2).foldl Reference.withOption
    ⟨written.target, written.column.toList, .noAction, .noAction⟩

/-- The key of the given column. -/
def key (name : Option String) (column : String) : ForeignKeyConstraint :=
  written.reference.orId.constraint name [column]

theorem columns_orId_reference : written.reference.orId.columns = [written.column.getD "id"] := by
  have hkept : ∀ (options : List ReferenceOption) (start : Reference),
      (options.foldl Reference.withOption start).columns = start.columns := by
    intro options
    induction options with
    | nil => exact fun start => rfl
    | cons option rest ih =>
        intro start
        rw [List.foldl_cons, ih]
        cases option <;> rfl
  have hcolumns : written.reference.columns = written.column.toList := hkept _ _
  unfold Reference.orId
  rw [hcolumns]
  cases hcolumn : written.column with
  | none => rfl
  | some column =>
      rw [hcolumn] at hcolumns
      exact hcolumns

/-! ## The reference alone -/

variable {rest : List String}

theorem reads_actions (hrest : ReferenceOption.EndsAt rest) :
    Reads (many ReferenceOption.read?)
      (written.actions.flatMap ReferenceOption.actionWords ++ rest)
      (written.actions.map fun item => item.1.option item.2) rest :=
  reads_many_append rest (fun item _ => ReferenceOption.reads_read?_action item _)
    hrest.declines (fun _ => List.cons_ne_nil _ _) written.actions

theorem not_open_actions (hrest : ReferenceOption.EndsAt rest) :
    ∀ word ∈ (written.actions.flatMap ReferenceOption.actionWords ++ rest).head?,
      (word.toList.head? == some '(') = false := by
  intro word hword
  cases hactions : written.actions with
  | nil =>
      rw [hactions] at hword
      exact hrest.closed word hword
  | cons item others =>
      rw [hactions] at hword
      cases hword
      decide

/-- The table is the head of the first word, and the column its group or the next word. -/
theorem exists_target : ∃ word behind, written.words = word :: behind ∧
    ObjectName.read (Text.head word) = written.target ∧
    ∃ inside, (inside.map Text.identifiers).getD [] = written.column.toList ∧
      ∀ rest, ReferenceOption.EndsAt rest → Reads (group? word) (behind ++ rest) inside
        (written.actions.flatMap ReferenceOption.actionWords ++ rest) := by
  have hhead : ObjectName.read (Text.head written.target.quoted) = written.target := by
    rw [Text.head_of_uncut written.target.uncut_quoted, ObjectName.read_quoted]
  have hnone := Text.group?_of_uncut written.target.uncut_quoted
  -- no column, a column in a word of its own, or a column in the word of the table
  cases hcolumn : written.column with
  | none =>
      have htarget : written.targetWords = [written.target.quoted] := by
        rw [targetWords, hcolumn]
      rw [words, htarget]
      exact ⟨written.target.quoted, _, rfl, hhead, none, rfl, fun _ hrest =>
        reads_group?_none hnone (written.not_open_actions hrest)⟩
  | some column =>
      have hinside : ((some (Text.listed 1 ([column].map (Text.quoted '\x22')))).map
          Text.identifiers).getD [] = (some column).toList := by
        rw [Option.map_some, Option.getD_some, Text.identifiers_columns, Option.toList_some]
      cases hattached : written.attached with
      | false =>
          have htarget : written.targetWords =
              [written.target.quoted, Text.columnGroup [column]] := by
            simp only [targetWords, hcolumn, hattached, Bool.false_eq_true, if_false]
          rw [words, htarget]
          exact ⟨written.target.quoted, Text.columnGroup [column] :: _, rfl, hhead,
            some (Text.listed 1 ([column].map (Text.quoted '\x22'))), hinside, fun _ _ =>
              reads_group? hnone (Text.head?_columnGroup [column])
                (Text.group?_columnGroup [column]) _⟩
      | true =>
          have htarget : written.targetWords =
              [written.target.quoted ++ Text.columnGroup [column]] := by
            simp only [targetWords, hcolumn, hattached, if_true]
          obtain ⟨hcallHead, hcallGroup⟩ := written.target.call_columnGroup [column]
          rw [words, htarget]
          refine ⟨written.target.quoted ++ Text.columnGroup [column], _, rfl, ?_,
            some (Text.listed 1 ([column].map (Text.quoted '\x22'))), hinside, fun _ _ =>
              reads_group?_own hcallGroup _⟩
          rw [hcallHead, ObjectName.read_quoted]

/-- A reference to a table with a name is read as written, up to words where it ends. -/
theorem reads_read_append (hbase : written.target.base ≠ "") (hrest : ReferenceOption.EndsAt rest) :
    Reads Reference.read (written.words ++ rest) written.reference rest := by
  obtain ⟨word, behind, hwords, htarget, inside, hcolumn, hgroup⟩ := written.exists_target
  have hsome : ¬written.target.base.isEmpty = true := fun hempty =>
    hbase (String.isEmpty_iff.mp hempty)
  rw [hwords]
  refine (reads_expectWord _ word (behind ++ rest)).bind ?_
  rw [htarget]
  dsimp only
  rw [if_neg hsome]
  refine (hgroup rest hrest).bind ((written.reads_actions hrest).bind ?_)
  rw [hcolumn]
  exact reads_pure _ rest

/-- A reference to a table with a name is read as written. -/
theorem reads_read (hbase : written.target.base ≠ "") :
    Reads Reference.read written.words written.reference [] := by
  have hreads := written.reads_read_append hbase ReferenceOption.endsAt_nil
  rwa [List.append_nil] at hreads

/-- A reference to a table without a name is refused. -/
theorem fails_read (hbase : written.target.base = "") : Fails Reference.read written.words := by
  obtain ⟨word, behind, hwords, htarget, -⟩ := written.exists_target
  rw [hwords]
  refine ((reads_expectWord _ word behind).goesOn _).fails ?_
  rw [htarget]
  dsimp only
  rw [hbase, if_pos (by decide)]
  exact fails_fail _ _

/-! ## The words as text -/

theorem isFinal_of_mem_targetWords {word : String} (hword : word ∈ written.targetWords) :
    Chars.IsFinal word.toList := by
  unfold targetWords at hword
  split at hword
  · obtain rfl := List.mem_singleton.mp hword
    exact written.target.isFinal_quoted
  · rename_i column _
    have hgroup := Text.isFinal_columnGroup [column]
    split at hword
    · obtain rfl := List.mem_singleton.mp hword
      rw [String.toList_append]
      exact written.target.isFinal_quoted.append hgroup
    · rcases List.mem_cons.mp hword with rfl | hword
      · exact written.target.isFinal_quoted
      · obtain rfl := List.mem_singleton.mp hword
        exact hgroup

/-- A reference is made of words, and can end a statement. -/
theorem isFinal_of_mem_words {word : String} (hword : word ∈ written.words) :
    Chars.IsFinal word.toList := by
  rcases List.mem_append.mp hword with hword | hword
  · exact written.isFinal_of_mem_targetWords hword
  · obtain ⟨item, -, hword⟩ := List.mem_flatMap.mp hword
    exact ReferenceOption.isFinal_of_mem_actionWords hword

theorem words_ne_nil : written.words ≠ [] := by
  obtain ⟨word, behind, hwords, -⟩ := written.exists_target
  exact hwords ▸ List.cons_ne_nil word behind

/-- A text that the reference ends does not end in a semicolon. -/
theorem getLast?_unwords_words (front : List String) :
    (Text.unwords (front ++ written.words)).toList.getLast? ≠ some ';' := by
  obtain ⟨middle, last, hwords⟩ :=
    (List.eq_nil_or_concat' written.words).resolve_left written.words_ne_nil
  have hlast : Chars.IsFinal last.toList :=
    written.isFinal_of_mem_words (hwords ▸ List.mem_concat_self)
  rw [hwords, ← List.append_assoc, Text.getLast?_unwords_concat _ hlast.ne_nil]
  exact hlast.last_ne

/-! ## Behind a column definition -/

/-- The words of the reference behind a column definition. -/
def suffixWords (name : Option String) : List String :=
  Text.named name ++ "REFERENCES" :: written.words

theorem isKeySuffix_suffixWords (name : Option String) :
    ColumnConstraint.IsKeySuffix (written.suffixWords name) := by
  intro word hword
  cases name with
  | none =>
      cases hword
      exact Or.inr rfl
  | some name =>
      cases hword
      exact Or.inl rfl

theorem reads_readReference_append (hbase : written.target.base ≠ "")
    (hrest : ReferenceOption.EndsAt rest) (column : String) :
    Reads (ColumnConstraint.readReference column) (written.words ++ rest)
      (.references written.reference.orId) rest := by
  have hone : (written.reference.orId.columns.length == 1) = true := by
    rw [columns_orId_reference]
    rfl
  refine (written.reads_read_append hbase hrest).bind ?_
  dsimp only
  rw [if_pos hone]
  exact reads_pure _ rest

theorem reads_readReference (hbase : written.target.base ≠ "") (column : String) :
    Reads (ColumnConstraint.readReference column) written.words
      (.references written.reference.orId) [] := by
  have hreads := written.reads_readReference_append hbase ReferenceOption.endsAt_nil column
  rwa [List.append_nil] at hreads

/-- The constraints that the words of the reference are. -/
def constraints (name : Option String) : List ColumnConstraint :=
  name.toList.map .named ++ [.references written.reference.orId]

variable {column : String} {bound : Nat}

theorem reads_read?_named (name : String) (rest : List String) :
    Reads (ColumnConstraint.read? column) ("CONSTRAINT" :: Text.quoted '\x22' name :: rest)
      (some (.named name)) rest := by
  have hlower : Text.lower "CONSTRAINT" = "constraint" := by decide +kernel
  have hname : Reads (expectIdentifier "constraint name") (Text.quoted '\x22' name :: rest) name
      rest := by
    have hreads := reads_expectIdentifier "constraint name" (Text.quoted '\x22' name) rest
    rwa [Text.unquoteIdentifier_quoted] at hreads
  have hfrom : Reads (ColumnConstraint.readFrom column "CONSTRAINT")
      (Text.quoted '\x22' name :: rest) (.named name) rest := by
    rw [ColumnConstraint.readFrom, hlower]
    exact hname.bind (reads_pure _ _)
  exact (reads_next?_cons _ _).bind (hfrom.bind (reads_pure _ _))

theorem goesOn_read?_references :
    GoesOn (ColumnConstraint.read? column) ("REFERENCES" :: written.words)
      (do return some (← ColumnConstraint.readReference column)) written.words := by
  have hlower : Text.lower "REFERENCES" = "references" := by decide +kernel
  have hfirst : GoesOn (ColumnConstraint.read? column) ("REFERENCES" :: written.words)
      (do return some (← ColumnConstraint.readFrom column "REFERENCES")) written.words :=
    (reads_next?_cons _ _).goesOn _
  rwa [ColumnConstraint.readFrom, hlower] at hfirst

/-- The name takes a step and the reference another, and there are more words than that. -/
theorem exists_bound_eq {name : Option String}
    (hbound : (written.suffixWords name).length ≤ bound) :
    ∃ limit, bound = limit + 1 + name.toList.length := by
  have hlength : 1 + name.toList.length ≤ (written.suffixWords name).length := by
    cases name <;> simp [suffixWords, Text.named]
  obtain ⟨limit, rfl⟩ := Nat.exists_eq_add_of_le' (Nat.le_trans hlength hbound)
  exact ⟨limit, (Nat.add_assoc limit 1 name.toList.length).symm⟩

/-- As many steps as there are words read the reference and nothing more. -/
theorem reads_constraints (hbase : written.target.base ≠ "") (name : Option String)
    (hbound : (written.suffixWords name).length ≤ bound) :
    Reads (manyUpTo (ColumnConstraint.read? column) bound) (written.suffixWords name)
      (written.constraints name) [] := by
  have hreferences : ∀ limit, Reads (manyUpTo (ColumnConstraint.read? column) (limit + 1))
      ("REFERENCES" :: written.words) [.references written.reference.orId] [] := by
    intro limit
    have hstep := written.goesOn_read?_references.reads
      ((written.reads_readReference hbase column).bind (reads_pure (some _) []))
    exact hstep.bind ((ColumnConstraint.reads_manyUpTo_nil column limit).bind (reads_pure _ []))
  obtain ⟨limit, rfl⟩ := written.exists_bound_eq hbound
  cases name with
  | none => exact hreferences limit
  | some name =>
      exact (reads_read?_named name _).bind ((hreferences limit).bind (reads_pure _ []))

theorem fails_constraints (hbase : written.target.base = "") (name : Option String)
    (hbound : (written.suffixWords name).length ≤ bound) :
    Fails (manyUpTo (ColumnConstraint.read? column) bound) (written.suffixWords name) := by
  have hreferences : ∀ limit, Fails (manyUpTo (ColumnConstraint.read? column) (limit + 1))
      ("REFERENCES" :: written.words) := by
    intro limit
    have hreference : Fails (ColumnConstraint.readReference column) written.words :=
      (written.fails_read hbase).bind _
    exact (written.goesOn_read?_references.fails (hreference.bind _)).bind _
  obtain ⟨limit, rfl⟩ := written.exists_bound_eq hbound
  cases name with
  | none => exact hreferences limit
  | some name => exact ((reads_read?_named name _).goesOn _).fails ((hreferences limit).bind _)

/-- Plain constraints change the column alone, and a reference behind them adds its key. -/
theorem definition_foldl_add (name : Option String) (plain : List ColumnConstraint)
    (hplain : ∀ constraint ∈ plain, constraint.isPlain = true) (start : Column) :
    ((plain ++ written.constraints name).foldl ColumnDraft.add ⟨start, none, none⟩).definition =
      ⟨(plain.foldl ColumnDraft.add ⟨start, none, none⟩).definition.column,
        some (written.key name
          (plain.foldl ColumnDraft.add ⟨start, none, none⟩).definition.column.name)⟩ := by
  obtain ⟨hkey, hpending⟩ := ColumnConstraint.foldl_add_of_isPlain hplain ⟨start, none, none⟩
  rw [List.foldl_append, constraints]
  generalize plain.foldl ColumnDraft.add ⟨start, none, none⟩ = draft at hkey hpending
  obtain ⟨column, key, pending⟩ := draft
  obtain rfl : pending = none := hpending
  cases name <;> rfl

/-- A column definition with the reference behind it declares the same column with the key, or it is
refused. -/
theorem read_column_iff {origin : Origin} {table clause text : String}
    {definition result : ColumnDefinition} (name : Option String)
    (hplain : ∀ word ∈ Text.words clause, ColumnConstraint.IsPlain word)
    (hread : ColumnDefinition.read origin table clause = .ok definition)
    (hwords : Text.words text = Text.words clause ++ written.suffixWords name) :
    ColumnDefinition.read origin table text = .ok result ↔
      written.target.base ≠ "" ∧
        result = ⟨definition.column, some (written.key name definition.column.name)⟩ := by
  -- reading goes on behind the definition with the constraints, and the key is the next of them
  obtain ⟨column, plain, bound, hbound, hconstraints, rfl, hgoes⟩ :=
    ColumnDefinition.goesOn_readWords (written.isKeySuffix_suffixWords name) hplain hread
  rw [← hwords] at hgoes
  have hcheck : origin.checkPrimaryKey table
      (plain.foldl ColumnDraft.add ⟨column, none, none⟩).definition.column = .ok () :=
    ColumnDefinition.checkPrimaryKey_of_read hread
  by_cases hbase : written.target.base = ""
  · have hfails := hgoes.fails ((written.fails_constraints hbase name hbound).bind _)
    constructor
    · intro htext
      simp only [ColumnDefinition.read, except_bind_eq_ok] at htext
      obtain ⟨declared, hdeclared, -⟩ := htext
      exact absurd hdeclared hfails.ne_ok
    · rintro ⟨hne, -⟩
      exact absurd hbase hne
  -- the key changes nothing of the column, so the primary key is allowed as it was before
  · have hreads := hgoes.reads
      ((written.reads_constraints hbase name hbound).bind (reads_pure _ []))
    rw [definition_foldl_add written name plain hconstraints] at hreads
    rw [ColumnDefinition.read, hreads.ofText, except_ok_bind]
    dsimp only
    rw [hcheck, except_ok_bind, except_pure_eq_ok, and_iff_right hbase]
    exact eq_comm

/-! ## In a foreign key of a table -/

theorem reads_readTarget (hbase : written.target.base ≠ "") (name : Option String)
    (column : String) :
    Reads (TableConstraint.readTarget name [column]) written.words
      (.foreignKey (written.key name column)) [] := by
  have hone : (written.reference.orId.columns.length == [column].length) = true := by
    rw [columns_orId_reference]
    rfl
  refine (written.reads_read hbase).bind ?_
  rw [if_pos (by rfl), TableConstraint.ofReference, if_pos hone]
  exact reads_pure _ []

/-- A foreign key of one column with the reference declares the key, or it is refused. -/
theorem read?_table_iff {origin : Origin} {text : String} {result : Option TableConstraint}
    (name : Option String) (column : String)
    (hwords : Text.words text = TableConstraint.keyWords name [column] ++ written.words) :
    TableConstraint.read? origin text = .ok result ↔
      written.target.base ≠ "" ∧ result = some (.foreignKey (written.key name column)) := by
  obtain ⟨left, hleft, hread⟩ : ∃ left : Reader, left.remaining = written.words ∧
      TableConstraint.read? origin text = (Reading.outcome
        ((TableConstraint.readTarget name [column]).run left)).map some :=
    TableConstraint.read?_foreignKey (List.cons_ne_nil column []) hwords
  rw [hread]
  by_cases hbase : written.target.base = ""
  · have hfails : Fails (TableConstraint.readTarget name [column]) written.words :=
      (written.fails_read hbase).bind _
    obtain ⟨error, last, hrun⟩ := hfails hleft
    rw [hrun]
    constructor
    · intro htext
      cases htext
    · rintro ⟨hne, -⟩
      exact absurd hbase hne
  · obtain ⟨last, hrun, -⟩ := written.reads_readTarget hbase name column left hleft
    rw [hrun, and_iff_right hbase]
    exact ⟨fun hsame => (Except.ok.inj hsame).symm, fun hsame => congrArg Except.ok hsame.symm⟩

end WrittenReference

end Schemata
