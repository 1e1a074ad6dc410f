import Schemata.Proofs.Statement.Body
import Schemata.Proofs.Statement.Header
import Schemata.Proofs.Text.Group

/-!
# Errors point into their text

A statement is read by readers of its parts: its clauses, what its groups hold, and what is left
behind some words.  All of these stand in the text of the statement as they are (`Text.Within`), so
that the text an error shows is always a part of it, and the table that an error names is the one
that the words of the statement name (`Statement.subject?`).

Standing in a text is transitive (`Text.Within.trans`), so each way to cut a part out of a text
needs one lemma, and a reader of a part only has to say that its own errors point into the part
(`ParseError.PointsInto`).  The name of the table needs more: the check of a primary key runs where
the words of the statement are gone, and it gets the name from the header.  That this is the name
which the words give is read off the run of the header's reader, word by word, and holds of every
header that is read, not of quoted names alone.

* `CreateTable.of_readHeader`, `Operation.within_of_readOutline`: the parts that are read on their
  own.
* `CreateTable.pointsInto_of_read`, `AlterTable.pointsInto_of_read`: errors of statements with such
  parts.
* `Statement.read_points_into_text`: errors of any statement.
-/

namespace Schemata

/-! ## Parts of a text -/

namespace Text

/-- The part stands in the text as it is. -/
def Within (part text : String) : Prop :=
  part.toList <:+: text.toList

variable {part text word inside clause : String}

theorem within_refl (text : String) : Within text text :=
  List.infix_rfl

theorem Within.trans {middle : String} (hpart : Within part middle) (hmiddle : Within middle text) :
    Within part text :=
  List.IsInfix.trans hpart hmiddle

theorem within_trim (text : String) : Within (trim text) text := by
  rw [Within, trim, String.toList_ofList]
  exact Chars.infix_trim text.toList

theorem within_afterWords (count : Nat) (text : String) : Within (afterWords count text) text := by
  rw [Within, afterWords, String.toList_ofList]
  exact (Chars.afterWords_ending count text.toList).isInfix

theorem within_of_mem_words (hword : word ∈ words text) : Within word text := by
  obtain ⟨piece, hpiece, rfl⟩ := List.mem_map.mp hword
  rw [Within, String.toList_ofList]
  exact Chars.infix_of_mem_pieces (List.mem_filter.mp hpiece).1

theorem within_of_mem_clauses (hclause : clause ∈ clauses text) : Within clause text := by
  obtain ⟨trimmed, htrimmed, rfl⟩ := List.mem_map.mp hclause
  obtain ⟨piece, hpiece, rfl⟩ := List.mem_map.mp (List.mem_filter.mp htrimmed).1
  rw [Within, String.toList_ofList]
  exact (Chars.infix_trim piece).trans (Chars.infix_of_mem_pieces hpiece)

theorem within_of_group? (hgroup : group? word = some inside) : Within inside word := by
  obtain ⟨name, hcall⟩ : ∃ name, call word = (name, some inside) := ⟨_, Prod.ext rfl hgroup⟩
  obtain ⟨blanks, rest, rfl, -⟩ := exists_append_group_of_call hcall
  rw [Within, toList_append_group]
  exact ⟨(name ++ blanks).toList ++ ['('], ')' :: rest.toList, by simp⟩

theorem within_body (text : String) : Within (Statement.body text) text :=
  (Statement.body_beginning text).isInfix.trans (Chars.infix_trim text.toList)

theorem Within.exists_append (hwithin : Within part text) :
    ∃ before behind, text = before ++ part ++ behind := by
  obtain ⟨before, behind, htext⟩ := hwithin
  refine ⟨String.ofList before, String.ofList behind, String.toList_inj.mp ?_⟩
  rw [String.toList_append, String.toList_append, String.toList_ofList, String.toList_ofList,
    htext]

end Text

theorem Reader.within_remainder (reader : Reader) : Text.Within reader.remainder reader.text :=
  (Text.within_trim _).trans (Text.within_afterWords reader.taken reader.text)

/-! ## Errors of a part -/

/-- The error shows a part of the text, or names the table, if there is one, with a column of a type
that the family does not allow. -/
inductive ParseError.PointsInto (origin : Origin) (table? : Option String) (text : String) :
    ParseError → Prop where
  | part {part : String} (hpart : Text.Within part text) (fault : Fault) :
      PointsInto origin table? text (.ofFault origin.file part fault)
  | key {table : String} (htable : table? = some table) (column found : String) :
      PointsInto origin table? text
        (.primaryKeyType origin.file table column found origin.family.primaryKeyType origin.family)

open Reading ParseError

variable {origin : Origin} {table? : Option String} {table text : String} {error : ParseError}

theorem ParseError.PointsInto.within {part : String} (hpoints : PointsInto origin table? part error)
    (hpart : Text.Within part text) : PointsInto origin table? text error := by
  cases hpoints with
  | part hinner fault => exact .part (hinner.trans hpart) fault
  | key htable column found => exact .key htable column found

/-- A reader that is made of steps refuses its own text. -/
theorem Reading.Stepwise.pointsInto {α : Type} {action : Reading α} (hsteps : Stepwise action)
    (hread : action.ofText origin.file text = .error error) :
    PointsInto origin table? text error := by
  obtain ⟨fault, rfl⟩ := hsteps.ofText_error hread
  exact .part (Text.within_refl text) fault

theorem Origin.pointsInto_of_checkPrimaryKey {column : Column}
    (hcheck : origin.checkPrimaryKey table column = .error error) :
    PointsInto origin (some table) text error := by
  rw [checkPrimaryKey] at hcheck
  split at hcheck
  · cases hcheck
  · cases hcheck
    exact .key rfl _ _

theorem TableConstraint.pointsInto_of_read? (hread : read? origin text = .error error) :
    PointsInto origin table? text error :=
  stepwise_readWords?.pointsInto hread

theorem ColumnDefinition.pointsInto_of_read (hread : read origin table text = .error error) :
    PointsInto origin (some table) text error := by
  rcases except_bind_eq_error.mp hread with hwords | ⟨definition, -, hread⟩
  · exact (stepwise_readWords origin.file).pointsInto hwords
  · rcases except_bind_eq_error.mp hread with hcheck | ⟨_, -, hread⟩
    · exact Origin.pointsInto_of_checkPrimaryKey hcheck
    · cases hread

/-! ## Tables -/

namespace CreateTable

theorem pointsInto_of_blame {α : Type} {result : Except Fault α}
    (hblame : blame origin text result = .error error) : PointsInto origin table? text error := by
  cases result with
  | ok value => cases hblame
  | error fault =>
      cases hblame
      exact .part (Text.within_refl text) fault

theorem pointsInto_of_readClause {body : TableBody} {clause : String}
    (hclause : Text.Within clause text)
    (hread : readClause origin text table body clause = .error error) :
    PointsInto origin (some table) text error := by
  rcases except_bind_eq_error.mp hread with hconstraint | ⟨constraint?, -, hread⟩
  · exact (TableConstraint.pointsInto_of_read? hconstraint).within hclause
  cases constraint? with
  | some constraint => exact pointsInto_of_blame hread
  | none =>
      rcases except_bind_eq_error.mp hread with hcolumn | ⟨definition, -, hread⟩
      · exact (ColumnDefinition.pointsInto_of_read hcolumn).within hclause
      · exact pointsInto_of_blame hread

theorem pointsInto_of_markKey {columns : List Column} {key : String}
    (hmark : markKey origin text table columns key = .error error) :
    PointsInto origin (some table) text error := by
  rw [markKey] at hmark
  split at hmark
  · cases hmark
    exact .part (Text.within_refl text) _
  · rcases except_bind_eq_error.mp hmark with hcheck | ⟨_, -, hmark⟩
    · exact Origin.pointsInto_of_checkPrimaryKey hcheck
    · cases hmark

end CreateTable

/-! ## Words that a step leaves -/

namespace Statement

/-- The words without the keywords, if all of them come first. -/
def dropAll (keywords words : List String) : List String :=
  if Text.startWithKeywords words keywords then words.drop keywords.length else words

theorem dropOptional_suffix (keywords words : List String) :
    dropOptional keywords words <:+ words := by
  cases words with
  | nil => exact List.suffix_rfl
  | cons word rest =>
      rw [dropOptional]
      split
      · exact List.suffix_cons word rest
      · exact List.suffix_rfl

theorem dropAll_suffix (keywords words : List String) : dropAll keywords words <:+ words := by
  rw [dropAll]
  split
  · exact List.drop_suffix keywords.length words
  · exact List.suffix_rfl

end Statement

namespace Reading

variable {reader left : Reader} {word keyword : String} {keywords : List String}

theorem run_discard_eq_ok {α : Type} {action : Reading α} {given : Unit} :
    (discard action).run reader = .ok given left ↔ ∃ value, action.run reader = .ok value left := by
  rw [run_discard]
  cases action.run reader with
  | ok value middle => simp
  | error error middle => simp

theorem remaining_of_expectWord {what : String}
    (hrun : (expectWord what).run reader = .ok word left) :
    reader.remaining = word :: left.remaining := by
  obtain ⟨hword, rfl⟩ := run_expectWord_iff.mp hrun
  exact remaining_eq_cons hword

theorem remaining_of_expectKeyword (hrun : (expectKeyword keyword).run reader = .ok word left) :
    reader.remaining = word :: left.remaining := by
  obtain ⟨hword, -, rfl⟩ := run_expectKeyword_iff.mp hrun
  exact remaining_eq_cons hword

theorem remaining_of_acceptAny {found : Option String}
    (hrun : (acceptAny keywords).run reader = .ok found left) :
    left.remaining = Statement.dropOptional keywords reader.remaining := by
  obtain ⟨file, text, taken, remaining⟩ := reader
  simp only [acceptAny] at hrun
  rw [run_get_bind] at hrun
  cases remaining with
  | nil =>
      cases hrun
      rfl
  | cons first others =>
      rw [peek_cons, Option.any_some] at hrun
      rw [Statement.dropOptional]
      split at hrun
      · rename_i hkeyword
        cases hrun
        rw [if_pos hkeyword]
        rfl
      · rename_i hkeyword
        cases hrun
        rw [if_neg hkeyword]

theorem remaining_of_accept {found : Bool} (hrun : (accept keyword).run reader = .ok found left) :
    left.remaining = Statement.dropOptional [keyword] reader.remaining := by
  obtain ⟨file, text, taken, remaining⟩ := reader
  rw [run_accept] at hrun
  cases remaining with
  | nil =>
      cases hrun
      rfl
  | cons first others =>
      have hany : Text.isAnyKeyword first [keyword] = Text.isKeyword first keyword := by
        simp [Text.isAnyKeyword]
      rw [Statement.dropOptional, hany]
      rw [nextIs_cons] at hrun
      split at hrun
      · rename_i hkeyword
        cases hrun
        rw [if_pos hkeyword]
        rfl
      · rename_i hkeyword
        cases hrun
        rw [if_neg hkeyword]

theorem remaining_of_acceptAll {found : Bool}
    (hrun : (acceptAll keywords).run reader = .ok found left) :
    left.remaining = Statement.dropAll keywords reader.remaining := by
  rw [run_acceptAll] at hrun
  rw [Statement.dropAll]
  split at hrun
  · rename_i hstart
    cases hrun
    rw [if_pos hstart]
    rfl
  · rename_i hstart
    cases hrun
    rw [if_neg hstart]

/-- A group is that of the word or that of the next one. -/
theorem group?_cases {inside : String} (hrun : (group? word).run reader = .ok (some inside) left) :
    Text.group? word = some inside ∨
      ∃ next ∈ reader.remaining, Text.group? next = some inside := by
  unfold group? at hrun
  split at hrun
  · rename_i found hgroup
    cases hrun
    exact Or.inl hgroup
  · obtain ⟨file, text, taken, remaining⟩ := reader
    rw [run_get_bind] at hrun
    cases remaining with
    | nil => cases hrun
    | cons next others =>
        rw [peek_cons] at hrun
        dsimp only at hrun
        split at hrun
        · obtain ⟨_, _, -, hrun⟩ := run_bind_eq_ok.mp hrun
          obtain ⟨hgroup, -⟩ := EStateM.Result.ok.inj hrun
          exact Or.inr ⟨next, List.mem_cons_self, hgroup⟩
        · cases hrun

end Reading

/-! ## The table of a statement -/

namespace Statement

/-- The words of a `CREATE TABLE` statement from the name of the table on. -/
def createdOnward (words : List String) : List String :=
  let unscoped := dropOptional ["global", "local"] (words.drop 1)
  let unqualified := dropOptional ["temp", "temporary", "unlogged"] unscoped
  dropAll ["if", "not", "exists"] (unqualified.drop 1)

/-- The words of an `ALTER TABLE` statement from the name of the table on. -/
def alteredOnward (words : List String) : List String :=
  dropOptional ["only"] (dropAll ["if", "exists"] (words.drop 2))

/-- The name of the table that a `CREATE TABLE` statement creates, by its words. -/
def created? (words : List String) : Option ObjectName :=
  (createdOnward words).head?.map fun word => ObjectName.read (Text.head word)

/-- The name of the table that an `ALTER TABLE` statement alters, by its words. -/
def altered? (words : List String) : Option ObjectName :=
  (alteredOnward words).head?.map ObjectName.read

theorem createdOnward_suffix (words : List String) : createdOnward words <:+ words := by
  have hscope := (dropOptional_suffix ["global", "local"] (words.drop 1)).trans
    (List.drop_suffix 1 words)
  have hqualifier := (dropOptional_suffix ["temp", "temporary", "unlogged"] _).trans hscope
  exact (dropAll_suffix ["if", "not", "exists"] _).trans ((List.drop_suffix 1 _).trans hqualifier)

/-- The name of the table that a statement of a known kind creates or alters, by its words. -/
def Kind.subject? (words : List String) : Kind → Option ObjectName
  | createTable => created? words
  | alterTable => altered? words
  | _ => none

/-- The name of the table that a statement creates or alters, if it does so. -/
def subject? (text : String) : Option ObjectName :=
  let words := Text.words (body text)
  (Kind.ofWords? words).bind (Kind.subject? words)

end Statement

open Reading

theorem CreateTable.of_readHeader {file : String} {header : Header}
    (hread : readHeader.ofText file text = .ok header) :
    Statement.created? (Text.words text) = some header.name ∧ Text.Within header.body text := by
  obtain ⟨left, hrun⟩ := ofText_eq_ok_iff.mp hread
  unfold readHeader at hrun
  simp only [run_bind_eq_ok, run_discard_eq_ok] at hrun
  obtain ⟨_, first, ⟨create, hcreate⟩, _, second, ⟨_, hscope⟩, _, third, ⟨_, hqualifier⟩, _,
    fourth, ⟨table, htable⟩, guard, fifth, hguard, word, last, hword, hrun⟩ := hrun
  -- each step in turn, for the words that are left behind the word of the name
  have hcreate : Text.words text = create :: first.remaining := remaining_of_expectKeyword hcreate
  have hscope := remaining_of_acceptAny hscope
  have hqualifier := remaining_of_acceptAny hqualifier
  have htable := remaining_of_expectKeyword htable
  have hguard := remaining_of_acceptAll hguard
  have hword := remaining_of_expectWord hword
  have honward : Statement.createdOnward (Text.words text) = word :: last.remaining := by
    simp only [Statement.createdOnward, hcreate, List.drop_succ_cons, List.drop_zero, ← hscope,
      ← hqualifier, htable, ← hguard, hword]
  have hwords : word :: last.remaining <:+ Text.words text :=
    honward ▸ Statement.createdOnward_suffix (Text.words text)
  split at hrun
  · cases hrun
  obtain ⟨body?, middle, hbody, hrun⟩ := run_bind_eq_ok.mp hrun
  cases body? with
  | none => cases hrun
  | some body =>
      have hheader : (⟨ObjectName.read (Text.head word), guard, body⟩ : Header) = header :=
        (EStateM.Result.ok.inj hrun).1
      rw [← hheader, Statement.created?, honward, List.head?_cons, Option.map_some]
      dsimp only
      refine ⟨rfl, ?_⟩
      -- the body is the group of that word or of the one behind it
      have hgroup : ∃ grouped ∈ word :: last.remaining, Text.group? grouped = some body := by
        rcases group?_cases hbody with hgroup | ⟨next, hnext, hgroup⟩
        · exact ⟨word, List.mem_cons_self, hgroup⟩
        · exact ⟨next, List.mem_cons_of_mem word hnext, hgroup⟩
      obtain ⟨grouped, hgrouped, hgroup⟩ := hgroup
      have hmem := hwords.subset hgrouped
      exact (Text.within_of_group? hgroup).trans (Text.within_of_mem_words hmem)

theorem CreateTable.name_of_read {statement : CreateTable}
    (hread : read origin text = .ok statement) :
    Statement.created? (Text.words text) = some statement.name := by
  obtain ⟨header, hheader, hread⟩ := except_bind_eq_ok.mp hread
  dsimp only at hread
  split at hread
  · cases hread
  · simp only [except_bind_eq_ok, except_pure_eq_ok] at hread
    obtain ⟨body, -, columns, -, rfl⟩ := hread
    exact (of_readHeader hheader).1

theorem CreateTable.pointsInto_of_read (hread : read origin text = .error error) :
    PointsInto origin ((Statement.created? (Text.words text)).map (·.base)) text error := by
  rcases except_bind_eq_error.mp hread with hheader | ⟨header, hheader, hread⟩
  · exact stepwise_readHeader.pointsInto hheader
  obtain ⟨hname, hbody⟩ := of_readHeader hheader
  rw [hname, Option.map_some]
  dsimp only at hread
  split at hread
  · exact pointsInto_of_blame hread
  rcases except_bind_eq_error.mp hread with hclauses | ⟨body, -, hread⟩
  · obtain ⟨current, clause, hclause, herror⟩ := exists_of_foldlM_eq_error hclauses
    exact pointsInto_of_readClause ((Text.within_of_mem_clauses hclause).trans hbody) herror
  rcases except_bind_eq_error.mp hread with hmark | ⟨columns, -, hread⟩
  · rcases except_bind_eq_error.mp hmark with hkeys | ⟨keyed, -, hmark⟩
    · obtain ⟨current, key, -, herror⟩ := exists_of_foldlM_eq_error hkeys
      exact pointsInto_of_markKey herror
    · cases hmark
  · cases hread

namespace AlterTable

theorem name_of_readHeader {file : String} {name : ObjectName} {ifExists : Bool}
    {clauses : List String} (hread : readHeader.ofText file text = .ok (name, ifExists, clauses)) :
    Statement.altered? (Text.words text) = some name := by
  obtain ⟨left, hrun⟩ := ofText_eq_ok_iff.mp hread
  rw [readHeader_eq] at hrun
  simp only [readName, run_bind_eq_ok, run_discard_eq_ok] at hrun
  obtain ⟨_, first, ⟨alter, halter⟩, _, second, ⟨table, htable⟩, guard, third, hguard, _, fourth,
    ⟨_, honly⟩, word, last, hword, current, same, hget, hrun⟩ := hrun
  have hstart : Text.words text = alter :: first.remaining := remaining_of_expectKeyword halter
  have hfirst := remaining_of_expectKeyword htable
  have hthird := remaining_of_acceptAll hguard
  have hfourth := remaining_of_accept honly
  have hname := remaining_of_expectWord hword
  split at hrun
  · cases hrun
  · cases hrun
    simp only [Statement.altered?, Statement.alteredOnward, hstart, hfirst, List.drop_succ_cons,
      List.drop_zero, ← hthird, ← hfourth, hname, List.head?_cons, Option.map_some]

end AlterTable

namespace Operation

/-- The text that is left for another reader stands in the text. -/
def Outline.Within (text : String) : Outline → Prop
  | .whole _ => True
  | .constraint added => Text.Within added text
  | .column added _ => Text.Within added text

theorem within_of_readAdd {reader left : Reader} {outline : Outline}
    (hrun : readAdd.run reader = .ok outline left) : outline.Within reader.text := by
  unfold readAdd at hrun
  rw [run_get_bind] at hrun
  split at hrun
  · cases hrun
    exact reader.within_remainder
  · obtain ⟨_, first, hfirst, hrun⟩ := run_bind_eq_ok.mp hrun
    obtain ⟨ifNotExists, second, hsecond, hrun⟩ := run_bind_eq_ok.mp hrun
    have htext : second.text = reader.text := by
      rw [(stepwise_acceptAll _).keepsText hsecond, (stepwise_accept _).discard.keepsText hfirst]
    rw [run_get_bind] at hrun
    split at hrun
    · cases hrun
    · cases hrun
      exact htext ▸ left.within_remainder

theorem within_of_whole {action : Reading Operation} {reader left : Reader} {outline : Outline}
    (hrun : (do return .whole (← action) : Reading Outline).run reader = .ok outline left) :
    outline.Within text := by
  obtain ⟨operation, middle, -, hrun⟩ := run_bind_eq_ok.mp hrun
  cases hrun
  trivial

theorem within_of_readOutline {file : String} {outline : Outline}
    (hread : readOutline.ofText file text = .ok outline) : outline.Within text := by
  obtain ⟨left, hrun⟩ := ofText_eq_ok_iff.mp hread
  unfold readOutline at hrun
  rw [run_accept_else] at hrun
  split at hrun
  · exact within_of_readAdd hrun
  rw [run_accept_else] at hrun
  split at hrun
  · exact within_of_whole hrun
  rw [run_accept_else] at hrun
  split at hrun
  · exact within_of_whole hrun
  rw [run_accept_else] at hrun
  split at hrun
  · exact within_of_whole hrun
  · cases hrun
    trivial

theorem pointsInto_of_read (hread : read origin table text = .error error) :
    PointsInto origin (some table) text error := by
  rcases except_bind_eq_error.mp hread with houtline | ⟨outline, houtline, hread⟩
  · exact stepwise_readOutline.pointsInto houtline
  have hwithin := within_of_readOutline houtline
  cases outline with
  | whole operation => cases hread
  | constraint added =>
      have hconstraint := except_return_eq_error.mp hread
      exact (TableConstraint.pointsInto_of_read? hconstraint).within hwithin
  | column added ifNotExists =>
      have hcolumn := except_return_eq_error.mp hread
      exact (ColumnDefinition.pointsInto_of_read hcolumn).within hwithin

end Operation

theorem AlterTable.pointsInto_of_read (hread : read origin text = .error error) :
    PointsInto origin ((Statement.altered? (Text.words text)).map (·.base)) text error := by
  rcases except_bind_eq_error.mp hread with hheader | ⟨⟨name, ifExists, clauses⟩, hheader, hread⟩
  · exact stepwise_readHeader.pointsInto hheader
  rw [name_of_readHeader hheader, Option.map_some]
  obtain ⟨-, taken, hclauses⟩ := clauses_of_readHeader hheader
  dsimp only at hread
  split at hread
  · rename_i clause
    have hclause : clause ∈ Text.clauses (Text.trim (Text.afterWords taken text)) :=
      hclauses ▸ List.mem_singleton_self clause
    have hoperation := except_return_eq_error.mp hread
    exact (Operation.pointsInto_of_read hoperation).within
      ((Text.within_of_mem_clauses hclause).trans
        ((Text.within_trim _).trans (Text.within_afterWords taken text)))
  · cases hread

/-! ## Statements -/

namespace Statement

theorem pointsInto_of_readKind {kind : Kind} (hread : readKind origin text kind = .error error) :
    PointsInto origin ((kind.subject? (Text.words text)).map (·.base)) text error := by
  cases kind with
  | createTable => exact CreateTable.pointsInto_of_read (except_return_eq_error.mp hread)
  | createIndex => exact CreateIndex.stepwise_readWords.pointsInto (except_return_eq_error.mp hread)
  | createSchema =>
      exact CreateSchema.stepwise_readWords.pointsInto (except_return_eq_error.mp hread)
  | createEnum => exact CreateEnum.stepwise_readWords.pointsInto (except_return_eq_error.mp hread)
  | alterTable => exact AlterTable.pointsInto_of_read (except_return_eq_error.mp hread)
  | dropTables =>
      exact (Removal.stepwise_readKindNames _ _ _).pointsInto (except_return_eq_error.mp hread)
  | dropIndexes =>
      exact Removal.stepwise_readIndexNames.pointsInto (except_return_eq_error.mp hread)
  | dropSchemas =>
      exact (Removal.stepwise_readKindNames _ _ _).pointsInto (except_return_eq_error.mp hread)
  | dropTypes =>
      exact (Removal.stepwise_readKindNames _ _ _).pointsInto (except_return_eq_error.mp hread)

theorem pointsInto_of_read (hread : read origin text = .error error) :
    PointsInto origin ((subject? text).map (·.base)) text error := by
  unfold read at hread
  dsimp only at hread
  split at hread
  · cases hread
    exact .part (Text.within_body text) .emptyStatement
  split at hread
  · rename_i kind hkind
    have hpoints := pointsInto_of_readKind hread
    rw [subject?, hkind]
    exact hpoints.within (Text.within_body text)
  · cases hread

/-- The statement is read by its kind from the words of its text. -/
theorem exists_kind_of_read {statement : Statement} (hread : read origin text = .ok statement)
    (hknown : ∀ kept, statement ≠ .unknown kept) : ∃ kind,
      Kind.ofWords? (Text.words (body text)) = some kind ∧
        readKind origin (body text) kind = .ok statement := by
  unfold read at hread
  dsimp only at hread
  split at hread
  · cases hread
  split at hread
  · rename_i kind hkind
    exact ⟨kind, hkind, hread⟩
  · cases hread
    exact absurd rfl (hknown _)

theorem subject?_of_read_createTable {statement : CreateTable}
    (hread : read origin text = .ok (.createTable statement)) :
    subject? text = some statement.name := by
  obtain ⟨kind, hkind, hread⟩ := exists_kind_of_read hread fun _ => Statement.noConfusion
  rw [subject?, hkind, Option.bind_some]
  cases kind with
  | createTable =>
      obtain ⟨found, hfound, hsame⟩ := except_bind_eq_ok.mp hread
      cases hsame
      have hname := CreateTable.name_of_read hfound
      rw [Kind.subject?, hname]
  | _ =>
      obtain ⟨found, -, hsame⟩ := except_bind_eq_ok.mp hread
      cases hsame

theorem subject?_of_read_alterTable {statement : AlterTable}
    (hread : read origin text = .ok (.alterTable statement)) :
    subject? text = some statement.name := by
  obtain ⟨kind, hkind, hread⟩ := exists_kind_of_read hread fun _ => Statement.noConfusion
  rw [subject?, hkind, Option.bind_some]
  cases kind with
  | alterTable =>
      obtain ⟨found, hfound, hsame⟩ := except_bind_eq_ok.mp hread
      cases hsame
      obtain ⟨clauses, hheader, -⟩ := AlterTable.read_cases hfound
      have hname := AlterTable.name_of_readHeader hheader
      rw [Kind.subject?, hname]
  | _ =>
      obtain ⟨found, -, hsame⟩ := except_bind_eq_ok.mp hread
      cases hsame

/-- An error shows a part of the text, without blanks around it, or names the table that the
statement creates or alters and the type that the family requires; and that is the table of the
statement where it is read. -/
theorem read_points_into_text (file : String) (family : Family) (text : String) :
    (∀ error, read ⟨file, family⟩ text = .error error →
      (∃ before part behind fault, text = before ++ part ++ behind ∧ Text.trim part = part ∧
        error = .malformed file part fault) ∨
      ∃ (name : ObjectName) (column found : String), subject? text = some name ∧
        error =
          .primaryKeyType file name.base column found family.primaryKeyType family) ∧
    (∀ statement, read ⟨file, family⟩ text = .ok (.createTable statement) →
      subject? text = some statement.name) ∧
    ∀ statement, read ⟨file, family⟩ text = .ok (.alterTable statement) →
      subject? text = some statement.name := by
  refine ⟨fun error hread => ?_, fun _ => subject?_of_read_createTable,
    fun _ => subject?_of_read_alterTable⟩
  have hpoints := pointsInto_of_read hread
  generalize htable? : (subject? text).map (·.base) = table? at hpoints
  -- a part of the text, or the table that the words name
  cases hpoints with
  | @part part hpart fault =>
      obtain ⟨before, behind, htext⟩ := ((Text.within_trim part).trans hpart).exists_append
      exact Or.inl ⟨before, Text.trim part, behind, fault, htext, Text.trim_trim part, rfl⟩
  | @key table htable column found =>
      rw [htable, Option.map_eq_some_iff] at htable?
      obtain ⟨name, hname, rfl⟩ := htable?
      exact Or.inr ⟨name, column, found, hname, rfl⟩

theorem read_points_into_text_check :
    (∃ before part behind fault, "CREATE TABLE t (CHECK);" = before ++ part ++ behind ∧
      Text.trim part = part ∧
      read ⟨"a.sql", .postgres⟩ "CREATE TABLE t (CHECK);" =
        .error (.malformed "a.sql" part fault)) ∧
    (∃ name : ObjectName, subject? "CREATE TABLE t (id text PRIMARY KEY)" = some name ∧
      read ⟨"a.sql", .postgres⟩ "CREATE TABLE t (id text PRIMARY KEY)" =
        .error (.primaryKeyType "a.sql" name.base "id" "text" "uuid" .postgres)) ∧
    subject? "CREATE TABLE t (CHECK (a))" = some ⟨none, "t"⟩ ∧
    subject? "ALTER TABLE ONLY s.t DROP COLUMN c" = some ⟨some "s", "t"⟩ := by
  -- one text that is refused for its form, one for its key, and two that are read
  have hgroup : read ⟨"a.sql", .postgres⟩ "CREATE TABLE t (CHECK);" =
      .error (.malformed "a.sql" "CHECK" (.expectedGroup "expression" "CHECK")) := by
    decide +kernel
  have hkey : read ⟨"a.sql", .postgres⟩ "CREATE TABLE t (id text PRIMARY KEY)" =
      .error (.primaryKeyType "a.sql" "t" "id" "text" "uuid" .postgres) := by
    decide +kernel
  have hcreate : read ⟨"a.sql", .postgres⟩ "CREATE TABLE t (CHECK (a))" =
      .ok (.createTable ⟨⟨none, "t"⟩, false, [], [], []⟩) := by
    decide +kernel
  have halter : read ⟨"a.sql", .postgres⟩ "ALTER TABLE ONLY s.t DROP COLUMN c" =
      .ok (.alterTable ⟨⟨some "s", "t"⟩, false, .dropColumn "c" false⟩) := by
    decide +kernel
  refine ⟨?_, ?_, (read_points_into_text "a.sql" .postgres _).2.1 _ hcreate,
    (read_points_into_text "a.sql" .postgres _).2.2 _ halter⟩
  · rcases (read_points_into_text "a.sql" .postgres _).1 _ hgroup with hpart | hname
    · obtain ⟨before, part, behind, fault, htext, htrim, herror⟩ := hpart
      exact ⟨before, part, behind, fault, htext, htrim, herror ▸ hgroup⟩
    · obtain ⟨_, _, _, -, herror⟩ := hname
      cases herror
  · rcases (read_points_into_text "a.sql" .postgres _).1 _ hkey with hpart | hname
    · obtain ⟨_, _, _, _, -, -, herror⟩ := hpart
      cases herror
    · obtain ⟨name, column, found, hsubject, herror⟩ := hname
      obtain ⟨-, htable, -⟩ := ParseError.primaryKeyType.inj herror
      exact ⟨name, hsubject, htable ▸ hkey⟩

end Statement

end Schemata
