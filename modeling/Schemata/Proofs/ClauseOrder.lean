import Schemata.Proofs.Statement.GroupExchange
import Schemata.Proofs.Statement.TableParts
import Schemata.Proofs.Text.BalanceCheck

/-!
# The order of clauses

Where a table-level primary key, uniqueness constraint or check stands among the clauses of a table
does not matter, and neither does any other constraint that is kept as text.  Such a clause may name
columns that are declared behind it, since flags are set when all clauses are read.  The order of
the columns and of the foreign keys shows in the table.

No two clauses have to change places for this.  What a body of clauses makes is a function of what
they declare, sort by sort: columns, keys, and the names that are flagged (`TableBody.ofParts`).  A
movable clause adds to the last of these, where order does not count, so that a rearrangement leaves
every sort as it was.  A clause also carries the blanks of its place in the list, and what is kept
of it as text must not depend on them (`follows_readWords?`).

* `CreateTable.Rearranged`: lists of clauses that differ in where movable ones stand.
* `CreateTable.readBody_of_rearranged`: rearranged clauses make the same table.
* `CreateTable.read_rearranged_iff`: the statement, with anything around the clauses.
-/

namespace Schemata

/-! ## Clauses with blanks around them -/

namespace TableConstraint

open Reading

theorem isWordwise_readPrimaryKey (name : Option String) : IsWordwise (readPrimaryKey name) := by
  refine (isWordwise_skip 1).bind fun _ => (isWordwise_expectKeyword _).bind fun key =>
    (isWordwise_expectGroup key _).bind fun inside => ?_
  split
  · exact isWordwise_fail _
  · exact isWordwise_pure _

theorem isWordwise_readForeignKey (name : Option String) : IsWordwise (readForeignKey name) := by
  refine (isWordwise_skip 1).bind fun _ => (isWordwise_expectKeyword _).bind fun key =>
    (isWordwise_expectGroup key _).bind fun inside => ?_
  split
  · exact isWordwise_fail _
  · refine (isWordwise_expectKeyword _).discard.bind fun _ =>
      Reference.isWordwise_read.bind fun written => ?_
    dsimp only
    split
    all_goals
      split
      · exact isWordwise_pure _
      · exact isWordwise_fail _

theorem isWordwise_readName? : IsWordwise readName? := by
  refine (isWordwise_accept _).bind fun named => ?_
  split
  · exact (isWordwise_expectIdentifier _).bind fun _ => isWordwise_pure _
  · exact isWordwise_pure none

/-- Of the text, a constraint keeps at most what stands between the blanks around it. -/
theorem follows_readWords? : Follows SameTrimmed Eq readWords? readWords? := by
  have hsome : ∀ {action : Reading TableConstraint}, IsWordwise action →
      Follows SameTrimmed Eq (do return some (← action)) (do return some (← action)) :=
    fun haction => (haction.bind fun _ => isWordwise_pure _).follows
  refine isWordwise_readName?.follows.bind fun name _ hname =>
    follows_get_bind fun reader other hsame => ?_
  -- which branch is taken depends on the words alone, and the same words are left
  have hnext : ∀ keyword, reader.nextIs keyword = other.nextIs keyword := by
    intro keyword
    rw [Reader.nextIs, Reader.peek, hsame.remaining_eq, Reader.nextIs, Reader.peek]
  have hbehind : reader.nextIsAt 1 "key" = other.nextIsAt 1 "key" := by
    rw [Reader.nextIsAt, Reader.peekAt, hsame.remaining_eq, Reader.nextIsAt, Reader.peekAt]
  subst hname
  rw [hnext, hnext, hnext, hnext, hnext, hbehind, hsame.trim_eq]
  split
  · exact hsome (isWordwise_readPrimaryKey name)
  split
  · exact hsome (isWordwise_readForeignKey name)
  split
  · exact hsome ((isWordwise_expectKeyword _).bind fun _ =>
      (isWordwise_expectGroup _ _).bind fun _ => isWordwise_pure _)
  split
  · exact hsome ((isWordwise_expectKeyword _).bind fun _ =>
      (isWordwise_expectGroup _ _).bind fun _ => isWordwise_pure _)
  split
  · exact follows_pure rfl
  · exact follows_pure rfl

/-- Blanks around a clause do not matter. -/
theorem read?_trim {origin : Origin} {text : String} {result : Option TableConstraint}
    (hrun : Nesting.top.run text.toList = .top) :
    read? origin (Text.trim text) = .ok result ↔ read? origin text = .ok result :=
  follows_readWords?.ofText_trim hrun

end TableConstraint

namespace CreateTable

variable {origin : Origin} {table clause : String} {clauses others : List String}

/-! ## Clauses that may stand anywhere -/

/-- The clause is read as a primary key, a uniqueness constraint, a check or another constraint kept
as text. -/
def isMovable (origin : Origin) (clause : String) : Bool :=
  match TableConstraint.read? origin clause with
  | .ok (some (.primaryKey _ _)) => true
  | .ok (some (.unique _ _)) => true
  | .ok (some (.check _ _)) => true
  | .ok (some (.other _)) => true
  | _ => false

theorem isMovable_trim (hrun : Nesting.top.run clause.toList = .top) :
    isMovable origin (Text.trim clause) = isMovable origin clause := by
  unfold isMovable
  cases hread : TableConstraint.read? origin clause with
  | ok result => rw [(TableConstraint.read?_trim hrun).mpr hread]
  | error error =>
      cases htrim : TableConstraint.read? origin (Text.trim clause) with
      | ok result => cases hread.symm.trans ((TableConstraint.read?_trim hrun).mp htrim)
      | error other => rfl

/-- A movable clause declares no column and no foreign key. -/
theorem declares_nothing_of_isMovable (hmovable : isMovable origin clause = true)
    {part : TablePart} (hread : readPart origin table clause = .ok part) :
    part.column? = none ∧ part.foreignKey? = none := by
  unfold isMovable at hmovable
  unfold readPart at hread
  split at hmovable
  case h_5 => cases hmovable
  all_goals
    rename_i hconstraint
    rw [hconstraint] at hread
    cases hread
    exact ⟨rfl, rfl⟩

/-- The lists have the same clauses, and those that are not movable in the same order. -/
structure Rearranged (origin : Origin) (clauses others : List String) : Prop where
  perm : clauses.Perm others
  fixed : clauses.filter (! isMovable origin ·) = others.filter (! isMovable origin ·)

theorem rearranged_refl (origin : Origin) (clauses : List String) :
    Rearranged origin clauses clauses :=
  ⟨.refl clauses, rfl⟩

theorem Rearranged.symm (hmoved : Rearranged origin clauses others) :
    Rearranged origin others clauses :=
  ⟨hmoved.perm.symm, hmoved.fixed.symm⟩

/-- What the clauses declare that movable ones do not is declared in the same order. -/
theorem Rearranged.filterMap_eq {β : Type} (hmoved : Rearranged origin clauses others)
    {declared : String → Option β}
    (hmovable : ∀ clause, isMovable origin clause = true → declared clause = none) :
    clauses.filterMap declared = others.filterMap declared := by
  have hfixed : ∀ list : List String,
      list.filterMap declared = (list.filter (! isMovable origin ·)).filterMap declared := by
    intro list
    rw [List.filterMap_filter]
    refine List.filterMap_congr fun clause _ => ?_
    cases hclause : isMovable origin clause with
    | false => rfl
    | true => exact hmovable clause hclause
  rw [hfixed clauses, hmoved.fixed, ← hfixed others]

theorem Rearranged.filterMap_partsOf_eq {β : Type} (hmoved : Rearranged origin clauses others)
    (table : String) (declared : TablePart → Option β)
    (hmovable : ∀ clause part, isMovable origin clause = true →
      readPart origin table clause = .ok part → declared part = none) :
    (partsOf origin table clauses).filterMap declared =
      (partsOf origin table others).filterMap declared := by
  rw [partsOf, partsOf, List.filterMap_filterMap, List.filterMap_filterMap]
  refine hmoved.filterMap_eq fun clause hclause => ?_
  cases hread : readPart origin table clause with
  | error error => rfl
  | ok part => exact hmovable clause part hclause hread

/-- Rearranged clauses make the same table, whatever the text around them is. -/
theorem readBody_of_rearranged {text : String} {name : ObjectName} {ifNotExists : Bool}
    {statement : CreateTable} (hmoved : Rearranged origin clauses others) (again : String)
    (hread : readBody origin text name ifNotExists clauses = .ok statement) :
    readBody origin again name ifNotExists others = .ok statement := by
  obtain ⟨hne, hparts, hcompatible, columns, hmark, rfl⟩ := readBody_eq_ok_iff.mp hread
  have hperm : (partsOf origin name.base clauses).Perm (partsOf origin name.base others) :=
    hmoved.perm.filterMap _
  have hcolumns := hmoved.filterMap_partsOf_eq name.base TablePart.column?
    fun _ _ hclause hpart => (declares_nothing_of_isMovable hclause hpart).1
  have hforeign := hmoved.filterMap_partsOf_eq name.base TablePart.foreignKey?
    fun _ _ hclause hpart => (declares_nothing_of_isMovable hclause hpart).2
  have hprimary := hcompatible.filterMap_primaryKey?_of_perm hperm
  refine readBody_eq_ok_iff.mpr ⟨?_, ?_, hcompatible.of_perm hperm, columns, ?_, ?_⟩
  · exact fun hnil => hne (List.perm_nil.mp (hnil ▸ hmoved.perm))
  · exact fun clause hclause => hparts clause (hmoved.perm.mem_iff.mpr hclause)
  · exact markColumns_of_perm hcolumns (congrArg List.flatten hprimary) (hperm.filterMap _) again
      hmark
  · rw [hforeign, hprimary]

/-! ## The statement -/

/-- Of the clauses in a list, those are not movable whose texts are not. -/
theorem filter_clauses_listed (spaces : Nat)
    (hclauses : ∀ clause ∈ clauses, Chars.IsEntry clause.toList) :
    (Text.clauses (Text.listed spaces clauses)).filter (! isMovable origin ·) =
      ((clauses.filter (! isMovable origin ·)).filter fun clause =>
        !(Chars.trim clause.toList).isEmpty).map Text.trim := by
  rw [Text.clauses_listed_of_isEntry spaces hclauses, List.filter_map, List.filter_filter,
    List.filter_filter]
  refine congrArg _ (List.filter_congr fun clause hclause => ?_)
  rw [Function.comp_apply, isMovable_trim (hclauses clause hclause).run_top, Bool.and_comm]

/-- The clauses in a list are rearranged as the listed texts are. -/
theorem Rearranged.clauses_listed (hmoved : Rearranged origin clauses others) (spaces : Nat)
    (hclauses : ∀ clause ∈ clauses, Chars.IsEntry clause.toList)
    (hothers : ∀ clause ∈ others, Chars.IsEntry clause.toList) :
    Rearranged origin (Text.clauses (Text.listed spaces clauses))
      (Text.clauses (Text.listed spaces others)) := by
  constructor
  · rw [Text.clauses_listed_of_isEntry spaces hclauses,
      Text.clauses_listed_of_isEntry spaces hothers]
    exact (hmoved.perm.filter _).map _
  · rw [filter_clauses_listed spaces hclauses, filter_clauses_listed spaces hothers,
      hmoved.fixed]

/-- A statement with its clauses rearranged is read as the same table. -/
theorem read_of_rearranged {before behind : String} {statement : CreateTable} (spaces : Nat)
    (hbefore : Chars.Closed before.toList)
    (hclauses : ∀ clause ∈ clauses, Chars.IsEntry clause.toList)
    (hmoved : Rearranged origin clauses others)
    (hread : read origin (Text.around before (Text.listed spaces clauses) behind) =
      .ok statement) :
    read origin (Text.around before (Text.listed spaces others) behind) = .ok statement := by
  have hothers : ∀ clause ∈ others, Chars.IsEntry clause.toList :=
    fun clause hclause => hclauses clause (hmoved.perm.mem_iff.mpr hclause)
  have hinside : Chars.Balanced (Text.listed spaces clauses).toList :=
    Text.balanced_listed spaces fun clause hclause => (hclauses clause hclause).toBalanced
  have hother : Chars.Balanced (Text.listed spaces others).toList :=
    Text.balanced_listed spaces fun clause hclause => (hothers clause hclause).toBalanced
  rw [read_eq, except_bind_eq_ok] at hread ⊢
  obtain ⟨header, hheader, hread⟩ := hread
  obtain ⟨found, hfound, hsame⟩ := readHeader_ofText_exchange hbefore hinside hother hheader
  refine ⟨found, hfound, ?_⟩
  rw [← hsame.name_eq, ← hsame.ifNotExists_eq]
  -- A group in front of the list may be the body; then the list makes no difference.
  rcases hsame.body_cases with hbody | ⟨hbody, hexchanged⟩
  · rw [← hbody]
    exact readBody_of_rearranged (rearranged_refl origin _) _ hread
  · rw [hexchanged]
    rw [hbody] at hread
    exact readBody_of_rearranged (hmoved.clauses_listed spaces hclauses hothers) _ hread

/-- Movable clauses may stand anywhere: whatever is in front of the clauses and behind them, a
statement and one with its clauses rearranged are read as the same table or both not. -/
theorem read_rearranged_iff {before behind : String} {statement : CreateTable} (spaces : Nat)
    (hbefore : Chars.Closed before.toList)
    (hclauses : ∀ clause ∈ clauses, Chars.IsEntry clause.toList)
    (hmoved : Rearranged origin clauses others) :
    read origin (Text.around before (Text.listed spaces clauses) behind) = .ok statement ↔
      read origin (Text.around before (Text.listed spaces others) behind) = .ok statement := by
  have hothers : ∀ clause ∈ others, Chars.IsEntry clause.toList :=
    fun clause hclause => hclauses clause (hmoved.perm.mem_iff.mpr hclause)
  exact ⟨read_of_rearranged spaces hbefore hclauses hmoved,
    read_of_rearranged spaces hbefore hothers hmoved.symm⟩

/-- Two columns and constraints of them. -/
def itemClauses : List String :=
  ["PRIMARY KEY (a)", "a uuid", " UNIQUE (b)", "CHECK (a > b)", "b text REFERENCES r"]

/-- The same clauses with the constraints elsewhere. -/
def rearrangedItemClauses : List String :=
  [" UNIQUE (b)", "a uuid", "b text REFERENCES r", "PRIMARY KEY (a)", "CHECK (a > b)"]

/-- A primary key and a unique column that are named before they are declared, and behind. -/
theorem read_rearranged_iff_items :
    Chars.Closed "CREATE TABLE s.t ".toList ∧
    (∀ clause ∈ itemClauses, Chars.IsEntry clause.toList) ∧
    Rearranged ⟨"1.sql", .postgres⟩ itemClauses rearrangedItemClauses ∧
    ∃ statement : CreateTable, statement.primaryKey = ["a"] ∧
      statement.columns.map Column.unique = [false, true] ∧
      read ⟨"1.sql", .postgres⟩
        (Text.around "CREATE TABLE s.t " (Text.listed 1 itemClauses) ";") = .ok statement ∧
      read ⟨"1.sql", .postgres⟩
        (Text.around "CREATE TABLE s.t " (Text.listed 1 rearrangedItemClauses) ";") =
          .ok statement := by
  have hbefore : Chars.Closed "CREATE TABLE s.t ".toList :=
    Chars.closed_of_uncut (by decide) (by decide)
  have hclauses : ∀ clause ∈ itemClauses, Chars.IsEntry clause.toList := by
    decide +kernel
  have hmoved : Rearranged ⟨"1.sql", .postgres⟩ itemClauses rearrangedItemClauses :=
    ⟨by decide, by decide +kernel⟩
  have hread : (read ⟨"1.sql", .postgres⟩
      (Text.around "CREATE TABLE s.t " (Text.listed 1 itemClauses) ";")).toOption.any
        (fun statement => statement.primaryKey == ["a"] &&
          statement.columns.map Column.unique == [false, true]) = true := by
    decide +kernel
  refine ⟨hbefore, hclauses, hmoved, ?_⟩
  -- the statement with the clauses in the first order, which is read as stated
  cases hfirst : read ⟨"1.sql", .postgres⟩
      (Text.around "CREATE TABLE s.t " (Text.listed 1 itemClauses) ";") with
  | error error =>
      rw [hfirst] at hread
      cases hread
  | ok statement =>
      rw [hfirst] at hread
      obtain ⟨hkey, hunique⟩ := (Bool.and_eq_true _ _).mp hread
      exact ⟨statement, eq_of_beq hkey, eq_of_beq hunique, rfl,
        (read_rearranged_iff 1 hbefore hclauses hmoved).mp hfirst⟩

end CreateTable

end Schemata
