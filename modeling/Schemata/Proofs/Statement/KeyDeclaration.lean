import Schemata.Proofs.Outcome
import Schemata.Proofs.Statement.ColumnDeclaration
import Schemata.Proofs.Text.Opening

/-!
# Foreign keys as written

A foreign key of a table is written with a name or without, with its columns, and with a reference.
Up to the word `REFERENCES` its reading is settled by what is written; the rest is
`TableConstraint.readTarget`.

What stands behind that word may be anything here, so that the same lemmas serve a reference that is
known word by word and one of which nothing is known.  Of the latter it can still be said that the
constraint is a foreign key on the written columns, under the written name, with as many columns on
the other side (`TableConstraint.IsKeyOf`); any other reference is refused.

* `TableConstraint.read?_foreignKey`: a clause that opens as a foreign key is read as its reference.
-/

namespace Schemata

/-! ## Words -/

namespace Text

/-- The words that name a constraint, if it has a name. -/
def named : Option String → List String
  | some name => ["CONSTRAINT", quoted '\x22' name]
  | none => []

/-- Quoted names in parentheses. -/
def columnGroup (columns : List String) : String :=
  "(" ++ listed 1 (columns.map (quoted '\x22')) ++ ")"

variable {columns : List String}

theorem isListed_of_mem_quoted {clause : String} (hclause : clause ∈ columns.map (quoted '\x22')) :
    Chars.IsListed clause.toList := by
  obtain ⟨column, -, rfl⟩ := List.mem_map.mp hclause
  exact (isWord_quoted rfl column).isListed

theorem balanced_columns (columns : List String) :
    Chars.Balanced (listed 1 (columns.map (quoted '\x22'))).toList :=
  balanced_listed 1 fun _ hclause => (isListed_of_mem_quoted hclause).toBalanced

theorem isWord_columnGroup (columns : List String) :
    Chars.IsWord (columnGroup columns).toList :=
  isWord_group (balanced_columns columns)

theorem group?_columnGroup (columns : List String) :
    group? (columnGroup columns) = some (listed 1 (columns.map (quoted '\x22'))) :=
  group?_group (balanced_columns columns)

theorem head?_columnGroup (columns : List String) :
    (columnGroup columns).toList.head? = some '(' := by
  rw [columnGroup, toList_group]
  rfl

/-- The names are read off the group. -/
theorem identifiers_columns (columns : List String) :
    identifiers (listed 1 (columns.map (quoted '\x22'))) = columns := by
  rw [identifiers, clauses_listed 1 fun _ hclause => isListed_of_mem_quoted hclause, List.map_map]
  exact List.map_id'' (fun column => unquoteIdentifier_quoted column) columns

end Text

/-! ## Constraints -/

/-- The names of the keys that a named constraint on some columns is stored as. -/
def ForeignKeyConstraint.storedNames (name : String) (columns : List String) : List String :=
  if columns.length > 1 then columns.map fun column => name ++ "_" ++ column else [name]

/-- A constraint with as many columns on both sides is stored under these names. -/
theorem ForeignKeyConstraint.names_expand {constraint : ForeignKeyConstraint} {name : String}
    (hname : constraint.name = some name) (hne : constraint.columns ≠ [])
    (hlength : constraint.referencedColumns.length = constraint.columns.length)
    (table file : String) :
    (constraint.expand table file).map ForeignKey.name = storedNames name constraint.columns := by
  -- no pair of columns is lost, for there are as many on both sides
  have hcolumns : (constraint.columns.zip constraint.referencedColumns).map Prod.fst =
      constraint.columns := List.map_fst_zip (Nat.le_of_eq hlength.symm)
  have hnames : (constraint.expand table file).map ForeignKey.name =
      constraint.columns.map (constraint.keyName table) :=
    calc (constraint.expand table file).map ForeignKey.name
        = ((constraint.columns.zip constraint.referencedColumns).map Prod.fst).map
            (constraint.keyName table) := by
          rw [expand, List.map_map, List.map_map]
          rfl
      _ = constraint.columns.map (constraint.keyName table) := by rw [hcolumns]
  have hkey : ∀ column, constraint.keyName table column =
      if constraint.columns.length > 1 then name ++ "_" ++ column else name := by
    intro column
    rw [keyName, hname]
  rw [hnames, storedNames]
  by_cases hmany : constraint.columns.length > 1
  · rw [if_pos hmany]
    exact List.map_congr_left fun column _ => (hkey column).trans (if_pos hmany)
  · have hone : constraint.columns.length = 1 := by
      have hpos := List.length_pos_of_ne_nil hne
      omega
    obtain ⟨column, hcolumn⟩ := List.length_eq_one_iff.mp hone
    rw [if_neg hmany, hcolumn, List.map_singleton, hkey, if_neg hmany]

namespace TableConstraint

/-- The foreign key on the given columns with a reference to as many. -/
def ofReference (name : Option String) (columns : List String) (reference : Reference) :
    Reading TableConstraint :=
  if reference.columns.length == columns.length then
    return foreignKey (reference.constraint name columns)
  else Reading.fail (.unevenForeignKey columns.length reference.columns.length)

/-- Takes the reference of a foreign key on the given columns. -/
def readTarget (name : Option String) (columns : List String) : Reading TableConstraint := do
  let written ← Reference.read
  ofReference name columns (if columns.length == 1 then written.orId else written)

theorem readForeignKey_eq (name : Option String) : readForeignKey name = (do
    Reading.skip 1
    let key ← Reading.expectKeyword "key"
    match Text.identifiers (← Reading.expectGroup key "columns") with
    | [] => Reading.fail (.emptyKey "FOREIGN")
    | columns =>
        discard (Reading.expectKeyword "references")
        readTarget name columns) := rfl

variable {name : Option String} {columns behind : List String} {origin : Origin} {text : String}

/-- The words of a foreign key up to its reference. -/
def keyWords (name : Option String) (columns : List String) : List String :=
  Text.named name ++ ["FOREIGN", "KEY", Text.columnGroup columns, "REFERENCES"]

/-- These words need no quotes. -/
theorem isWord_of_mem_plain {word : String}
    (hword : word ∈ ["CONSTRAINT", "FOREIGN", "KEY", "REFERENCES"]) : Chars.IsWord word.toList := by
  have hplain : ∀ word ∈ ["CONSTRAINT", "FOREIGN", "KEY", "REFERENCES"],
      Chars.IsNameWord word.toList := by decide
  exact (hplain word hword).isWord

theorem isWord_named {word : String} (hword : word ∈ Text.named name) :
    Chars.IsWord word.toList := by
  cases name with
  | none => cases hword
  | some constraint =>
      obtain rfl | hword := List.mem_cons.mp hword
      · exact isWord_of_mem_plain (by decide)
      · obtain rfl := List.mem_singleton.mp hword
        exact Text.isWord_quoted rfl constraint

theorem isWord_keyWords {word : String} (hword : word ∈ keyWords name columns) :
    Chars.IsWord word.toList := by
  rcases List.mem_append.mp hword with hword | hword
  · exact isWord_named hword
  by_cases hgroup : word = Text.columnGroup columns
  · rw [hgroup]
    exact Text.isWord_columnGroup columns
  · refine isWord_of_mem_plain ?_
    simp only [List.mem_cons, List.not_mem_nil, or_false, hgroup, false_or] at hword ⊢
    exact Or.inr hword

theorem reads_readName? (name : Option String) (rest : List String) :
    Reading.Reads readName? (Text.named name ++ "FOREIGN" :: rest) name ("FOREIGN" :: rest) := by
  cases name with
  | none =>
      have hnot : ∀ word ∈ ("FOREIGN" :: rest).head?, Text.isKeyword word "constraint" = false := by
        intro word hword
        obtain rfl := Option.mem_some_iff.mp hword
        decide
      refine (Reading.reads_accept_none hnot).bind ?_
      rw [if_neg Bool.false_ne_true]
      exact Reading.reads_pure _ _
  | some name =>
      refine (Reading.reads_accept (by decide) _).bind ?_
      rw [if_pos rfl]
      refine (Reading.reads_expectIdentifier _ _ _).bind ?_
      rw [Text.unquoteIdentifier_quoted]
      exact Reading.reads_pure _ _

/-- Behind the columns, the reference is read. -/
theorem run_readForeignKey (name : Option String) (hne : columns ≠ []) {reader : Reader}
    (hwords : reader.remaining =
      "FOREIGN" :: "KEY" :: Text.columnGroup columns :: "REFERENCES" :: behind) :
    ∃ left : Reader, left.remaining = behind ∧
      (readForeignKey name).run reader = (readTarget name columns).run left := by
  have hgroup : Reading.Reads (Reading.expectGroup "KEY" "columns")
      (Text.columnGroup columns :: "REFERENCES" :: behind)
      (Text.listed 1 (columns.map (Text.quoted '\x22'))) ("REFERENCES" :: behind) :=
    Reading.reads_expectGroup (by decide) (Text.head?_columnGroup columns)
      (Text.group?_columnGroup columns) _ _
  have hkey : Text.isKeyword "KEY" "key" = true := by decide
  have hreferences : Text.isKeyword "REFERENCES" "references" = true := by decide
  rw [readForeignKey_eq]
  -- step by step over the known words, up to the columns
  obtain ⟨first, hfirst, hrun⟩ := (Reading.reads_skip 1 _).run_bind _ hwords
  rw [hrun]
  obtain ⟨second, hsecond, hrun⟩ :=
    (Reading.reads_expectKeyword hkey _).run_bind _ hfirst
  rw [hrun]
  obtain ⟨third, hthird, hrun⟩ := hgroup.run_bind _ hsecond
  rw [hrun, Text.identifiers_columns]
  obtain ⟨column, others, rfl⟩ := List.exists_cons_of_ne_nil hne
  exact (Reading.reads_expectKeyword hreferences _).discard.run_bind _ hthird

/-- A clause that opens as a foreign key is read as its reference. -/
theorem read?_foreignKey (hne : columns ≠ [])
    (hwords : Text.words text = keyWords name columns ++ behind) :
    ∃ left : Reader, left.remaining = behind ∧
      read? origin text = (Reading.outcome ((readTarget name columns).run left)).map some := by
  have hstart : (Reader.start origin.file text).remaining = Text.named name ++
      "FOREIGN" :: "KEY" :: Text.columnGroup columns :: "REFERENCES" :: behind := by
    rw [Reader.start, hwords, keyWords, List.append_assoc]
    rfl
  obtain ⟨named, hnamed, hrun⟩ := (reads_readName? name _).run_bind _ hstart
  obtain ⟨left, hleft, hkey⟩ := run_readForeignKey name hne hnamed
  refine ⟨left, hleft, ?_⟩
  -- the word behind the name chooses the branch
  have hprimary : named.nextIs "primary" = false := by
    rw [Reader.nextIs, Reader.peek, hnamed, List.head?_cons, Option.any_some]
    decide
  have hforeign : (named.nextIs "foreign" && named.nextIsAt 1 "key") = true := by
    rw [Reader.nextIs, Reader.peek, Reader.nextIsAt, Reader.peekAt, hnamed]
    have hboth : (Text.isKeyword "FOREIGN" "foreign" && Text.isKeyword "KEY" "key") = true := by
      decide
    exact hboth
  rw [read?, Reading.ofText_eq_outcome, readWords?, hrun, Reading.run_get_bind, hprimary,
    Bool.false_and, if_neg Bool.false_ne_true, hforeign, if_pos rfl, EStateM.run_bind, hkey]
  cases (readTarget name columns).run left <;> rfl

/-- The constraint is a foreign key of the name and the columns, and refers to as many. -/
def IsKeyOf (name : Option String) (columns : List String) (constraint : TableConstraint) : Prop :=
  ∃ key, constraint = foreignKey key ∧ key.name = name ∧ key.columns = columns ∧
    key.referencedColumns.length = columns.length

theorem ofReference_returns (name : Option String) (columns : List String)
    (reference : Reference) :
    Reading.Returns (IsKeyOf name columns) (ofReference name columns reference) := by
  unfold ofReference
  split
  · rename_i hlength
    exact Reading.returns_pure ⟨_, rfl, rfl, rfl, eq_of_beq hlength⟩
  · exact Reading.returns_fail _

theorem readTarget_returns (name : Option String) (columns : List String) :
    Reading.Returns (IsKeyOf name columns) (readTarget name columns) :=
  Reading.returns_bind fun _ => ofReference_returns name columns _

/-- What is read of a clause that opens as a foreign key. -/
theorem eq_foreignKey_of_read? {result : Option TableConstraint} (hne : columns ≠ [])
    (hwords : Text.words text = keyWords name columns ++ behind)
    (hread : read? origin text = .ok result) :
    ∃ constraint, result = some constraint ∧ IsKeyOf name columns constraint := by
  obtain ⟨left, -, htarget⟩ := read?_foreignKey hne hwords
  rw [htarget] at hread
  obtain ⟨constraint, hconstraint, rfl⟩ := except_map_eq_ok.mp hread
  cases hrun : (readTarget name columns).run left with
  | error error last =>
      rw [hrun] at hconstraint
      cases hconstraint
  | ok value last =>
      rw [hrun] at hconstraint
      cases hconstraint
      exact ⟨_, rfl, readTarget_returns name columns hrun⟩

end TableConstraint

end Schemata
