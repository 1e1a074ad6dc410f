import Schemata.Proofs.Outcome
import Schemata.Proofs.Reader
import Schemata.Statement.ColumnDefinition

/-!
# What a column definition declares

A column definition that is read starts with the name of the column and a word of its type.  Its
foreign key, if it has one, is a key of that column.

This is about any text that is read, not about texts that are printed, so it starts from the run of
the reader.  A draft of the definition belongs to its column from the first constraint on
(`ColumnDraft.IsOf`), and no constraint changes the name or makes a key of another column.

* `ColumnDefinition.exists_of_read`: the column and its constraints, one after the other.
* `ColumnDefinition.words_of_read`: the first two words, the name and the column of the key.
-/

namespace Schemata

/-! ## Steps that succeed -/

namespace Reading

variable {reader left : Reader}

theorem run_expectIdentifier_iff {what name : String} :
    (expectIdentifier what).run reader = .ok name left ↔
      ∃ word, reader.remaining.head? = some word ∧ reader.skip 1 = left ∧
        Text.unquoteIdentifier word = name := by
  rw [expectIdentifier, run_bind_eq_ok]
  constructor
  · rintro ⟨word, middle, hrun, hname⟩
    obtain ⟨hword, rfl⟩ := run_expectWord_iff.mp hrun
    cases hname
    exact ⟨word, hword, rfl, rfl⟩
  · rintro ⟨word, hword, rfl, rfl⟩
    exact ⟨word, _, run_expectWord_iff.mpr ⟨hword, rfl⟩, rfl⟩

theorem run_takeWhile (test : String → Bool) (reader : Reader) :
    (takeWhile test).run reader =
      .ok (reader.remaining.takeWhile test)
        (reader.skip (reader.remaining.takeWhile test).length) := rfl

end Reading

/-! ## The name of the column and its key -/

/-- The draft is one of the column of the given name, and so is its foreign key. -/
structure ColumnDraft.IsOf (name : String) (draft : ColumnDraft) : Prop where
  column : draft.column.name = name
  foreignKey : ∀ constraint ∈ draft.foreignKey, constraint.columns = [name]

theorem ColumnDraft.IsOf.add {name : String} {draft : ColumnDraft} (hdraft : draft.IsOf name)
    (constraint : ColumnConstraint) : (draft.add constraint).IsOf name := by
  cases constraint with
  | null =>
      rw [ColumnDraft.add]
      split
      · exact hdraft
      · exact ⟨hdraft.column, hdraft.foreignKey⟩
  | references reference =>
      refine ⟨hdraft.column, fun key hkey => ?_⟩
      cases hkey
      rw [Reference.constraint, hdraft.column]
  | _ => exact ⟨hdraft.column, hdraft.foreignKey⟩

theorem ColumnDraft.IsOf.foldl_add {name : String} {draft : ColumnDraft}
    (hdraft : draft.IsOf name) (constraints : List ColumnConstraint) :
    (constraints.foldl ColumnDraft.add draft).IsOf name :=
  List.foldlRecOn constraints ColumnDraft.add hdraft
    fun _ hcurrent constraint _ => hcurrent.add constraint

namespace ColumnDefinition

variable {origin : Origin} {file table text : String} {definition : ColumnDefinition}
  {reader left : Reader}

/-- The name and the type of a column take its first two words at least. -/
theorem run_readColumn_iff {column : Column} :
    (readColumn file).run reader = .ok column left ↔
      ∃ word, reader.remaining.head? = some word ∧
        ∃ type, (reader.skip 1).remaining.takeWhile (! isColumnKeyword ·) ≠ [] ∧
          ColumnType.read? (Text.unwords
            ((reader.skip 1).remaining.takeWhile (! isColumnKeyword ·))) = some type ∧
          column = { Column.plain (Text.unquoteIdentifier word) type.dataType with
            array := type.array, createdIn := file } ∧
          left = (reader.skip 1).skip
            ((reader.skip 1).remaining.takeWhile (! isColumnKeyword ·)).length := by
  simp only [readColumn, Reading.run_bind_eq_ok, Reading.run_expectIdentifier_iff,
    Reading.run_takeWhile]
  constructor
  · rintro ⟨_, _, ⟨word, hword, rfl, rfl⟩, words, middle, hwords, hrun⟩
    obtain ⟨rfl, rfl⟩ := EStateM.Result.ok.inj hwords
    refine ⟨word, hword, ?_⟩
    split at hrun
    · cases hrun
    rename_i hne
    split at hrun
    · cases hrun
    · rename_i type htype
      cases hrun
      exact ⟨type, by simpa using hne, htype, rfl, rfl⟩
  · rintro ⟨word, hword, type, hne, htype, rfl, rfl⟩
    refine ⟨_, _, ⟨word, hword, rfl, rfl⟩, _, _, rfl, ?_⟩
    rw [if_neg (by simpa using hne), htype]
    rfl

/-- A column definition that is read, as the words of its column and its constraints. -/
theorem exists_of_read (hread : read origin table text = .ok definition) :
    ∃ column middle constraints left,
      (readColumn origin.file).run (Reader.start origin.file text) = .ok column middle ∧
      (Reading.many (ColumnConstraint.read? column.name)).run middle = .ok constraints left ∧
      (constraints.foldl ColumnDraft.add ⟨column, none, none⟩).definition = definition ∧
      origin.checkPrimaryKey table definition.column = .ok () := by
  simp only [read, except_bind_eq_ok, except_pure_eq_ok] at hread
  obtain ⟨declared, hwords, ⟨⟩, hcheck, rfl⟩ := hread
  obtain ⟨last, hrun⟩ := Reading.ofText_eq_ok_iff.mp hwords
  simp only [readWords, Reading.run_bind_eq_ok] at hrun
  obtain ⟨column, middle, hcolumn, constraints, left, hconstraints, hrun⟩ := hrun
  cases hrun
  exact ⟨column, middle, constraints, _, hcolumn, hconstraints, rfl, hcheck⟩

/-- The type of a column that is read suits its key. -/
theorem checkPrimaryKey_of_read (hread : read origin table text = .ok definition) :
    origin.checkPrimaryKey table definition.column = .ok () := by
  obtain ⟨-, -, -, -, -, -, -, hcheck⟩ := exists_of_read hread
  exact hcheck

/-- A column definition starts with a name and a word of a type. -/
theorem words_of_read (hread : read origin table text = .ok definition) :
    ∃ first second others, Text.words text = first :: second :: others ∧
      isColumnKeyword second = false ∧
      definition.column.name = Text.unquoteIdentifier first ∧
      ∀ constraint ∈ definition.foreignKey, constraint.columns = [definition.column.name] := by
  obtain ⟨column, middle, constraints, left, hcolumn, -, rfl, -⟩ := exists_of_read hread
  obtain ⟨first, hfirst, type, hne, -, hdeclared, -⟩ := run_readColumn_iff.mp hcolumn
  have hnamed : column.name = Text.unquoteIdentifier first := congrArg Column.name hdeclared
  -- the draft starts as one of this column, and every constraint keeps it so
  have hplain : ColumnDraft.IsOf (Text.unquoteIdentifier first) ⟨column, none, none⟩ :=
    ⟨hnamed, fun _ hkey => absurd hkey (Option.not_mem_none _)⟩
  have hof := hplain.foldl_add constraints
  obtain ⟨behind, hwords⟩ := List.head?_eq_some_iff.mp hfirst
  have hskip : ((Reader.start origin.file text).skip 1).remaining = behind :=
    congrArg (List.drop 1) hwords
  rw [hskip] at hne
  -- the type is not empty, so that the second word is there and is no keyword
  cases behind with
  | nil => exact absurd rfl hne
  | cons second others =>
      have htype : isColumnKeyword second = false := by
        cases hkeyword : isColumnKeyword second with
        | false => rfl
        | true =>
            rw [List.takeWhile_cons, hkeyword] at hne
            exact absurd rfl hne
      refine ⟨first, second, others, hwords, htype, hof.column, fun constraint hconstraint => ?_⟩
      rw [hof.foreignKey constraint hconstraint]
      exact congrArg (fun name => [name]) hof.column.symm

end ColumnDefinition

end Schemata
