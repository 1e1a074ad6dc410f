import Schemata.Statement.Reference

/-!
# Column definitions

A column definition is a name, a type and constraints.  Reading has two parts: the words are taken
as a list of `ColumnConstraint`s, and the constraints are then put on the column one after the other
(`ColumnDraft.add`).  Faults arise only in the first part, so that what a definition means is a
plain fold.

The type reaches up to the first word that starts a constraint (`columnKeywords`), and so does a
default value behind its first word.  The name that `CONSTRAINT` gives waits in the draft until a
reference takes it, over whatever stands between the two.  Words that are not known are stepped
over.
-/

namespace Schemata

/-- The words that end the type of a column. -/
def columnKeywords : List String :=
  ["not", "null", "primary", "key", "unique", "default", "references", "check", "constraint",
    "collate", "generated"]

/-- The word ends the type of a column, or an expression among its constraints. -/
def isColumnKeyword (word : String) : Bool :=
  Text.isAnyKeyword word columnKeywords

/-- A constraint of one column. -/
inductive ColumnConstraint where
  | notNull
  | null
  | primaryKey
  | unique
  | defaultValue (expression : String)
  | references (reference : Reference)
  /-- `CONSTRAINT name`, which names the next foreign key. -/
  | named (name : String)
  /-- A collation, a check, a generation rule or an unknown word, none of which is kept. -/
  | untracked
  deriving DecidableEq, Repr, Inhabited

namespace ColumnConstraint

/-- Takes the value behind `DEFAULT`: one word, and more up to the next constraint. -/
def readDefault : Reading ColumnConstraint := do
  let first ← Reading.expectWord "default value"
  let others ← Reading.takeWhile (! isColumnKeyword ·)
  return defaultValue (Text.unwords (first :: others))

/-- Takes the reference of a column, which has one column on each side. -/
def readReference (column : String) : Reading ColumnConstraint := do
  let reference := (← Reference.read).orId
  if reference.columns.length == 1 then return references reference
  else Reading.fail (.columnReferences column reference.columns.length)

/-- Takes a part of a generation rule: `BY DEFAULT` or a word that starts no constraint. -/
def readGeneratedPart? : Reading (Option Unit) := do
  if ← Reading.acceptAll ["by", "default"] then return some ()
  else
    match (← get).peek with
    | some word =>
        if isColumnKeyword word then return none
        else
          Reading.skip 1
          return some ()
    | none => return none

/-- Takes the constraint that starts with `word`, a word already taken. -/
def readFrom (column word : String) : Reading ColumnConstraint := do
  match Text.lower word with
  | "not" =>
      discard (Reading.expectKeyword "null")
      return notNull
  | "null" => return null
  | "primary" =>
      discard (Reading.expectKeyword "key")
      return primaryKey
  | "unique" => return unique
  | "default" => readDefault
  | "references" => readReference column
  | "collate" =>
      discard (Reading.expectWord "collation")
      return untracked
  | "constraint" => return named (← Reading.expectIdentifier "constraint name")
  | "generated" =>
      discard (Reading.many readGeneratedPart?)
      return untracked
  | "key" => Reading.fail .keyWithoutPrimary
  | _ =>
      if Text.isKeyword word "check" then discard (Reading.group? word)
      return untracked

/-- Takes the next constraint of a column; declines at the end of the words. -/
def read? (column : String) : Reading (Option ColumnConstraint) := do
  match ← Reading.next? with
  | some word => return some (← readFrom column word)
  | none => return none

end ColumnConstraint

/-- A column while its constraints are put on it. -/
structure ColumnDraft where
  /-- The column so far. -/
  column : Column
  /-- The foreign key so far. -/
  foreignKey : Option ForeignKeyConstraint
  /-- The name for the next foreign key. -/
  pendingName : Option String
  deriving DecidableEq, Repr, Inhabited

namespace ColumnDraft

/-- Puts one constraint on the column. -/
def add (draft : ColumnDraft) : ColumnConstraint → ColumnDraft
  | .notNull => { draft with column := { draft.column with nullable := false } }
  | .null =>
      if draft.column.primaryKey then draft
      else { draft with column := { draft.column with nullable := true } }
  | .primaryKey => { draft with column := draft.column.asPrimaryKey }
  | .unique => { draft with column := { draft.column with unique := true } }
  | .defaultValue expression =>
      { draft with column := { draft.column with defaultValue := some expression } }
  | .references reference =>
      { draft with
        foreignKey := some (reference.constraint draft.pendingName [draft.column.name])
        pendingName := none }
  | .named name => { draft with pendingName := some name }
  | .untracked => draft

/-- The declared column. -/
def definition (draft : ColumnDraft) : ColumnDefinition :=
  ⟨draft.column, draft.foreignKey⟩

end ColumnDraft

namespace ColumnDefinition

/-- Takes the name and the type of a column, as a column without constraints. -/
def readColumn (file : String) : Reading Column := do
  let name ← Reading.expectIdentifier "column name"
  let words ← Reading.takeWhile (! isColumnKeyword ·)
  if words.isEmpty then Reading.fail (.missingType name)
  else
    match ColumnType.read? (Text.unwords words) with
    | none => Reading.fail (.invalidType (Text.unwords words))
    | some type =>
        return { Column.plain name type.dataType with array := type.array, createdIn := file }

/-- Takes a whole column definition. -/
def readWords (file : String) : Reading ColumnDefinition := do
  let column ← readColumn file
  let constraints ← Reading.many (ColumnConstraint.read? column.name)
  return (constraints.foldl ColumnDraft.add ⟨column, none, none⟩).definition

/-- Reads a column definition of a table and checks its type if it is a primary key. -/
def read (origin : Origin) (table text : String) : Except ParseError ColumnDefinition := do
  let definition ← (readWords origin.file).ofText origin.file text
  origin.checkPrimaryKey table definition.column
  return definition

end ColumnDefinition

end Schemata
