import Schemata.DataType

/-!
# Columns

A column has a name, a type, the constraints that concern it alone, and a record of the migration
files that created and last changed it.

What is known of a primary key is known column by column: each of its columns has the flag, and none
of them may be empty (`Column.asPrimaryKey`).
-/

namespace Schemata

/-- A column of a table. -/
structure Column where
  /-- The name. -/
  name : String
  /-- The type, of the elements for an array column. -/
  dataType : DataType
  /-- The column may be empty. -/
  nullable : Bool
  /-- The column holds arrays. -/
  array : Bool
  /-- The default expression as written. -/
  defaultValue : Option String
  /-- The column is part of the primary key. -/
  primaryKey : Bool
  /-- The column alone has a uniqueness constraint. -/
  unique : Bool
  /-- The migration file that created the column. -/
  createdIn : String
  /-- The migration file that last changed the column. -/
  modifiedIn : Option String
  deriving DecidableEq, Repr, Inhabited

namespace Column

/-- A nullable column without constraints or provenance. -/
def plain (name : String) (dataType : DataType) : Column :=
  { name, dataType, nullable := true, array := false, defaultValue := none, primaryKey := false,
    unique := false, createdIn := "", modifiedIn := none }

/-- The column as part of the primary key, which no row may leave empty. -/
def asPrimaryKey (column : Column) : Column :=
  { column with primaryKey := true, nullable := false }

/-- The type of the column. -/
def columnType (column : Column) : ColumnType :=
  ⟨column.dataType, column.array⟩

/-- The column with another type. -/
def withType (column : Column) (type : ColumnType) : Column :=
  { column with dataType := type.dataType, array := type.array }

/-- The column as changed by a migration file. -/
def touchedBy (column : Column) (file : String) : Column :=
  { column with modifiedIn := some file }

/-- The type as shown in messages: array columns end in brackets. -/
def typeText (column : Column) : String :=
  if column.array then column.dataType.text ++ "[]" else column.dataType.text

end Column

end Schemata
