import Schemata.Family

/-!
# Errors of reading

A statement is refused for one of two reasons: its text breaks the grammar, or it declares a primary
key of a type that the database family does not allow.  A `Fault` says what is wrong with a text;
`Fault.message` is the one place where faults are worded.

A fault is shown with the text that it was found in.  That is the statement as a whole, or the
clause of it that has a reader of its own; either way it is shown without the blanks around it
(`ParseError.ofFault`).  A primary key of the wrong type is shown by table and column, with the type
that was found and the one that the family requires.
-/

namespace Schemata

/-- What is wrong with the text of a statement. -/
inductive Fault where
  /-- Nothing but blanks and semicolons. -/
  | emptyStatement
  /-- Something is missing at the end of the words. -/
  | expected (what : String)
  /-- Another word, or the end, stands where a keyword belongs. -/
  | expectedKeyword (keyword : String) (found : Option String)
  /-- No group follows a word. -/
  | expectedGroup (what after : String)
  /-- A word is left over. -/
  | unexpected (word : String)
  /-- No type follows the name of a column. -/
  | missingType (column : String)
  /-- The type of a column has no name. -/
  | invalidType (text : String)
  /-- A column refers to no or several columns. -/
  | columnReferences (column : String) (count : Nat)
  /-- `KEY` stands alone among the constraints of a column. -/
  | keyWithoutPrimary
  /-- No referential action follows `ON` and an event. -/
  | invalidAction (event : String)
  /-- The event after `ON` is neither a deletion nor an update. -/
  | unknownEvent (event : String)
  /-- A primary or foreign key names no columns. -/
  | emptyKey (kind : String)
  /-- The two sides of a foreign key have different lengths. -/
  | unevenForeignKey (columns referenced : Nat)
  /-- No column list follows the name of a new table. -/
  | missingColumnList
  /-- The column list of a new table is empty. -/
  | emptyColumnList
  /-- Two table-level primary keys. -/
  | multiplePrimaryKeys
  /-- Two columns of one name. -/
  | duplicateColumn (column : String)
  /-- The primary key names a column that the table does not have. -/
  | unknownKeyColumn (column : String)
  /-- Nothing follows the name of the table to alter. -/
  | missingOperation
  /-- The column list of an index is empty. -/
  | emptyIndexedColumns
  /-- A value of an enum type is not a string literal. -/
  | notLiteral (value : String)
  /-- Any other fault, in words. -/
  | other (message : String)
  deriving DecidableEq, Repr, Inhabited

namespace Fault

/-- The wording of a fault. -/
def message : Fault → String
  | emptyStatement => "empty statement"
  | expected what => s!"expected {what}"
  | expectedKeyword keyword (some word) =>
      s!"expected {Text.upper keyword}, found '{word}'"
  | expectedKeyword keyword none =>
      s!"expected {Text.upper keyword}, found end of input"
  | expectedGroup what after => s!"expected ({what}) after {Text.upper after}"
  | unexpected word => s!"unexpected '{word}'"
  | missingType column => s!"missing type for column '{column}'"
  | invalidType text => s!"invalid type '{text}'"
  | columnReferences column count => s!"column '{column}' references {Nat.repr count} columns"
  | keyWithoutPrimary => "KEY without PRIMARY"
  | invalidAction event => s!"invalid referential action after ON {event}"
  | unknownEvent event => s!"expected DELETE or UPDATE after ON, found '{event}'"
  | emptyKey kind => s!"empty {kind} KEY column list"
  | unevenForeignKey columns referenced =>
      s!"FOREIGN KEY has {Nat.repr columns} columns but references {Nat.repr referenced}"
  | missingColumnList => "missing column list"
  | emptyColumnList => "empty column list"
  | multiplePrimaryKeys => "multiple primary keys"
  | duplicateColumn column => s!"duplicate column '{column}'"
  | unknownKeyColumn column => s!"PRIMARY KEY references unknown column '{column}'"
  | missingOperation => "missing ALTER TABLE operation"
  | emptyIndexedColumns => "empty indexed column list"
  | notLiteral value => s!"enum value {value} is not a string literal"
  | other message => message

end Fault

/-- Why a text was refused. -/
inductive ParseError where
  /-- The text of a statement or clause has a fault. -/
  | malformed (file statement : String) (fault : Fault)
  /-- A primary-key column has a type that the family does not allow, in place of the required
  one. -/
  | primaryKeyType (file table column found required : String) (family : Family)
  /-- No family has this name. -/
  | unknownFamily (text : String)
  deriving DecidableEq, Repr, Inhabited

namespace ParseError

/-- The wording of an error. -/
def message : ParseError → String
  | malformed file statement fault =>
      s!"Syntax error in migration '{file}': {fault.message} in `{statement}`"
  | primaryKeyType file table column found required family =>
      s!"Migration '{file}': primary key column '{table}.{column}' has type '{found}', " ++
        s!"but {family.name} requires primary keys of type '{required}'"
  | unknownFamily text => s!"Unknown database family '{text}'"

/-- The error of a fault in a text; the text is shown without the blanks around it. -/
def ofFault (file text : String) (fault : Fault) : ParseError :=
  malformed file (Text.trim text) fault

end ParseError

/-- Where a statement comes from: its migration file and the family that the file targets. -/
structure Origin where
  /-- The migration file. -/
  file : String
  /-- The database family. -/
  family : Family
  deriving DecidableEq, Repr, Inhabited

/-- Refuses a primary-key column of a type that the family does not allow. -/
def Origin.checkPrimaryKey (origin : Origin) (table : String) (column : Column) :
    Except ParseError Unit :=
  if origin.family.accepts column then .ok ()
  else
    .error (.primaryKeyType origin.file table column.name column.typeText
      origin.family.primaryKeyType origin.family)

/-- The family that a user's text names. -/
def Family.read (text : String) : Except ParseError Family :=
  match Family.read? text with
  | some family => .ok family
  | none => .error (.unknownFamily text)

end Schemata
