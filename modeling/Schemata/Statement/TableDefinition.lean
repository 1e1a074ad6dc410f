import Schemata.Statement.ColumnDefinition
import Schemata.Statement.TableConstraint

/-!
# `CREATE TABLE`

The body of the statement is a list of clauses, each a constraint or a column.  The clauses are
gathered from the left (`CreateTable.readClause`); then the columns of the primary key and of
single-column uniqueness constraints get their flags, and the foreign keys are expanded.

The flags are set last because a constraint may stand in front of the columns that it names.  A
uniqueness constraint of a column that does not exist is passed over, and a primary key of one is
refused (`CreateTable.markKey`).  The type of a primary key is checked where a column gets the flag,
with its own definition or here.
-/

namespace Schemata

/-- What the clauses of a table body declare. -/
structure TableBody where
  /-- The columns. -/
  columns : List Column
  /-- The foreign keys of columns and of the table, in the order written. -/
  foreignKeys : List ForeignKeyConstraint
  /-- The columns of the table-level primary key. -/
  primaryKey : List String
  /-- The columns with a table-level uniqueness constraint of their own. -/
  unique : List String
  deriving DecidableEq, Repr, Inhabited

namespace TableBody

/-- No clauses. -/
def empty : TableBody := ⟨[], [], [], []⟩

/-- The body with a constraint added.  A table has one table-level primary key at most. -/
def addConstraint (body : TableBody) : TableConstraint → Except Fault TableBody
  | .primaryKey _ columns =>
      if body.primaryKey.isEmpty then .ok { body with primaryKey := columns }
      else .error .multiplePrimaryKeys
  | .foreignKey constraint => .ok { body with foreignKeys := body.foreignKeys ++ [constraint] }
  | .unique _ [column] => .ok { body with unique := body.unique ++ [column] }
  | _ => .ok body

/-- The body with a column added.  No two columns have one name. -/
def addColumn (body : TableBody) (definition : ColumnDefinition) : Except Fault TableBody :=
  if body.columns.any (·.name == definition.column.name) then
    .error (.duplicateColumn definition.column.name)
  else
    .ok { body with
      columns := body.columns ++ [definition.column]
      foreignKeys := body.foreignKeys ++ definition.foreignKey.toList }

end TableBody

/-- The columns with `change` made to the one of the given name. -/
def mapColumn (change : Column → Column) (name : String) (columns : List Column) : List Column :=
  columns.map fun column => if column.name == name then change column else column

namespace CreateTable

/-- What stands before and in the body of the statement. -/
structure Header where
  name : ObjectName
  ifNotExists : Bool
  /-- The text of the body. -/
  body : String
  deriving DecidableEq, Repr, Inhabited

/-- Takes the words of the statement up to its body. -/
def readHeader : Reading Header := do
  discard (Reading.expectKeyword "create")
  discard (Reading.acceptAny ["global", "local"])
  discard (Reading.acceptAny ["temp", "temporary", "unlogged"])
  discard (Reading.expectKeyword "table")
  let ifNotExists ← Reading.acceptAll ["if", "not", "exists"]
  let word ← Reading.expectWord "table name"
  let name := ObjectName.read (Text.head word)
  if name.base.isEmpty then Reading.fail (.expected "table name")
  else
    match ← Reading.group? word with
    | none => Reading.fail .missingColumnList
    | some body => return ⟨name, ifNotExists, body⟩

/-- A fault of the statement as a whole. -/
def blame {α : Type} (origin : Origin) (text : String) : Except Fault α → Except ParseError α
  | .ok value => .ok value
  | .error fault => .error (.ofFault origin.file text fault)

/-- Reads one clause and adds it to the body. -/
def readClause (origin : Origin) (text table : String) (body : TableBody) (clause : String) :
    Except ParseError TableBody := do
  match ← TableConstraint.read? origin clause with
  | some constraint => blame origin text (body.addConstraint constraint)
  | none =>
      let definition ← ColumnDefinition.read origin table clause
      blame origin text (body.addColumn definition)

/-- Makes one column part of the primary key and checks its type. -/
def markKey (origin : Origin) (text table : String) (columns : List Column) (key : String) :
    Except ParseError (List Column) :=
  match columns.find? (·.name == key) with
  | none => .error (.ofFault origin.file text (.unknownKeyColumn key))
  | some column => do
      origin.checkPrimaryKey table column.asPrimaryKey
      return mapColumn Column.asPrimaryKey key columns

/-- The columns of a body with the flags of its table-level constraints. -/
def markColumns (origin : Origin) (text table : String) (body : TableBody) :
    Except ParseError (List Column) := do
  let keyed ← body.primaryKey.foldlM (markKey origin text table) body.columns
  return body.unique.foldl (fun columns name => mapColumn ({ · with unique := true }) name columns)
    keyed

/-- Reads a `CREATE TABLE` statement. -/
def read (origin : Origin) (text : String) : Except ParseError CreateTable := do
  let header ← readHeader.ofText origin.file text
  let table := header.name.base
  match Text.clauses header.body with
  | [] => blame origin text (.error .emptyColumnList)
  | clauses =>
      let body ← clauses.foldlM (readClause origin text table) .empty
      let columns ← markColumns origin text table body
      return {
        name := header.name
        ifNotExists := header.ifNotExists
        columns := columns
        foreignKeys := body.foreignKeys.flatMap (·.expand table origin.file)
        primaryKey := body.primaryKey }

end CreateTable

end Schemata
