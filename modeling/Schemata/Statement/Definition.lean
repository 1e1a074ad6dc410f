import Schemata.Reader
import Schemata.Statement

/-!
# Definitions of schemas, indexes and enum types

The readers of the `CREATE` statements that describe no table.  Each is one walk over the words of
the statement.

* `CreateSchema.read`: the name may be left out in front of `AUTHORIZATION`, and then it is the one
  of the owner.
* `CreateIndex.read`: the columns are taken without their sort order, and the conditions and storage
  parameters behind them are not looked at.
* `CreateEnum.read`: the values must be string literals, and there may be none.
-/

namespace Schemata

namespace CreateSchema

/-- Takes the words of `CREATE SCHEMA`.  Without a name of its own a schema has its owner's. -/
def readWords : Reading CreateSchema := do
  discard (Reading.expectKeyword "create")
  discard (Reading.expectKeyword "schema")
  let ifNotExists ← Reading.acceptAll ["if", "not", "exists"]
  discard (Reading.accept "authorization")
  let name ← Reading.expectIdentifier "schema name"
  if ← Reading.accept "authorization" then discard (Reading.expectWord "role name")
  Reading.expectEnd
  return ⟨name, ifNotExists⟩

/-- Reads a `CREATE SCHEMA` statement. -/
def read (origin : Origin) (text : String) : Except ParseError CreateSchema :=
  readWords.ofText origin.file text

end CreateSchema

namespace CreateIndex

/-- The words that may follow an indexed column. -/
def orderKeywords : List String :=
  ["asc", "desc", "first", "last", "nulls"]

/-- An indexed column without its sort order; an expression as written. -/
def indexedColumn (clause : String) : String :=
  match (Text.words clause).reverse.dropWhile (Text.isAnyKeyword · orderKeywords) with
  | [column] =>
      if column.toList.contains '(' then Text.trim clause else Text.unquoteIdentifier column
  | _ => Text.trim clause

/-- Takes the column list, which follows the table or the index method. -/
def readColumns (table : String) : Reading (Option String) := do
  match ← Reading.group? table with
  | some body => return some body
  | none =>
      if ← Reading.accept "using" then
        let method ← Reading.expectWord "index method"
        Reading.group? method
      else return none

/-- Takes the words of `CREATE INDEX`; what follows the column list is not looked at. -/
def readWords : Reading CreateIndex := do
  discard (Reading.expectKeyword "create")
  let unique ← Reading.accept "unique"
  discard (Reading.expectKeyword "index")
  discard (Reading.accept "concurrently")
  let ifNotExists ← Reading.acceptAll ["if", "not", "exists"]
  let name ←
    if (← get).nextIs "on" then pure none else some <$> Reading.expectIdentifier "index name"
  discard (Reading.expectKeyword "on")
  discard (Reading.accept "only")
  let word ← Reading.expectWord "table name"
  match ← readColumns word with
  | none => Reading.fail (.expected "indexed column list")
  | some body =>
      match (Text.clauses body).map indexedColumn with
      | [] => Reading.fail .emptyIndexedColumns
      | columns => return ⟨name, ObjectName.read (Text.head word), columns, unique, ifNotExists⟩

/-- Reads a `CREATE INDEX` statement. -/
def read (origin : Origin) (text : String) : Except ParseError CreateIndex :=
  readWords.ofText origin.file text

end CreateIndex

namespace CreateEnum

/-- The value that a literal spells. -/
def readValue (value : String) : Reading String :=
  match Text.unquoteLiteral? value with
  | some text => return text
  | none => Reading.fail (.notLiteral value)

/-- Takes the words of `CREATE TYPE … AS ENUM`. -/
def readWords : Reading CreateEnum := do
  discard (Reading.expectKeyword "create")
  discard (Reading.expectKeyword "type")
  let name := ObjectName.read (← Reading.expectWord "type name")
  discard (Reading.expectKeyword "as")
  let keyword ← Reading.expectKeyword "enum"
  let body ← Reading.expectGroup keyword "values"
  Reading.expectEnd
  return ⟨name, ← (Text.clauses body).mapM readValue⟩

/-- Reads a `CREATE TYPE … AS ENUM` statement. -/
def read (origin : Origin) (text : String) : Except ParseError CreateEnum :=
  readWords.ofText origin.file text

end CreateEnum

end Schemata
