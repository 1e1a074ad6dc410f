import Schemata.Reader
import Schemata.Statement

/-!
# `DROP` statements

All of them have one form: `DROP kind [IF EXISTS] name, … [CASCADE | RESTRICT]`, with
`CONCURRENTLY` allowed for indexes.  `Removal.readNames` reads what they share, and how a name is
read is its parameter: schemas have plain names and all other objects have object names.
-/

namespace Schemata

namespace Removal

/-- Takes the names to drop and the last word of the statement. -/
def readNames {α : Type} (readName : String → α) (what : String) : Reading (Removal α) := do
  let ifExists ← Reading.acceptAll ["if", "exists"]
  let (names, cascade) ← Reading.nameList what
  return ⟨names.map readName, ifExists, cascade⟩

/-- Takes `DROP kind`. -/
def expectKind (kind : String) : Reading Unit := do
  discard (Reading.expectKeyword "drop")
  discard (Reading.expectKeyword kind)

/-- Reads a `DROP TABLE` statement. -/
def readTables (origin : Origin) (text : String) : Except ParseError (Removal ObjectName) :=
  (do expectKind "table"; readNames ObjectName.read "table name" : Reading _).ofText
    origin.file text

/-- Reads a `DROP INDEX` statement. -/
def readIndexes (origin : Origin) (text : String) : Except ParseError (Removal ObjectName) :=
  (do expectKind "index"
      discard (Reading.accept "concurrently")
      readNames ObjectName.read "index name" : Reading _).ofText origin.file text

/-- Reads a `DROP TYPE` statement. -/
def readTypes (origin : Origin) (text : String) : Except ParseError (Removal ObjectName) :=
  (do expectKind "type"; readNames ObjectName.read "type name" : Reading _).ofText
    origin.file text

/-- Reads a `DROP SCHEMA` statement. -/
def readSchemas (origin : Origin) (text : String) : Except ParseError (Removal String) :=
  (do expectKind "schema"; readNames Text.unquoteIdentifier "schema name" : Reading _).ofText
    origin.file text

end Removal

end Schemata
