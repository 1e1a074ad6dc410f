import Schemata.Statement.ColumnDefinition
import Schemata.Statement.TableConstraint

/-!
# `ALTER TABLE`

A statement with one operation is read in full.  Several comma-separated operations are kept as
texts, to be read and carried out one after the other.

An operation is read in two passes.  The first walks over its words and stops where a constraint or
a column begins (`Operation.Outline`), and the second gives the text from there on to the reader
that `CREATE TABLE` uses for its clauses.  What is added to a table is thus read as it would be in
the table's own declaration.  An operation with another first word is kept as text, and refused only
when it is to be carried out.
-/

namespace Schemata

/-- The words that start a table constraint behind `ADD`. -/
def constraintKeywords : List String :=
  ["constraint", "primary", "foreign", "unique", "check", "exclude"]

namespace ColumnChange

/-- Takes the type behind `TYPE`, up to a `USING` or `COLLATE` part. -/
def readType : Reading ColumnChange := do
  let words ← Reading.takeWhile fun word => !Text.isAnyKeyword word ["using", "collate"]
  match ColumnType.read? (Text.unwords words) with
  | some columnType => return ColumnChange.type columnType
  | none => Reading.fail (.expected "type after TYPE")

/-- Takes the expression behind `SET DEFAULT`. -/
def readDefault : Reading ColumnChange := do
  match ← Reading.rest with
  | [] => Reading.fail (.expected "value after SET DEFAULT")
  | words => return setDefault (Text.unwords words)

/-- Takes what follows the name of the column. -/
def read : Reading ColumnChange := do
  if ← Reading.accept "type" then readType
  else if ← Reading.acceptAll ["set", "data", "type"] then readType
  else if ← Reading.acceptAll ["set", "not", "null"] then
    Reading.expectEnd
    return setNotNull
  else if ← Reading.acceptAll ["drop", "not", "null"] then
    Reading.expectEnd
    return dropNotNull
  else if ← Reading.acceptAll ["set", "default"] then readDefault
  else if ← Reading.acceptAll ["drop", "default"] then
    Reading.expectEnd
    return dropDefault
  else
    let reader ← get
    if reader.atEnd then Reading.fail (.expected "column change")
    else return unsupported (Text.trim reader.text)

end ColumnChange

namespace Operation

/-- A first reading of an operation.  What is added has a grammar of its own and is left as text. -/
inductive Outline where
  | whole (operation : Operation)
  | constraint (text : String)
  | column (text : String) (ifNotExists : Bool)
  deriving DecidableEq, Repr, Inhabited

/-- Takes what follows `ADD`, up to the text of the constraint or column. -/
def readAdd : Reading Outline := do
  if (← get).peek.any (Text.isAnyKeyword · constraintKeywords) then
    return .constraint (← get).remainder
  else
    discard (Reading.accept "column")
    let ifNotExists ← Reading.acceptAll ["if", "not", "exists"]
    let reader ← get
    if reader.atEnd then Reading.fail (.expected "column definition")
    else return .column reader.remainder ifNotExists

/-- Takes an optional `CASCADE` or `RESTRICT` and refuses anything else. -/
def expectDropEnd : Reading Unit := do
  discard (Reading.acceptAny ["cascade", "restrict"])
  Reading.expectEnd

/-- Takes what follows `DROP`. -/
def readDrop : Reading Operation := do
  if ← Reading.accept "constraint" then
    let ifExists ← Reading.acceptAll ["if", "exists"]
    let name ← Reading.expectIdentifier "constraint name"
    expectDropEnd
    return dropConstraint name ifExists
  else
    discard (Reading.accept "column")
    let ifExists ← Reading.acceptAll ["if", "exists"]
    let column ← Reading.expectIdentifier "column name"
    expectDropEnd
    return dropColumn column ifExists

/-- Takes what follows `ALTER`. -/
def readAlter : Reading Operation := do
  discard (Reading.accept "column")
  let column ← Reading.expectIdentifier "column name"
  return alterColumn column (← ColumnChange.read)

/-- Takes `source TO target` and refuses anything behind it. -/
def readRenaming (what newWhat : String) : Reading (String × String) := do
  let source ← Reading.expectIdentifier what
  discard (Reading.expectKeyword "to")
  let target ← Reading.expectIdentifier newWhat
  Reading.expectEnd
  return (source, target)

/-- Takes what follows `RENAME`. -/
def readRename : Reading Operation := do
  if ← Reading.accept "to" then
    let target := ObjectName.read (← Reading.expectWord "new table name")
    Reading.expectEnd
    return renameTable target.base
  else if ← Reading.accept "constraint" then
    let (source, target) ← readRenaming "constraint name" "new constraint name"
    return renameConstraint source target
  else
    discard (Reading.accept "column")
    let (source, target) ← readRenaming "column name" "new column name"
    return renameColumn source target

/-- Takes a whole operation. -/
def readOutline : Reading Outline := do
  if ← Reading.accept "add" then readAdd
  else if ← Reading.accept "drop" then return .whole (← readDrop)
  else if ← Reading.accept "alter" then return .whole (← readAlter)
  else if ← Reading.accept "rename" then return .whole (← readRename)
  else return .whole (unsupported (Text.trim (← get).text))

/-- Reads one operation on a table. -/
def read (origin : Origin) (table text : String) : Except ParseError Operation := do
  match ← readOutline.ofText origin.file text with
  | .whole operation => return operation
  | .constraint added =>
      return addConstraint ((← TableConstraint.read? origin added).getD (.other added))
  | .column added ifNotExists =>
      return addColumn (← ColumnDefinition.read origin table added) ifNotExists

end Operation

namespace AlterTable

/-- Takes the words of the statement up to its operations: the table, the guard and the clauses. -/
def readHeader : Reading (ObjectName × Bool × List String) := do
  discard (Reading.expectKeyword "alter")
  discard (Reading.expectKeyword "table")
  let ifExists ← Reading.acceptAll ["if", "exists"]
  discard (Reading.accept "only")
  let name := ObjectName.read (← Reading.expectWord "table name")
  match Text.clauses (← get).remainder with
  | [] => Reading.fail .missingOperation
  | clauses => return (name, ifExists, clauses)

/-- Reads an `ALTER TABLE` statement. -/
def read (origin : Origin) (text : String) : Except ParseError AlterTable := do
  let (name, ifExists, clauses) ← readHeader.ofText origin.file text
  match clauses with
  | [clause] => return ⟨name, ifExists, ← Operation.read origin name.base clause⟩
  | _ => return ⟨name, ifExists, .several clauses⟩

end AlterTable

end Schemata
