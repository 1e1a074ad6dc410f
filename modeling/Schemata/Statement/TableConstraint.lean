import Schemata.Statement.Reference

/-!
# Table constraints

A clause of a table body is a constraint when it starts with the keywords of one, or with
`CONSTRAINT` and a name; otherwise it declares a column and `TableConstraint.read?` answers `none`.

Only the first words decide.  Once they are those of a constraint, a fault in what follows is a
fault of the statement, and the clause is not tried as a column.  A constraint with a name and an
unknown first word is kept as written, and so is `EXCLUDE`.
-/

namespace Schemata

namespace TableConstraint

/-- Takes `PRIMARY KEY (columns)`. -/
def readPrimaryKey (name : Option String) : Reading TableConstraint := do
  Reading.skip 1
  let key ← Reading.expectKeyword "key"
  match Text.identifiers (← Reading.expectGroup key "columns") with
  | [] => Reading.fail (.emptyKey "PRIMARY")
  | columns => return primaryKey name columns

/-- Takes `FOREIGN KEY (columns) REFERENCES …`.  A reference without columns means `id` for a key of
one column. -/
def readForeignKey (name : Option String) : Reading TableConstraint := do
  Reading.skip 1
  let key ← Reading.expectKeyword "key"
  match Text.identifiers (← Reading.expectGroup key "columns") with
  | [] => Reading.fail (.emptyKey "FOREIGN")
  | columns =>
      discard (Reading.expectKeyword "references")
      let written ← Reference.read
      let reference := if columns.length == 1 then written.orId else written
      if reference.columns.length == columns.length then
        return foreignKey (reference.constraint name columns)
      else Reading.fail (.unevenForeignKey columns.length reference.columns.length)

/-- Takes `UNIQUE (columns)`. -/
def readUnique (name : Option String) : Reading TableConstraint := do
  let word ← Reading.expectKeyword "unique"
  return unique name (Text.identifiers (← Reading.expectGroup word "columns"))

/-- Takes `CHECK (expression)`. -/
def readCheck (name : Option String) : Reading TableConstraint := do
  let word ← Reading.expectKeyword "check"
  return check name (← Reading.expectGroup word "expression")

/-- Takes `CONSTRAINT name`, if it comes next. -/
def readName? : Reading (Option String) := do
  if ← Reading.accept "constraint" then
    return some (← Reading.expectIdentifier "constraint name")
  else return none

/-- Takes a whole constraint; `none` when the clause is none. -/
def readWords? : Reading (Option TableConstraint) := do
  let name ← readName?
  let reader ← get
  if reader.nextIs "primary" && reader.nextIsAt 1 "key" then return some (← readPrimaryKey name)
  else if reader.nextIs "foreign" && reader.nextIsAt 1 "key" then
    return some (← readForeignKey name)
  else if reader.nextIs "unique" then return some (← readUnique name)
  else if reader.nextIs "check" then return some (← readCheck name)
  else if reader.nextIs "exclude" || name.isSome then
    return some (other (Text.trim reader.text))
  else return none

/-- Reads a clause as a constraint; `none` when it is none. -/
def read? (origin : Origin) (text : String) : Except ParseError (Option TableConstraint) :=
  readWords?.ofText origin.file text

end TableConstraint

end Schemata
