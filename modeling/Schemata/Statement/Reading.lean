import Schemata.Statement.Definition
import Schemata.Statement.Operation
import Schemata.Statement.Removal
import Schemata.Statement.TableDefinition

/-!
# Reading statements

`Statement.read` reads one statement of any kind.  The leading keywords decide which reader gets the
text; a text that none of them starts is kept as it is.

Deciding and reading are separate.  `Statement.Kind.ofWords?` looks at the words and cannot fail,
and the reader of a kind takes the same words again from the first one on and may refuse them.  What
can make the kind of a statement depend on a word further behind is `AS ENUM`, which tells the only
type definition that is tracked from all others.
-/

namespace Schemata

namespace Statement

/-- The text without blanks and semicolons at its end and blanks at its start. -/
def body (text : String) : String :=
  let trimmed := (Chars.trim text.toList).reverse.dropWhile (· == ';')
  String.ofList (Chars.trimEnd trimmed.reverse)

/-- The kinds of statement that have a reader. -/
inductive Kind where
  | createTable
  | createIndex
  | createSchema
  | createEnum
  | alterTable
  | dropTables
  | dropIndexes
  | dropSchemas
  | dropTypes
  deriving DecidableEq, Repr, Inhabited

/-- The words without the first, if it is one of the keywords. -/
def dropOptional (keywords words : List String) : List String :=
  match words with
  | word :: rest => if Text.isAnyKeyword word keywords then rest else word :: rest
  | [] => []

/-- Somewhere among the words `AS` is followed by `ENUM`. -/
def definesEnum : List String → Bool
  | first :: second :: rest =>
      (Text.isKeyword first "as" && Text.isKeyword second "enum") || definesEnum (second :: rest)
  | _ => false

/-- The kind of a `CREATE` statement, by the words behind `CREATE`. -/
def Kind.ofCreated? (words : List String) : Option Kind :=
  let unscoped := dropOptional ["global", "local"] words
  let unqualified := dropOptional ["temp", "temporary", "unlogged"] unscoped
  if Text.startWithKeywords unqualified ["table"] then some createTable
  else if Text.startWithKeywords words ["index"] || Text.startWithKeywords words ["unique", "index"]
  then some createIndex
  else if Text.startWithKeywords words ["schema"] then some createSchema
  else if Text.startWithKeywords words ["type"] && definesEnum words then some createEnum
  else none

/-- The kind of a statement, by its words. -/
def Kind.ofWords? (words : List String) : Option Kind :=
  match words with
  | [] => none
  | first :: rest =>
      if Text.isKeyword first "create" then ofCreated? rest
      else if Text.startWithKeywords words ["alter", "table"] then some alterTable
      else if Text.startWithKeywords words ["drop", "table"] then some dropTables
      else if Text.startWithKeywords words ["drop", "index"] then some dropIndexes
      else if Text.startWithKeywords words ["drop", "schema"] then some dropSchemas
      else if Text.startWithKeywords words ["drop", "type"] then some dropTypes
      else none

/-- Reads a statement of a known kind. -/
def readKind (origin : Origin) (text : String) : Kind → Except ParseError Statement
  | .createTable => return createTable (← CreateTable.read origin text)
  | .createIndex => return createIndex (← CreateIndex.read origin text)
  | .createSchema => return createSchema (← CreateSchema.read origin text)
  | .createEnum => return createEnum (← CreateEnum.read origin text)
  | .alterTable => return alterTable (← AlterTable.read origin text)
  | .dropTables => return dropTables (← Removal.readTables origin text)
  | .dropIndexes => return dropIndexes (← Removal.readIndexes origin text)
  | .dropSchemas => return dropSchemas (← Removal.readSchemas origin text)
  | .dropTypes => return dropTypes (← Removal.readTypes origin text)

/-- Reads a statement. -/
def read (origin : Origin) (text : String) : Except ParseError Statement :=
  let text := body text
  if text.isEmpty then .error (.ofFault origin.file text .emptyStatement)
  else
    match Kind.ofWords? (Text.words text) with
    | some kind => readKind origin text kind
    | none => .ok (unknown text)

end Statement

end Schemata
