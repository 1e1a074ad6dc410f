import Schemata.Text.Quoted

/-!
# Object names

Tables, types and indexes are named by one identifier or by a schema and an identifier joined with
a dot.  `ObjectName.read` reads the written form and `ObjectName.text` writes it.

A dot inside quotes separates nothing.  A part without quotes is taken as it is spelled, in its own
letter case, and a part is written with quotes unless it consists of ASCII letters, digits and
underscores and starts with no digit.
-/

namespace Schemata

/-- A name that may say which schema it belongs to. -/
structure ObjectName where
  /-- The schema, when written. -/
  schema : Option String
  /-- The name within the schema. -/
  base : String
  deriving DecidableEq, Repr, Inhabited

namespace ObjectName

/-- Reads a written name.  Of more than two parts the last two count. -/
def read (text : String) : ObjectName :=
  match (Text.split '.' text).reverse with
  | [] => ⟨none, ""⟩
  | [base] => ⟨none, Text.unquoteIdentifier base⟩
  | base :: schema :: _ => ⟨some (Text.unquoteIdentifier schema), Text.unquoteIdentifier base⟩

/-- The written form of a name, each part quoted when it has to be. -/
def text (name : ObjectName) : String :=
  match name.schema with
  | some schema => Text.quoteIdentifier schema ++ "." ++ Text.quoteIdentifier name.base
  | none => Text.quoteIdentifier name.base

/-- The schema of the name, or the given one when none is written. -/
def schemaOr (name : ObjectName) (fallback : String) : String :=
  name.schema.getD fallback

end ObjectName

end Schemata
