import Schemata.ParseError

/-!
# Errors of the catalog

A `CatalogError` says which object an operation missed or found in its way.  Tables and enum types
are named by schema and name; `CatalogError.message` words the error.

A replay puts the failing statement around the error (`CatalogError.failedStatement`).  What went
wrong is behind it (`CatalogError.root`), and the kind of an error is that of what went wrong
(`CatalogError.kind_root`).
-/

namespace Schemata

/-- The part of a reference that does not exist. -/
inductive MissingTarget where
  | schema (schema : String)
  | table (schema table : String)
  | column (schema table column : String)
  deriving DecidableEq, Repr, Inhabited

/-- The wording of a missing target. -/
def MissingTarget.text : MissingTarget → String
  | schema name => s!"schema '{name}'"
  | table holder name => s!"table '{holder}.{name}'"
  | column holder owner name => s!"column '{holder}.{owner}.{name}'"

/-- Why the catalog refused an operation, or a replay stopped. -/
inductive CatalogError where
  /-- The text of a statement was refused. -/
  | unreadable (error : ParseError)
  | schemaNotFound (schema : String)
  | schemaExists (schema : String)
  | tableNotFound (schema table : String)
  | tableExists (schema table : String)
  | columnNotFound (schema table column : String)
  | columnExists (schema table column : String)
  | indexNotFound (schema table index : String)
  | indexExists (schema table index : String)
  | foreignKeyNotFound (schema table key : String)
  | foreignKeyExists (schema table key : String)
  | enumNotFound (schema name : String)
  | enumExists (schema name : String)
  /-- A foreign key refers to something that does not exist. -/
  | unresolvedReference (schema table key : String) (target : MissingTarget)
  /-- A primary-key column would allow empty values. -/
  | nullablePrimaryKey (schema table column : String)
  /-- The operation is understood but has no meaning for the catalog. -/
  | unsupported (file operation : String)
  /-- A statement of a migration failed. -/
  | failedStatement (file statement : String) (cause : CatalogError)
  /-- The settings name no default schema. -/
  | emptyDefaultSchema
  /-- The text of the settings was refused. -/
  | malformedSettings
  deriving DecidableEq, Repr, Inhabited

/-- The broad kinds of error. -/
inductive ErrorKind where
  /-- The text of a statement breaks the grammar. -/
  | malformedText
  /-- A statement does not fit the catalog. -/
  | schemaViolation
  /-- A primary key has a type that the family does not allow. -/
  | primaryKeyType
  /-- An operation has no meaning for the catalog. -/
  | unsupported
  /-- The settings cannot drive a replay. -/
  | configuration
  /-- The settings cannot be read. -/
  | serialization
  deriving DecidableEq, Repr, Inhabited

namespace CatalogError

/-- The wording of an error. -/
def message : CatalogError → String
  | unreadable error => error.message
  | schemaNotFound schema => s!"Schema '{schema}' does not exist"
  | schemaExists schema => s!"Schema '{schema}' already exists"
  | tableNotFound schema table => s!"Table '{schema}.{table}' does not exist"
  | tableExists schema table => s!"Table '{schema}.{table}' already exists"
  | columnNotFound schema table column =>
      s!"Column '{column}' does not exist in table '{schema}.{table}'"
  | columnExists schema table column =>
      s!"Column '{column}' already exists in table '{schema}.{table}'"
  | indexNotFound schema table index =>
      s!"Index '{index}' does not exist on table '{schema}.{table}'"
  | indexExists schema table index =>
      s!"Index '{index}' already exists on table '{schema}.{table}'"
  | foreignKeyNotFound schema table key =>
      s!"Foreign key '{key}' does not exist on table '{schema}.{table}'"
  | foreignKeyExists schema table key =>
      s!"Foreign key '{key}' already exists on table '{schema}.{table}'"
  | enumNotFound schema name => s!"Enum type '{schema}.{name}' does not exist"
  | enumExists schema name => s!"Enum type '{schema}.{name}' already exists"
  | unresolvedReference schema table key target =>
      s!"Foreign key '{key}' on table '{schema}.{table}' references missing {target.text}"
  | nullablePrimaryKey schema table column =>
      s!"Invalid alteration of table '{schema}.{table}': " ++
        s!"primary key column '{column}' cannot be nullable"
  | unsupported file operation => s!"Unsupported operation in migration '{file}': {operation}"
  | failedStatement file statement cause =>
      s!"Migration '{file}' failed at `{statement}`: {cause.message}"
  | emptyDefaultSchema => "Invalid configuration: default schema name must not be empty"
  | malformedSettings => "Serialization error: malformed settings"

/-- The cause of an error behind the statements that failed of it. -/
def root : CatalogError → CatalogError
  | failedStatement _ _ cause => cause.root
  | error => error

/-- The kind of an error; a failed statement has the kind of its cause. -/
def kind : CatalogError → ErrorKind
  | unreadable (.malformed ..) => .malformedText
  | unreadable (.primaryKeyType ..) => .primaryKeyType
  | unreadable (.unknownFamily _) => .configuration
  | emptyDefaultSchema => .configuration
  | malformedSettings => .serialization
  | unsupported .. => .unsupported
  | failedStatement _ _ cause => cause.kind
  | _ => .schemaViolation

/-- An error has the kind of its root. -/
theorem kind_root (error : CatalogError) : error.root.kind = error.kind := by
  induction error with
  | failedStatement file statement cause ih => simpa only [root, kind] using ih
  | _ => rfl

end CatalogError

end Schemata
