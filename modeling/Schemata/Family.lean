import Schemata.Column
import Schemata.Text.Blank

/-!
# Database families

A migration run targets one family of databases.  The family decides which type primary-key columns
have (`Family.accepts`), and nothing else: migrations that can be replayed for both families build
the same catalog (`Schemata.Proofs.Families`).
-/

namespace Schemata

/-- The database engines that migrations can target. -/
inductive Family where
  | postgres
  | sqlite
  deriving DecidableEq, Repr, Inhabited

namespace Family

/-- The canonical name. -/
def name : Family → String
  | postgres => "postgres"
  | sqlite => "sqlite"

/-- The type family that primary-key columns must have. -/
def primaryKeyType : Family → String
  | postgres => "uuid"
  | sqlite => "text"

/-- The family of a canonical or alternative name in lower case. -/
def ofName? : String → Option Family
  | "postgres" => some postgres
  | "postgresql" => some postgres
  | "pg" => some postgres
  | "sqlite" => some sqlite
  | "sqlite3" => some sqlite
  | "libsql" => some sqlite
  | _ => none

/-- The family that a user's text names, in any case and with blanks around it. -/
def read? (text : String) : Option Family :=
  ofName? (Text.lower (Text.trim text))

/-- The column is not a primary key or has the type that the family demands. -/
def accepts (family : Family) (column : Column) : Bool :=
  !column.primaryKey || (column.dataType.name == family.primaryKeyType && !column.array)

end Family

end Schemata
