import Schemata.Effect
import Schemata.Settings

/-!
# Migrations

A migration is a file with statements.  Migrations are carried out in order, statement by statement,
and stop at the first statement that fails; its error says which one it was.

What a failed statement has written stays written (`Change`), but a replay as a whole gives either
the catalog behind the last statement or the error, and no catalog besides.
-/

namespace Schemata

/-- A migration file and its statements. -/
structure Migration where
  file : String
  /-- The statements in order, without comments. -/
  statements : List String
  deriving DecidableEq, Repr, Inhabited

namespace Migration

/-- Carries out one statement of a file.  A failure names the file and the statement. -/
def applyStatement (family : Family) (file text : String) : Change Unit :=
  fun catalog =>
    match (Statement.applyText ⟨file, family⟩ text).run catalog with
    | .ok _ catalog => .ok () catalog
    | .error cause catalog => .error (.failedStatement file (Text.trim text) cause) catalog

/-- Carries out the statements of a migration. -/
def apply (family : Family) (migration : Migration) : Change Unit :=
  migration.statements.forM (applyStatement family migration.file)

/-- Carries out several migrations. -/
def applyAll (family : Family) (migrations : List Migration) : Change Unit :=
  migrations.forM (apply family)

end Migration

/-- The catalog before the first migration. -/
def Settings.catalog (settings : Settings) : Except CatalogError Catalog := do
  settings.validate
  return Catalog.new settings.defaultSchema

/-- The catalog that migrations build from nothing. -/
def replay (settings : Settings) (migrations : List Migration) : Except CatalogError Catalog := do
  let start ← settings.catalog
  match (Migration.applyAll settings.family migrations).run start with
  | .ok _ catalog => .ok catalog
  | .error error _ => .error error

end Schemata
