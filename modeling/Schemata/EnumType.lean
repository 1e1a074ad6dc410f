/-!
# Enum types

An enum type is a list of texts under a name.  The list is kept as written, in its order and with
texts that are repeated.
-/

namespace Schemata

/-- A type that lists its values. -/
structure EnumType where
  /-- The name. -/
  name : String
  /-- The values, in the order written. -/
  values : List String
  /-- The migration file that created the type. -/
  createdIn : String
  deriving DecidableEq, Repr, Inhabited

end Schemata
