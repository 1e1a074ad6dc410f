/-!
# Indexes

An index covers columns or expressions of one table and may forbid repeated values.  A column of the
table is told from an expression by its name alone: an index goes with a dropped column, and follows
a renamed one, where the column is listed as it is spelled.
-/

namespace Schemata

/-- An index over columns or expressions of a table. -/
structure Index where
  /-- The name. -/
  name : String
  /-- The indexed columns or expressions, in order. -/
  columns : List String
  /-- No two rows may agree on the indexed columns. -/
  unique : Bool
  /-- The migration file that created the index. -/
  createdIn : String
  deriving DecidableEq, Repr, Inhabited

/-- An index that allows repeated values and has no provenance. -/
def Index.plain (name : String) (columns : List String) : Index :=
  { name, columns, unique := false, createdIn := "" }

end Schemata
