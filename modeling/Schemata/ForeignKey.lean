import Schemata.Text.Case

/-!
# Foreign keys

A foreign key of the catalog links one column to one column.  A constraint as written may list
several columns on each side; `ForeignKeyConstraint.expand` makes one key of each pair.

A key names its target by a table and perhaps a schema.  Without one it is the schema of the table
that has the key (`ForeignKey.targetSchema`), which is not part of the key, so whether a key leads
to a given table is a question about the key and its owner's schema (`ForeignKey.pointsAt`).
-/

namespace Schemata

/-- What happens to a referencing row when the row it refers to is deleted or changed. -/
inductive ReferentialAction where
  | noAction
  | restrict
  | cascade
  | setNull
  | setDefault
  deriving DecidableEq, Repr, Inhabited

namespace ReferentialAction

/-- The words of an action. -/
def text : ReferentialAction → String
  | noAction => "NO ACTION"
  | restrict => "RESTRICT"
  | cascade => "CASCADE"
  | setNull => "SET NULL"
  | setDefault => "SET DEFAULT"

/-- Reads the action that the words start with and says how many words it takes. -/
def ofWords? (words : List String) : Option (ReferentialAction × Nat) :=
  match words.map Text.lower with
  | "cascade" :: _ => some (cascade, 1)
  | "restrict" :: _ => some (restrict, 1)
  | "no" :: "action" :: _ => some (noAction, 2)
  | "set" :: "null" :: _ => some (setNull, 2)
  | "set" :: "default" :: _ => some (setDefault, 2)
  | _ => none

end ReferentialAction

/-- A link from a column of the table that owns the key to a column of another table. -/
structure ForeignKey where
  /-- The name of the constraint. -/
  name : String
  /-- The referencing column. -/
  column : String
  /-- The schema of the referenced table, when written. -/
  referencedSchema : Option String
  /-- The referenced table. -/
  referencedTable : String
  /-- The referenced column. -/
  referencedColumn : String
  /-- What an update of the referenced row does. -/
  onUpdate : ReferentialAction
  /-- What a deletion of the referenced row does. -/
  onDelete : ReferentialAction
  /-- The migration file that created the key. -/
  createdIn : String
  deriving DecidableEq, Repr, Inhabited

namespace ForeignKey

/-- The name of a key that was given none. -/
def defaultName (table column : String) : String :=
  table ++ "_" ++ column ++ "_fkey"

/-- The schema of the referenced table, for a key of a table in `ownerSchema`. -/
def targetSchema (key : ForeignKey) (ownerSchema : String) : String :=
  key.referencedSchema.getD ownerSchema

/-- The key of a table in `ownerSchema` refers to the given table. -/
def pointsAt (key : ForeignKey) (ownerSchema schema table : String) : Bool :=
  key.referencedTable == table && key.targetSchema ownerSchema == schema

end ForeignKey

/-- A foreign-key constraint as written. -/
structure ForeignKeyConstraint where
  /-- The name, when written. -/
  name : Option String
  /-- The referencing columns. -/
  columns : List String
  /-- The schema of the referenced table, when written. -/
  referencedSchema : Option String
  /-- The referenced table. -/
  referencedTable : String
  /-- The referenced columns, in the order of the referencing ones. -/
  referencedColumns : List String
  /-- What a deletion of the referenced row does. -/
  onDelete : ReferentialAction
  /-- What an update of the referenced row does. -/
  onUpdate : ReferentialAction
  deriving DecidableEq, Repr, Inhabited

namespace ForeignKeyConstraint

/-- The name of the key on one column: the given name, with the column added when there are several
columns, or the default name. -/
def keyName (constraint : ForeignKeyConstraint) (table column : String) : String :=
  match constraint.name with
  | some name => if constraint.columns.length > 1 then name ++ "_" ++ column else name
  | none => ForeignKey.defaultName table column

/-- One key for each pair of a referencing and a referenced column. -/
def expand (constraint : ForeignKeyConstraint) (table file : String) : List ForeignKey :=
  (constraint.columns.zip constraint.referencedColumns).map fun (column, referenced) =>
    { name := constraint.keyName table column
      column := column
      referencedSchema := constraint.referencedSchema
      referencedTable := constraint.referencedTable
      referencedColumn := referenced
      onUpdate := constraint.onUpdate
      onDelete := constraint.onDelete
      createdIn := file }

end ForeignKeyConstraint

end Schemata
