import Schemata.Reader
import Schemata.Statement

/-!
# `REFERENCES` clauses

The part of a foreign key behind the word `REFERENCES`: the referenced table, its columns, and
options.  Of the options only the referential actions are kept; the last one for an event counts.

The same reader serves a column and a table.  It leaves the list of referenced columns empty where
none is written; that `id` is meant is for its callers to say (`Reference.orId`), since a key of
several columns has no such default.
-/

namespace Schemata

/-- What a foreign key refers to and what its actions are. -/
structure Reference where
  /-- The referenced table. -/
  target : ObjectName
  /-- The referenced columns; none when not written. -/
  columns : List String
  /-- What a deletion of the referenced row does. -/
  onDelete : ReferentialAction
  /-- What an update of the referenced row does. -/
  onUpdate : ReferentialAction
  deriving DecidableEq, Repr, Inhabited

/-- An option behind the referenced table. -/
inductive ReferenceOption where
  | onDelete (action : ReferentialAction)
  | onUpdate (action : ReferentialAction)
  /-- A matching or deferral rule, which is not kept. -/
  | untracked
  deriving DecidableEq, Repr, Inhabited

namespace ReferenceOption

/-- Takes `event action` behind `ON`. -/
def readAction : Reading ReferenceOption := do
  let event ← Reading.expectWord "DELETE or UPDATE"
  match ReferentialAction.ofWords? (← get).remaining with
  | none => Reading.fail (.invalidAction event)
  | some (action, length) =>
      Reading.skip length
      if Text.isKeyword event "delete" then return onDelete action
      else if Text.isKeyword event "update" then return onUpdate action
      else Reading.fail (.unknownEvent event)

/-- Takes one option, or declines and takes nothing. -/
def read? : Reading (Option ReferenceOption) := do
  if ← Reading.accept "on" then
    return some (← readAction)
  else if ← Reading.accept "match" then
    discard (Reading.expectWord "match type")
    return some untracked
  else if ← Reading.accept "initially" then
    discard (Reading.expectWord "DEFERRED or IMMEDIATE")
    return some untracked
  else if ← Reading.accept "deferrable" then
    return some untracked
  else if ← Reading.acceptAll ["not", "deferrable"] then
    return some untracked
  else return none

end ReferenceOption

namespace Reference

/-- The reference with one more option. -/
def withOption (reference : Reference) : ReferenceOption → Reference
  | .onDelete action => { reference with onDelete := action }
  | .onUpdate action => { reference with onUpdate := action }
  | .untracked => reference

/-- Takes what follows the word `REFERENCES`. -/
def read : Reading Reference := do
  let word ← Reading.expectWord "referenced table"
  let target := ObjectName.read (Text.head word)
  if target.base.isEmpty then Reading.fail (.expected "referenced table")
  else
    let columns := ((← Reading.group? word).map Text.identifiers).getD []
    let options ← Reading.many ReferenceOption.read?
    return options.foldl withOption ⟨target, columns, .noAction, .noAction⟩

/-- The reference with the column `id` in place of an empty list of columns. -/
def orId (reference : Reference) : Reference :=
  if reference.columns.isEmpty then { reference with columns := ["id"] } else reference

/-- The foreign-key constraint of the given columns. -/
def constraint (reference : Reference) (name : Option String) (columns : List String) :
    ForeignKeyConstraint :=
  { name, columns
    referencedSchema := reference.target.schema
    referencedTable := reference.target.base
    referencedColumns := reference.columns
    onDelete := reference.onDelete
    onUpdate := reference.onUpdate }

end Reference

end Schemata
