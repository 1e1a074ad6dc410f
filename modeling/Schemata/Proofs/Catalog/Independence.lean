import Schemata.Proofs.Catalog.Reachable

/-!
# Alterations of different tables

An alteration of a column or an index edits one table and moves foreign keys of the others: a key
follows the columns that it is on and leads to, and goes with them (`Alteration.keyAfter`).  This
file shows that two such alterations of two tables do not see each other, in whichever directions
the tables refer to each other:

* `Alteration.keyAfter_comm`: the two sides of a key move independently, and each of them belongs to
  one table, so a key ends up the same in either order;
* `Alteration.edit_moveKeys`: an edit of a table asks nothing of the foreign keys, so it succeeds or
  fails as before when they have moved, and it makes the same table with its keys moved;
* `alterTable_comm`: on every catalog that can be reached, each alteration answers the same before
  and after the other, and both orders leave the same catalog.

Alterations of foreign keys are left out (`Alteration.sparesKeys`): a new key asks for the column
that it leads to, which an alteration of the other table may just have dropped or renamed, so that
the order of the two decides.
-/

namespace Schemata

/-! ## Keys that move -/

namespace Alteration

variable {alteration other : Alteration} {schema name otherSchema otherName : String}

/-- The alteration changes a column or an index and names no foreign key. -/
def sparesKeys : Alteration → Bool
  | addForeignKey _ | dropForeignKey _ | renameForeignKey _ _ => false
  | _ => true

/-- Where a column is found after the alteration, when it belongs to the altered table or not. -/
def shift (alteration : Alteration) (belongs : Bool) (column : String) : Option String :=
  if belongs then alteration.columnAfter column else some column

@[simp] theorem shift_false (alteration : Alteration) :
    alteration.shift false = some := rfl

@[simp] theorem shift_true (alteration : Alteration) :
    alteration.shift true = alteration.columnAfter := rfl

/-- A foreign key of the table `owner` after the alteration of the table `schema.name`.  It goes
with the column that it is on and with the column that it leads to. -/
def keyAfter (alteration : Alteration) (schema name : String) (owner : String × String)
    (key : ForeignKey) : Option ForeignKey :=
  (alteration.shift (owner == (schema, name)) key.column).bind fun column =>
    (alteration.shift (key.pointsAt owner.1 schema name) key.referencedColumn).map fun referenced =>
      { key with column := column, referencedColumn := referenced }

/-- A column belongs to one of two tables at most, so their alterations move it independently. -/
theorem shift_comm {belongs belongsOther : Bool} (hone : (belongs && belongsOther) = false)
    (column : String) :
    (alteration.shift belongs column).bind (other.shift belongsOther) =
      (other.shift belongsOther column).bind (alteration.shift belongs) := by
  cases belongs with
  | false => simp
  | true =>
      obtain rfl : belongsOther = false := by simpa using hone
      simp

/-- A key after two alterations has each of its columns moved by both. -/
theorem keyAfter_bind_keyAfter (owner : String × String) (key : ForeignKey) :
    (alteration.keyAfter schema name owner key).bind (other.keyAfter otherSchema otherName owner) =
      ((alteration.shift (owner == (schema, name)) key.column).bind
        (other.shift (owner == (otherSchema, otherName)))).bind fun column =>
          ((alteration.shift (key.pointsAt owner.1 schema name) key.referencedColumn).bind
            (other.shift (key.pointsAt owner.1 otherSchema otherName))).map fun referenced =>
              { key with column := column, referencedColumn := referenced } := by
  simp only [keyAfter]
  cases alteration.shift (owner == (schema, name)) key.column with
  | none => rfl
  | some column =>
      cases alteration.shift (key.pointsAt owner.1 schema name) key.referencedColumn with
      | none => simp
      | some referenced => rfl

/-- Two alterations of different tables move a key in either order to the same place. -/
theorem keyAfter_comm (hdistinct : (schema, name) ≠ (otherSchema, otherName))
    (owner : String × String) (key : ForeignKey) :
    (alteration.keyAfter schema name owner key).bind (other.keyAfter otherSchema otherName owner) =
      (other.keyAfter otherSchema otherName owner key).bind
        (alteration.keyAfter schema name owner) := by
  have howner : (owner == (schema, name) && owner == (otherSchema, otherName)) = false := by
    rw [Bool.and_eq_false_iff, beq_eq_false_iff_ne, beq_eq_false_iff_ne, ← not_and_or]
    exact fun hboth => hdistinct (hboth.1.symm.trans hboth.2)
  have htarget : (key.pointsAt owner.1 schema name &&
      key.pointsAt owner.1 otherSchema otherName) = false := by
    rw [← Bool.not_eq_true, Bool.and_eq_true, ForeignKey.pointsAt_iff, ForeignKey.pointsAt_iff]
    rintro ⟨⟨rfl, rfl⟩, hschema, hname⟩
    exact hdistinct (Prod.ext hschema hname)
  rw [keyAfter_bind_keyAfter, keyAfter_bind_keyAfter, shift_comm howner, shift_comm htarget]

end Alteration

/-- The table with its foreign keys where they are after the alteration of `schema.name`. -/
def Table.moveKeys (schema name : String) (alteration : Alteration) (table : Table) : Table :=
  { table with
    foreignKeys := table.foreignKeys.filterMap
      (alteration.keyAfter schema name (table.schema, table.name)) }

section Moving

variable {table edited : Table} {alteration other : Alteration}
  {schema name otherSchema otherName : String}

theorem Table.moveKeys_comm (hdistinct : (schema, name) ≠ (otherSchema, otherName))
    (table : Table) :
    (table.moveKeys schema name alteration).moveKeys otherSchema otherName other =
      (table.moveKeys otherSchema otherName other).moveKeys schema name alteration := by
  simp only [Table.moveKeys, List.filterMap_filterMap, Alteration.keyAfter_comm hdistinct]

/-- In a table that is not the altered one, a key that leads to the altered table follows the column
that it leads to, and every other key stays. -/
theorem Alteration.keyAfter_of_ne (alteration : Alteration) {owner : String × String}
    (hother : owner ≠ (schema, name)) (key : ForeignKey) :
    alteration.keyAfter schema name owner key =
      (alteration.shift (key.pointsAt owner.1 schema name) key.referencedColumn).map
        fun referenced => { key with referencedColumn := referenced } := by
  simp [keyAfter, beq_eq_false_iff_ne.mpr hother]

/-- The other tables follow an alteration by moving their keys. -/
theorem Alteration.followIn_eq_moveKeys (hother : (table.schema, table.name) ≠ (schema, name)) :
    followIn schema name table alteration = table.moveKeys schema name alteration := by
  unfold Table.moveKeys
  rw [funext (keyAfter_of_ne alteration hother)]
  cases alteration with
  | dropColumn dropped =>
      rw [followIn, Table.dropReferences, ← List.filterMap_eq_filter]
      congr 2
      funext key
      cases hpoints : key.pointsAt table.schema schema name with
      | false => simp [hpoints]
      | true =>
          by_cases hcolumn : key.referencedColumn = dropped <;>
            simp [columnAfter, hpoints, hcolumn]
  | renameColumn source target =>
      rw [followIn, if_neg (by simpa using hother), Table.retargetColumn, ← List.filterMap_eq_map]
      congr 2
      funext key
      cases hpoints : key.pointsAt table.schema schema name with
      | false => simp [hpoints]
      | true =>
          by_cases hcolumn : key.referencedColumn = source <;> simp [columnAfter, hpoints, hcolumn]
  | _ => simp [followIn, shift, columnAfter]

/-- In the altered table, a key follows the column that it is on, and the column that it leads to if
that is one of the table. -/
theorem Alteration.keyAfter_self (owner : String × String) (key : ForeignKey) :
    alteration.keyAfter owner.1 owner.2 owner key =
      (alteration.columnAfter key.column).bind fun column =>
        (alteration.shift (key.pointsAt owner.1 owner.1 owner.2) key.referencedColumn).map
          fun referenced => { key with column := column, referencedColumn := referenced } := by
  simp [keyAfter]

/-- A table without a column has lost the keys that do not survive the drop. -/
theorem Table.withoutColumn_withKeys (table : Table) (keys : List ForeignKey) (dropped : String) :
    { table with foreignKeys := keys }.withoutColumn dropped = { table.withoutColumn dropped with
      foreignKeys := keys.filterMap ((Alteration.dropColumn dropped).keyAfter table.schema
        table.name (table.schema, table.name)) } := by
  simp only [withoutColumn, dropReferences, ← List.filterMap_eq_filter, List.filterMap_filterMap]
  congr 2
  funext key
  rw [Alteration.keyAfter_self (table.schema, table.name)]
  by_cases hcolumn : key.column = dropped
  · simp [Alteration.columnAfter, hcolumn]
  · cases hpoints : key.pointsAt table.schema table.schema table.name with
    | false => simp [Alteration.columnAfter, hcolumn, hpoints]
    | true =>
        by_cases hreferenced : key.referencedColumn = dropped <;>
          simp [Alteration.columnAfter, hcolumn, hpoints, hreferenced]

/-- A table with a column renamed has moved its keys along. -/
theorem Table.withColumnRenamed_withKeys (table : Table) (keys : List ForeignKey)
    (source target : String) :
    { table with foreignKeys := keys }.withColumnRenamed source target =
      { table.withColumnRenamed source target with
        foreignKeys := keys.filterMap ((Alteration.renameColumn source target).keyAfter
          table.schema table.name (table.schema, table.name)) } := by
  have hkey (key : ForeignKey) :
      some (renameColumnInKey { table with foreignKeys := keys } source target key) =
        (Alteration.renameColumn source target).keyAfter table.schema table.name
          (table.schema, table.name) key := by
    rw [renameColumnInKey_eq, Alteration.keyAfter_self (table.schema, table.name)]
    cases hpoints : key.pointsAt table.schema table.schema table.name with
    | false => by_cases hcolumn : key.column = source <;> simp [Alteration.columnAfter, hcolumn]
    | true =>
        by_cases hcolumn : key.column = source <;>
          by_cases hreferenced : key.referencedColumn = source <;>
          simp [Alteration.columnAfter, hcolumn, hreferenced]
  rw [← funext hkey]
  simp only [withColumnRenamed, ← List.filterMap_eq_map]
  rfl

/-- A key stays where it is when all columns do. -/
theorem Alteration.keyAfter_eq_some (hstays : alteration.columnAfter = some)
    (owner : String × String) : alteration.keyAfter schema name owner = some := by
  have hshift (belongs : Bool) : alteration.shift belongs = some := by
    cases belongs with
    | false => rfl
    | true => exact hstays
  funext key
  simp [keyAfter, hshift]

theorem Alteration.columnAfter_renameColumn_self (kept : String) :
    (renameColumn kept kept).columnAfter = some := by
  funext column
  by_cases hcolumn : column = kept <;> simp [columnAfter, hcolumn]

/-- An edit of a column or an index asks nothing of the foreign keys of the table, and moves
them. -/
theorem Alteration.edit_withKeys (hspares : alteration.sparesKeys = true) (table : Table)
    (keys : List ForeignKey) :
    alteration.edit { table with foreignKeys := keys } =
      (alteration.edit table).map fun edited => { edited with
        foreignKeys := keys.filterMap
          (alteration.keyAfter table.schema table.name (table.schema, table.name)) } := by
  have hasColumn_withKeys : Table.hasColumn { table with foreignKeys := keys } = table.hasColumn :=
    rfl
  -- every guard of an edit is a question about columns or indexes, and each case answers it first
  cases alteration with
  | addColumn column =>
      rw [keyAfter_eq_some rfl, List.filterMap_some]
      cases hcolumn : table.hasColumn column.name <;>
        simp [edit, Table.addColumn, hasColumn_withKeys, hcolumn]
  | dropColumn dropped =>
      have column?_withKeys : Table.column? { table with foreignKeys := keys } = table.column? :=
        rfl
      cases hfound : table.column? dropped <;>
        simp [edit, Table.dropColumn, Table.column, column?_withKeys, hfound,
          Table.withoutColumn_withKeys]
  | modifyColumn column =>
      rw [keyAfter_eq_some rfl, List.filterMap_some]
      cases hcolumn : table.hasColumn column.name <;>
        simp [edit, Table.modifyColumn, hasColumn_withKeys, hcolumn]
  | renameColumn source target =>
      simp only [edit, Table.renameColumn, hasColumn_withKeys]
      cases hsource : table.hasColumn source with
      | false => simp
      | true =>
          -- the old name changes nothing, so that the keys must not move either
          by_cases hsame : source = target
          · subst hsame
            simp [keyAfter_eq_some (columnAfter_renameColumn_self source)]
          · cases htarget : table.hasColumn target <;>
              simp [hsame, Table.withColumnRenamed_withKeys]
  | addIndex index =>
      rw [keyAfter_eq_some rfl, List.filterMap_some]
      have hasIndex_withKeys : Table.hasIndex { table with foreignKeys := keys } = table.hasIndex :=
        rfl
      cases hfound : table.hasIndex index.name <;>
        simp [edit, Table.addIndex, hasIndex_withKeys, hfound]
  | dropIndex dropped =>
      rw [keyAfter_eq_some rfl, List.filterMap_some]
      have index?_withKeys : Table.index? { table with foreignKeys := keys } = table.index? := rfl
      cases hfound : table.index? dropped <;>
        simp [edit, Table.dropIndex, index?_withKeys, hfound]
  | _ => simp [sparesKeys] at hspares

/-- The keys of a table after an edit of a column or an index of it. -/
theorem Alteration.foreignKeys_of_edit (hspares : alteration.sparesKeys = true)
    (hedit : alteration.edit table = .ok edited) :
    edited.foreignKeys = table.foreignKeys.filterMap
      (alteration.keyAfter table.schema table.name (table.schema, table.name)) := by
  have hsame : alteration.edit table = (alteration.edit table).map _ :=
    edit_withKeys hspares table table.foreignKeys
  rw [hedit, except_map_ok, Except.ok.injEq] at hsame
  exact congrArg Table.foreignKeys hsame

/-- An edit of a column or an index commutes with moving the keys of the table for an alteration of
another table. -/
theorem Alteration.edit_moveKeys (hspares : alteration.sparesKeys = true)
    (hdistinct : (table.schema, table.name) ≠ (otherSchema, otherName)) :
    alteration.edit (table.moveKeys otherSchema otherName other) =
      (alteration.edit table).map (Table.moveKeys otherSchema otherName other) := by
  rw [Table.moveKeys, edit_withKeys hspares]
  cases hedit : alteration.edit table with
  | error error => rfl
  | ok edited =>
      have hedited := Table.edit_eq_ok_iff.mp hedit
      simp only [except_map_ok, Table.moveKeys, foreignKeys_of_edit hspares hedit,
        hedited.schema_eq, hedited.name_eq, List.filterMap_filterMap, keyAfter_comm hdistinct]

end Moving

/-! ## Two alterations of a catalog -/

namespace Catalog

variable {catalog : Catalog} {schema name otherSchema otherName : String}
  {table edited : Table} {alteration other : Alteration}

/-- An alteration of a column or an index changes the catalog when the edit of the table is not
refused. -/
theorem alterTable_eq_of_sparesKeys (hspares : alteration.sparesKeys = true)
    (htable : catalog.table? schema name = some table) :
    catalog.alterTable schema name alteration =
      (alteration.edit table).map fun edited =>
        (catalog.putTable schema edited).mapTables
          (Alteration.followIn schema name · alteration) := by
  rw [alterTable_eq htable]
  cases alteration with
  | addForeignKey key => simp [Alteration.sparesKeys] at hspares
  | _ => rfl

theorem afterCall_alterTable (hspares : alteration.sparesKeys = true)
    (htable : catalog.table? schema name = some table)
    (hedit : alteration.edit table = .ok edited) :
    catalog.afterCall (.alterTable schema name alteration) =
      (catalog.putTable schema edited).mapTables
        (Alteration.followIn schema name · alteration) := by
  rw [afterCall, alterTable_eq_of_sparesKeys hspares htable, hedit, except_map_ok, settle]

/-- A refused alteration leaves the catalog as it is. -/
theorem afterCall_alterTable_of_error {error : CatalogError}
    (hspares : alteration.sparesKeys = true) (htable : catalog.table? schema name = some table)
    (hedit : alteration.edit table = .error error) :
    catalog.afterCall (.alterTable schema name alteration) = catalog := by
  rw [afterCall, alterTable_eq_of_sparesKeys hspares htable, hedit, except_map_error, settle]

/-- The catalog after an alteration of a column or an index: the table is the edited one, and the
keys of all others have moved. -/
theorem table?_afterCall_alterTable (hfiled : catalog.TablesFiled)
    (hspares : alteration.sparesKeys = true) (htable : catalog.table? schema name = some table)
    (hedit : alteration.edit table = .ok edited) (query queryName : String) :
    (catalog.afterCall (.alterTable schema name alteration)).table? query queryName =
      if query = schema ∧ queryName = name then some edited
      else (catalog.table? query queryName).map (Table.moveKeys schema name alteration) := by
  rw [afterCall_alterTable hspares htable hedit,
    table?_after_alter hfiled htable (Table.edit_eq_ok_iff.mp hedit)]
  split
  · rfl
  · rename_i hother
    cases hfound : catalog.table? query queryName with
    | none => rfl
    | some found =>
        obtain ⟨rfl, rfl⟩ := hfiled hfound
        rw [Option.map_some, Option.map_some,
          Alteration.followIn_eq_moveKeys (by simpa using hother)]

/-- An alteration leaves the schemas and their enum types as they are, and the default schema. -/
theorem outline?_afterCall_alterTable (catalog : Catalog) (schema name : String)
    (alteration : Alteration) :
    (catalog.afterCall (.alterTable schema name alteration)).defaultSchema =
        catalog.defaultSchema ∧
      ∀ query, (catalog.afterCall (.alterTable schema name alteration)).outline? query =
        catalog.outline? query := by
  rw [afterCall]
  cases halter : catalog.alterTable schema name alteration with
  | error error => exact ⟨rfl, fun _ => rfl⟩
  | ok result =>
      obtain ⟨table, htable⟩ := exists_table?_of_alterTableBatch halter
      rw [alterTable_eq htable, except_map_eq_ok] at halter
      obtain ⟨altered, -, rfl⟩ := halter
      simp [settle]

theorem TablesFiled.afterCall_alterTable (hfiled : catalog.TablesFiled)
    (hspares : alteration.sparesKeys = true) (htable : catalog.table? schema name = some table)
    (hedit : alteration.edit table = .ok edited) :
    (catalog.afterCall (.alterTable schema name alteration)).TablesFiled := by
  rw [Catalog.afterCall_alterTable hspares htable hedit]
  exact (tablesFiled_putTable_edited hfiled htable (Table.edit_eq_ok_iff.mp hedit)).followIn
    schema name alteration

/-- What a call that alters a table answers. -/
def alterTableAnswer (catalog : Catalog) (schema name : String) (alteration : Alteration) :
    Except CatalogError Unit :=
  (catalog.alterTable schema name alteration).map fun _ => ()

/-- The answer is the one that the edit of the table gives. -/
theorem alterTableAnswer_eq (hspares : alteration.sparesKeys = true)
    (htable : catalog.table? schema name = some table) :
    catalog.alterTableAnswer schema name alteration = (alteration.edit table).map fun _ => () := by
  rw [alterTableAnswer, alterTable_eq_of_sparesKeys hspares htable]
  cases alteration.edit table <;> rfl

section Pair

variable {second : Table}

/-- A table that an alteration of another one leaves is the table with its keys moved. -/
theorem table?_afterCall_alterTable_other (hfiled : catalog.TablesFiled)
    (hdistinct : (schema, name) ≠ (otherSchema, otherName)) (hother : other.sparesKeys = true)
    (htable : catalog.table? schema name = some table)
    (hsecond : catalog.table? otherSchema otherName = some second)
    (hedit : other.edit second = .ok edited) :
    (catalog.afterCall (.alterTable otherSchema otherName other)).table? schema name =
      some (table.moveKeys otherSchema otherName other) := by
  rw [table?_afterCall_alterTable hfiled hother hsecond hedit, if_neg (by simpa using hdistinct),
    htable, Option.map_some]

/-- An edit of a filed table whose keys have moved for an alteration of another table. -/
theorem TablesFiled.edit_moveKeys (hfiled : catalog.TablesFiled)
    (hdistinct : (schema, name) ≠ (otherSchema, otherName))
    (hspares : alteration.sparesKeys = true) (htable : catalog.table? schema name = some table)
    (other : Alteration) :
    alteration.edit (table.moveKeys otherSchema otherName other) =
      (alteration.edit table).map (Table.moveKeys otherSchema otherName other) := by
  obtain ⟨rfl, rfl⟩ := hfiled htable
  exact Alteration.edit_moveKeys hspares hdistinct

/-- An alteration answers the same after an alteration of another table. -/
theorem alterTableAnswer_afterCall (hfiled : catalog.TablesFiled)
    (hdistinct : (schema, name) ≠ (otherSchema, otherName))
    (hspares : alteration.sparesKeys = true) (hother : other.sparesKeys = true)
    (htable : catalog.table? schema name = some table)
    (hsecond : catalog.table? otherSchema otherName = some second) :
    (catalog.afterCall (.alterTable otherSchema otherName other)).alterTableAnswer schema name
      alteration = catalog.alterTableAnswer schema name alteration := by
  cases hedit : other.edit second with
  | error error => rw [afterCall_alterTable_of_error hother hsecond hedit]
  | ok edited =>
      have hmoved := table?_afterCall_alterTable_other hfiled hdistinct hother htable hsecond hedit
      rw [alterTableAnswer_eq hspares hmoved, alterTableAnswer_eq hspares htable,
        hfiled.edit_moveKeys hdistinct hspares htable other]
      cases alteration.edit table <;> rfl

/-- An alteration that is refused is also refused after an alteration of another table. -/
theorem afterCall_alterTable_of_refused {error : CatalogError} (hfiled : catalog.TablesFiled)
    (hdistinct : (schema, name) ≠ (otherSchema, otherName))
    (hspares : alteration.sparesKeys = true) (hother : other.sparesKeys = true)
    (htable : catalog.table? schema name = some table)
    (hsecond : catalog.table? otherSchema otherName = some second)
    (hrefused : alteration.edit table = .error error) :
    (catalog.afterCall (.alterTable otherSchema otherName other)).afterCall
        (.alterTable schema name alteration) =
      catalog.afterCall (.alterTable otherSchema otherName other) := by
  cases hedit : other.edit second with
  | error otherError =>
      rw [afterCall_alterTable_of_error hother hsecond hedit,
        afterCall_alterTable_of_error hspares htable hrefused]
  | ok edited =>
      have hmoved := hfiled.edit_moveKeys hdistinct hspares htable other
      rw [hrefused, except_map_error] at hmoved
      exact afterCall_alterTable_of_error hspares
        (table?_afterCall_alterTable_other hfiled hdistinct hother htable hsecond hedit) hmoved

/-- What has the name of one of two different tables does not have that of the other. -/
theorem not_and_of_ne (hdistinct : (schema, name) ≠ (otherSchema, otherName))
    {query queryName : String} (hown : query = schema ∧ queryName = name) :
    ¬ (query = otherSchema ∧ queryName = otherName) := by
  rintro ⟨rfl, rfl⟩
  exact hdistinct (Prod.ext hown.1.symm hown.2.symm)

/-- The catalog after two alterations that both succeed: each of the two tables is edited once and
has moved its keys once, and the keys of all others have moved twice. -/
theorem table?_afterCall_afterCall (hfiled : catalog.TablesFiled)
    (hdistinct : (schema, name) ≠ (otherSchema, otherName))
    (hspares : alteration.sparesKeys = true) (hother : other.sparesKeys = true)
    (htable : catalog.table? schema name = some table)
    (hsecond : catalog.table? otherSchema otherName = some second)
    (hedit : alteration.edit table = .ok edited) {editedSecond : Table}
    (heditSecond : other.edit second = .ok editedSecond) (query queryName : String) :
    ((catalog.afterCall (.alterTable schema name alteration)).afterCall
        (.alterTable otherSchema otherName other)).table? query queryName =
      if query = schema ∧ queryName = name then
        some (edited.moveKeys otherSchema otherName other)
      else if query = otherSchema ∧ queryName = otherName then
        some (editedSecond.moveKeys schema name alteration)
      else ((catalog.table? query queryName).map (Table.moveKeys schema name alteration)).map
        (Table.moveKeys otherSchema otherName other) := by
  -- the second edit finds its table with moved keys, which it does not ask about
  have hmoved := table?_afterCall_alterTable_other hfiled hdistinct.symm hspares hsecond htable
    hedit
  have heditMoved := hfiled.edit_moveKeys hdistinct.symm hother hsecond alteration
  rw [heditSecond, except_map_ok] at heditMoved
  rw [table?_afterCall_alterTable (hfiled.afterCall_alterTable hspares htable hedit) hother hmoved
      heditMoved, table?_afterCall_alterTable hfiled hspares htable hedit]
  by_cases hown : query = schema ∧ queryName = name
  · rw [if_pos hown, if_pos hown, if_neg (not_and_of_ne hdistinct hown), Option.map_some]
  · rw [if_neg hown, if_neg hown]

/-- Alterations of columns and indexes of two tables leave the same catalog in either order. -/
theorem afterCall_alterTable_comm (hfiled : catalog.TablesFiled)
    (hdistinct : (schema, name) ≠ (otherSchema, otherName))
    (hspares : alteration.sparesKeys = true) (hother : other.sparesKeys = true)
    (htable : catalog.table? schema name = some table)
    (hsecond : catalog.table? otherSchema otherName = some second) :
    (catalog.afterCall (.alterTable schema name alteration)).afterCall
        (.alterTable otherSchema otherName other) =
      (catalog.afterCall (.alterTable otherSchema otherName other)).afterCall
        (.alterTable schema name alteration) := by
  -- what is refused first is refused second, and then only the other alteration counts
  cases hedit : alteration.edit table with
  | error error =>
      rw [afterCall_alterTable_of_error hspares htable hedit,
        afterCall_alterTable_of_refused hfiled hdistinct hspares hother htable hsecond hedit]
  | ok edited =>
      cases heditSecond : other.edit second with
      | error error =>
          rw [afterCall_alterTable_of_error hother hsecond heditSecond,
            afterCall_alterTable_of_refused hfiled hdistinct.symm hother hspares hsecond htable
              heditSecond]
      | ok editedSecond =>
          -- both succeed: the two tables are edited once in either order, and in all others the
          -- keys have moved twice
          refine ext_table? (by simp only [outline?_afterCall_alterTable])
            (fun query => by simp only [outline?_afterCall_alterTable]) fun query queryName => ?_
          rw [table?_afterCall_afterCall hfiled hdistinct hspares hother htable hsecond hedit
              heditSecond,
            table?_afterCall_afterCall hfiled hdistinct.symm hother hspares hsecond htable
              heditSecond hedit]
          by_cases hown : query = schema ∧ queryName = name
          · rw [if_pos hown, if_neg (not_and_of_ne hdistinct hown), if_pos hown]
          · rw [if_neg hown, if_neg hown, Option.map_map, Option.map_map]
            congr 2
            exact funext (Table.moveKeys_comm hdistinct)

end Pair

/-- On every catalog that can be reached, alterations of columns and indexes of two tables do not
see each other, even when the tables refer to each other: each answers the same whether the other
was made before or not, and both orders leave the same catalog. -/
theorem alterTable_comm (defaultSchema : String) (calls : List Call)
    {schema name otherSchema otherName : String} {alteration other : Alteration}
    (htable : (afterCalls defaultSchema calls).hasTable schema name = true)
    (hsecond : (afterCalls defaultSchema calls).hasTable otherSchema otherName = true)
    (hdistinct : (schema, name) ≠ (otherSchema, otherName))
    (hspares : alteration.sparesKeys = true) (hother : other.sparesKeys = true) :
    ((afterCalls defaultSchema calls).afterCall
        (.alterTable otherSchema otherName other)).alterTableAnswer schema name alteration =
      (afterCalls defaultSchema calls).alterTableAnswer schema name alteration ∧
    ((afterCalls defaultSchema calls).afterCall
        (.alterTable schema name alteration)).alterTableAnswer otherSchema otherName other =
      (afterCalls defaultSchema calls).alterTableAnswer otherSchema otherName other ∧
    ((afterCalls defaultSchema calls).afterCall (.alterTable schema name alteration)).afterCall
        (.alterTable otherSchema otherName other) =
      ((afterCalls defaultSchema calls).afterCall
        (.alterTable otherSchema otherName other)).afterCall
          (.alterTable schema name alteration) := by
  have hfiled := (sound_of_calls defaultSchema calls).filed
  obtain ⟨table, htable⟩ := Option.isSome_iff_exists.mp htable
  obtain ⟨second, hsecond⟩ := Option.isSome_iff_exists.mp hsecond
  refine ⟨?_, ?_, ?_⟩
  · exact alterTableAnswer_afterCall hfiled hdistinct hspares hother htable hsecond
  · exact alterTableAnswer_afterCall hfiled hdistinct.symm hother hspares hsecond htable
  · exact afterCall_alterTable_comm hfiled hdistinct hspares hother htable hsecond

/-- Calls that make two tables in different schemas, each of which refers to the other. -/
def mutualCalls : List Call :=
  [.createSchema "audit",
    .addTable "public" "account" "" [.addColumn (textColumn "id"), .addColumn (textColumn "entry")],
    .addTable "audit" "entry" ""
      [.addColumn (textColumn "id"), .addColumn (textColumn "account"),
        .addForeignKey ⟨"entry_account_fkey", "account", some "public", "account", "id",
          .noAction, .noAction, ""⟩],
    .alterTable "public" "account" (.addForeignKey ⟨"account_entry_fkey", "entry", some "audit",
      "entry", "id", .noAction, .noAction, ""⟩)]

/-- A column that one table refers to is renamed, and a column that the other table refers to is
dropped. -/
theorem alterTable_comm_mutual :
    (afterCalls "public" mutualCalls).hasTable "public" "account" = true ∧
      (afterCalls "public" mutualCalls).hasTable "audit" "entry" = true ∧
      ((afterCalls "public" mutualCalls).afterCall
          (.alterTable "public" "account" (.renameColumn "id" "key"))).afterCall
          (.alterTable "audit" "entry" (.dropColumn "id")) =
        ((afterCalls "public" mutualCalls).afterCall
          (.alterTable "audit" "entry" (.dropColumn "id"))).afterCall
          (.alterTable "public" "account" (.renameColumn "id" "key")) := by
  have hfirst : (afterCalls "public" mutualCalls).hasTable "public" "account" = true := by
    decide +kernel
  have hsecond : (afterCalls "public" mutualCalls).hasTable "audit" "entry" = true := by
    decide +kernel
  exact ⟨hfirst, hsecond,
    (alterTable_comm "public" mutualCalls hfirst hsecond (by decide) rfl rfl).2.2⟩

end Catalog

end Schemata
