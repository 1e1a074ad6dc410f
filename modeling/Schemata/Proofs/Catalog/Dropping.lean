import Schemata.Proofs.Relation

/-!
# What a drop takes along

A dropped table or column takes with it what cannot be without it: the indexes that list the column,
the foreign keys on the column, and the foreign keys of any table that lead to the table or column.
`Dropped` names what is dropped and says for each sort of thing whether it goes; `Dropped.leftOf` is
what stays of a table, in the old order.

* `Sound.leaves_dropTable`, `Sound.leaves_dropColumn`: in a sound catalog a drop takes these and
  nothing else.
* `drops_leave_afterCalls`: so it is in every catalog that can be reached.

A key says where it leads by the schema of the table that holds it, so tables of one name in two
schemas are told apart; and of the keys on a column of the dropped name only those of the altered
table go.

The operations filter each table for themselves, and the altered table twice, once for the column
and once as one of the tables that follow.  Both filters leave what `Dropped.leftOf` leaves because
a sound catalog has every table under its own name: a table is asked by the names that it carries,
and it is found by the ones that it stands under.
-/

namespace Schemata

/-- What is dropped: a table, or a column of a table. -/
inductive Dropped where
  | table (schema name : String)
  | column (schema name column : String)
  deriving DecidableEq, Repr, Inhabited

namespace Dropped

/-- The table is the dropped one. -/
def TakesTable : Dropped → Table → Prop
  | table schema name, found => found.identity = (schema, name)
  | column _ _ _, _ => False

/-- The column of the table is the dropped one. -/
def TakesColumn : Dropped → Table → Column → Prop
  | table _ _, _, _ => False
  | column schema name dropped, owner, found =>
      owner.identity = (schema, name) ∧ found.name = dropped

/-- The index of the table lists the dropped column. -/
def TakesIndex : Dropped → Table → Index → Prop
  | table _ _, _, _ => False
  | column schema name dropped, owner, index =>
      owner.identity = (schema, name) ∧ dropped ∈ index.columns

/-- The foreign key of the table is on the dropped column, or leads to the dropped table or
column. -/
def TakesKey : Dropped → Table → ForeignKey → Prop
  | table schema name, owner, key => owner.targetOf key = (schema, name)
  | column schema name dropped, owner, key =>
      owner.identity = (schema, name) ∧ key.column = dropped ∨
        owner.targetOf key = (schema, name) ∧ key.referencedColumn = dropped

instance (dropped : Dropped) (found : Table) : Decidable (dropped.TakesTable found) :=
  match dropped with
  | table _ _ => inferInstanceAs (Decidable (_ = _))
  | column _ _ _ => inferInstanceAs (Decidable False)

instance (dropped : Dropped) (owner : Table) (found : Column) :
    Decidable (dropped.TakesColumn owner found) :=
  match dropped with
  | table _ _ => inferInstanceAs (Decidable False)
  | column _ _ _ => inferInstanceAs (Decidable (_ ∧ _))

instance (dropped : Dropped) (owner : Table) (index : Index) :
    Decidable (dropped.TakesIndex owner index) :=
  match dropped with
  | table _ _ => inferInstanceAs (Decidable False)
  | column _ _ _ => inferInstanceAs (Decidable (_ ∧ _))

instance (dropped : Dropped) (owner : Table) (key : ForeignKey) :
    Decidable (dropped.TakesKey owner key) :=
  match dropped with
  | table _ _ => inferInstanceAs (Decidable (_ = _))
  | column _ _ _ => inferInstanceAs (Decidable (_ ∨ _))

/-- What the drop leaves of a table that stays. -/
def leftOf (dropped : Dropped) (table : Table) : Table :=
  { table with
    columns := table.columns.filter fun column => ¬dropped.TakesColumn table column
    indexes := table.indexes.filter fun index => ¬dropped.TakesIndex table index
    foreignKeys := table.foreignKeys.filter fun key => ¬dropped.TakesKey table key }

/-- The drop takes the things that are bound to go from one catalog and leaves the other. -/
structure Leaves (dropped : Dropped) (before after : Catalog) : Prop where
  defaultSchema_eq : after.defaultSchema = before.defaultSchema
  /-- All schemas stay, with all their enum types. -/
  outline?_eq : ∀ schema, after.outline? schema = before.outline? schema
  /-- All other tables stay, in the old order, less what goes of each. -/
  tables_eq : after.tables =
    (before.tables.filter fun table => ¬dropped.TakesTable table).map dropped.leftOf

end Dropped

/-! ## Single tables -/

/-- The first item of a name is the only one, if names are apart. -/
theorem eraseP_eq_filter {α : Type} {label : α → String} {items : List α}
    (hnodup : (items.map label).Nodup) (name : String) :
    items.eraseP (label · == name) = items.filter fun item => ¬label item = name := by
  induction items with
  | nil => rfl
  | cons item rest ih =>
      obtain ⟨hitem, hrest⟩ := List.nodup_cons.mp hnodup
      by_cases hname : label item = name
      · have hothers : rest.filter (fun other => ¬label other = name) = rest := by
          refine List.filter_eq_self.mpr fun other hother => decide_eq_true ?_
          rintro rfl
          exact hitem (hname ▸ List.mem_map_of_mem hother)
        rw [List.eraseP_cons_of_pos (by simpa using hname), List.filter_cons_of_neg (by simpa),
          hothers]
      · rw [List.eraseP_cons_of_neg (by simpa using hname), List.filter_cons_of_pos (by simpa),
          ih hrest]

namespace Table

variable {table : Table} {schema name column : String}

/-- A table without its references to a dropped table is what the drop leaves of it. -/
theorem dropReferences_eq_leftOf (table : Table) (schema name : String) :
    table.dropReferences schema name none = (Dropped.table schema name).leftOf table := by
  have hkeys : table.foreignKeys.filter
        (fun key => !(key.pointsAt table.schema schema name && true)) =
      table.foreignKeys.filter fun key => ¬(Dropped.table schema name).TakesKey table key := by
    refine List.filter_congr fun key _ => ?_
    simp [Dropped.TakesKey, targetOf_eq_iff]
  simp only [dropReferences, Dropped.leftOf, Option.all_none, hkeys, Dropped.TakesColumn,
    Dropped.TakesIndex, not_false_eq_true, decide_true, List.filter_true]

/-- Another table without its references to a dropped column is what the drop leaves of it. -/
theorem dropReferences_column_eq_leftOf (hother : table.identity ≠ (schema, name))
    (column : String) : table.dropReferences schema name (some column) =
      (Dropped.column schema name column).leftOf table := by
  have hkeys : table.foreignKeys.filter (fun key =>
        !(key.pointsAt table.schema schema name && key.referencedColumn == column)) =
      table.foreignKeys.filter
        fun key => ¬(Dropped.column schema name column).TakesKey table key := by
    refine List.filter_congr fun key _ => Bool.eq_iff_iff.mpr ?_
    simp [Dropped.TakesKey, hother, targetOf_eq_iff]
  simp only [dropReferences, Dropped.leftOf, Option.all_some, hkeys, Dropped.TakesColumn,
    Dropped.TakesIndex, hother, false_and, not_false_eq_true, decide_true, List.filter_true]

/-- The table of a dropped column without it is what the drop leaves of the table. -/
theorem withoutColumn_eq_leftOf (hnodup : (table.columns.map Column.name).Nodup)
    (column : String) : table.withoutColumn column =
      (Dropped.column table.schema table.name column).leftOf table := by
  have hcolumns : table.columns.eraseP (·.name == column) = table.columns.filter fun found =>
      ¬(Dropped.column table.schema table.name column).TakesColumn table found := by
    rw [eraseP_eq_filter hnodup]
    simp only [Dropped.TakesColumn, identity, true_and]
  have hindexes : table.indexes.filter (! ·.columns.contains column) =
      table.indexes.filter fun index =>
        ¬(Dropped.column table.schema table.name column).TakesIndex table index := by
    refine List.filter_congr fun index _ => ?_
    simp [Dropped.TakesIndex, identity]
  -- a key of the table goes for its own column, or for the one that it leads to in the table itself
  have hkeys : (table.foreignKeys.filter (·.column != column)).filter (fun key =>
        !(key.pointsAt table.schema table.schema table.name && key.referencedColumn == column)) =
      table.foreignKeys.filter fun key =>
        ¬(Dropped.column table.schema table.name column).TakesKey table key := by
    rw [List.filter_filter]
    refine List.filter_congr fun key _ => Bool.eq_iff_iff.mpr ?_
    simp [Dropped.TakesKey, identity, targetOf_eq_iff]
    tauto
  simp only [withoutColumn, dropReferences, Option.all_some, hcolumns, hindexes, hkeys,
    Dropped.leftOf]

end Table

/-! ## Sound catalogs -/

namespace Catalog

variable {catalog after : Catalog} {schema name column : String} {table : Table}

/-- A dropped table goes with the keys that lead to it, and nothing else goes. -/
theorem Sound.leaves_dropTable (hsound : catalog.Sound)
    (hdrop : catalog.dropTable schema name = .ok (table, after)) :
    (Dropped.table schema name).Leaves catalog after := by
  obtain ⟨-, rfl⟩ := dropTable_eq_ok_iff.mp hdrop
  refine ⟨rfl, fun query => by simp, ?_⟩
  rw [tables_mapTables, hsound.filed.tables_eraseTable]
  have hstays : catalog.tables.filter (fun table =>
        !(table.schema == schema && table.name == name)) =
      catalog.tables.filter fun table => ¬(Dropped.table schema name).TakesTable table := by
    refine List.filter_congr fun table _ => Bool.eq_iff_iff.mpr ?_
    simp [Dropped.TakesTable, Table.identity_eq_iff]
  rw [hstays]
  exact List.map_congr_left fun table _ => table.dropReferences_eq_leftOf schema name

/-- A dropped column goes with the indexes over it and the keys on it and to it, and nothing else
goes. -/
theorem Sound.leaves_dropColumn (hsound : catalog.Sound)
    (hdrop : catalog.alterTable schema name (.dropColumn column) = .ok after) :
    (Dropped.column schema name column).Leaves catalog after := by
  obtain ⟨table, htable⟩ := exists_table?_of_alterTableBatch hdrop
  obtain ⟨rfl, rfl⟩ := hsound.filed htable
  rw [alterTable_eq htable, except_map_eq_ok] at hdrop
  obtain ⟨altered, halter, rfl⟩ := hdrop
  obtain ⟨hedited, -⟩ := Alteration.alter_eq_ok_iff.mp halter
  have hfollowed := Alteration.followIn_of_edited hedited
  cases hedited with
  | dropColumn hcolumn =>
      refine ⟨rfl, fun query => by simp, ?_⟩
      have hhas : catalog.hasTable table.schema (table.withoutColumn column).name = true :=
        (congrArg Option.isSome htable).trans rfl
      have hall : catalog.tables.filter (fun found =>
          ¬(Dropped.column table.schema table.name column).TakesTable found) = catalog.tables :=
        List.filter_eq_self.mpr fun _ _ => rfl
      rw [tables_mapTables, hsound.filed.tables_putTable hhas, List.map_map, hall]
      refine List.map_congr_left fun old hold => ?_
      rw [Function.comp_apply]
      -- The altered table lost its own part already; the others follow.
      split
      · rename_i hown
        have hsame : old = table := by
          have hfound := hsound.filed.mem_tables_iff.mp hold
          rw [hown.1, show old.name = table.name from hown.2, htable] at hfound
          exact (Option.some.inj hfound).symm
        rw [hfollowed, hsame]
        exact Table.withoutColumn_eq_leftOf (hsound.wellFormed htable).columns_nodup column
      · rename_i hother
        exact Table.dropReferences_column_eq_leftOf (mt Table.identity_eq_iff.mp hother) column

/-- In every catalog that can be reached, a dropped table takes along the keys that lead to it, a
dropped column the indexes over it and the keys on it and to it, and everything else stays as it was
and in its order. -/
theorem drops_leave_afterCalls (defaultSchema : String) (calls : List Call)
    (schema name : String) :
    (∀ table after, (afterCalls defaultSchema calls).dropTable schema name = .ok (table, after) →
      (Dropped.table schema name).Leaves (afterCalls defaultSchema calls) after) ∧
    ∀ column after,
      (afterCalls defaultSchema calls).alterTable schema name (.dropColumn column) = .ok after →
        (Dropped.column schema name column).Leaves (afterCalls defaultSchema calls) after := by
  have hsound := sound_of_calls defaultSchema calls
  exact ⟨fun _ _ hdrop => hsound.leaves_dropTable hdrop,
    fun _ _ hdrop => hsound.leaves_dropColumn hdrop⟩

/-- Nodes with a parent and two indexes, nodes of the same form in another schema, and leaves there
that refer to the first nodes. -/
def forestCalls : List Call :=
  [.addTable "public" "node" "" [.addColumn (textColumn "id"), .addColumn (textColumn "parent"),
      .addIndex (.plain "by_id" ["parent", "id"]), .addIndex (.plain "by_parent" ["parent"]),
      .addForeignKey parentKey],
    .createSchema "wood",
    .addTable "wood" "node" "" [.addColumn (textColumn "id"), .addColumn (textColumn "parent"),
      .addForeignKey parentKey],
    .addTable "wood" "leaf" "" [.addColumn (textColumn "id"),
      .addForeignKey ⟨"leaf_node_fkey", "id", some "public", "node", "id", .noAction, .noAction,
        ""⟩]]

/-- The names of a table, its columns, indexes and keys. -/
def namesOf (table : Table) : String × List String × List String × List String :=
  (table.qualifiedName, table.columns.map Column.name, table.indexes.map Index.name,
    table.foreignKeys.map ForeignKey.name)

theorem drops_leave_afterCalls_forest :
    (∃ table after,
      (afterCalls "public" forestCalls).dropTable "public" "node" = .ok (table, after) ∧
      (Dropped.table "public" "node").Leaves (afterCalls "public" forestCalls) after ∧
      after.tables.map namesOf =
        [("wood.leaf", ["id"], [], []),
          ("wood.node", ["id", "parent"], [], ["node_parent_fkey"])]) ∧
    ∃ after, (afterCalls "public" forestCalls).alterTable "public" "node" (.dropColumn "id") =
        .ok after ∧
      (Dropped.column "public" "node" "id").Leaves (afterCalls "public" forestCalls) after ∧
      after.tables.map namesOf =
        [("public.node", ["parent"], ["by_parent"], []), ("wood.leaf", ["id"], [], []),
          ("wood.node", ["id", "parent"], [], ["node_parent_fkey"])] := by
  obtain ⟨htables, hcolumns⟩ := drops_leave_afterCalls "public" forestCalls "public" "node"
  have hdrop : ((afterCalls "public" forestCalls).dropTable "public" "node").map
      (·.2.tables.map namesOf) = .ok [("wood.leaf", ["id"], [], []),
        ("wood.node", ["id", "parent"], [], ["node_parent_fkey"])] := by
    decide +kernel
  have halter : ((afterCalls "public" forestCalls).alterTable "public" "node"
      (.dropColumn "id")).map (·.tables.map namesOf) =
      .ok [("public.node", ["parent"], ["by_parent"], []), ("wood.leaf", ["id"], [], []),
        ("wood.node", ["id", "parent"], [], ["node_parent_fkey"])] := by
    decide +kernel
  obtain ⟨⟨table, left⟩, hleft, hnames⟩ := except_map_eq_ok.mp hdrop
  obtain ⟨altered, haltered, hothers⟩ := except_map_eq_ok.mp halter
  exact ⟨⟨table, left, hleft, htables table left hleft, hnames⟩,
    altered, haltered, hcolumns "id" altered haltered, hothers⟩

end Catalog

end Schemata
