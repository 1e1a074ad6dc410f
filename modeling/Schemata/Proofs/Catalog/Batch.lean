import Schemata.Proofs.Catalog.Lookup
import Schemata.Proofs.Table.Edit

/-!
# Batches and single alterations

A batch makes all its alterations to a copy of the table and lets the foreign keys of the catalog
follow at the end; made one by one, each alteration is followed at once.  Both make the same copy,
since what the alterations ask of other tables (`Table.face`) is not touched by following:

* `alterTableEach_eq`: one by one, the copy takes the place of the table, and every other table has
  followed all alterations;
* `alterTableBatch_eq_putTable`: in a batch, the copy itself has followed them too.

For the copy, following matters in one case.  A key from the table to itself may aim at a column
that was added, or renamed, after a column of the same name was dropped; the batch then drops the
key with the references to the old column (`followAll_own_eq_self_iff`).
-/

namespace Schemata

/-! ## Following as a change of every table -/

/-- The table after its foreign keys have followed an alteration of the table `schema.name`. -/
def Alteration.followIn (schema name : String) (table : Table) : Alteration → Table
  | renameColumn source target =>
      if table.schema == schema && table.name == name then table
      else table.retargetColumn schema name source target
  | dropColumn column => table.dropReferences schema name (some column)
  | _ => table

/-- The table after its foreign keys have followed several alterations. -/
def Alteration.followAll (schema name : String) (alterations : List Alteration)
    (table : Table) : Table :=
  alterations.foldl (followIn schema name) table

namespace Alteration

variable {catalog : Catalog} {schema name : String} {table altered : Table}
  {alteration : Alteration} {alterations : List Alteration}

theorem follow_eq_mapTables (schema name : String) (catalog : Catalog) (alteration : Alteration) :
    follow schema name catalog alteration =
      catalog.mapTables (followIn schema name · alteration) := by
  cases alteration with
  | renameColumn source target => rfl
  | dropColumn column => rfl
  | _ => exact (Catalog.mapTables_eq_self fun _ _ _ _ => rfl).symm

theorem foldl_follow_eq_mapTables (schema name : String) (catalog : Catalog)
    (alterations : List Alteration) :
    alterations.foldl (follow schema name) catalog =
      catalog.mapTables (followAll schema name alterations) := by
  induction alterations generalizing catalog with
  | nil => exact (Catalog.mapTables_eq_self fun _ _ _ _ => rfl).symm
  | cons alteration rest ih =>
      rw [List.foldl_cons, ih, follow_eq_mapTables, Catalog.mapTables_mapTables]
      rfl

/-- Following changes nothing but foreign keys. -/
theorem exists_followIn_eq (schema name : String) (table : Table) (alteration : Alteration) :
    ∃ keys, followIn schema name table alteration = { table with foreignKeys := keys } := by
  cases alteration with
  | renameColumn source target =>
      rw [followIn]
      split
      · exact ⟨_, rfl⟩
      · exact ⟨_, rfl⟩
  | _ => exact ⟨_, rfl⟩

theorem exists_followAll_eq (schema name : String) (alterations : List Alteration)
    (table : Table) :
    ∃ keys, followAll schema name alterations table = { table with foreignKeys := keys } := by
  induction alterations generalizing table with
  | nil => exact ⟨_, rfl⟩
  | cons alteration rest ih =>
      obtain ⟨first, hfirst⟩ := exists_followIn_eq schema name table alteration
      obtain ⟨keys, hkeys⟩ := ih (followIn schema name table alteration)
      exact ⟨keys, by rw [followAll, List.foldl_cons, ← followAll, hkeys, hfirst]⟩

@[simp] theorem schema_followAll :
    (followAll schema name alterations table).schema = table.schema := by
  obtain ⟨keys, hkeys⟩ := exists_followAll_eq schema name alterations table
  rw [hkeys]

@[simp] theorem name_followAll :
    (followAll schema name alterations table).name = table.name := by
  obtain ⟨keys, hkeys⟩ := exists_followAll_eq schema name alterations table
  rw [hkeys]

@[simp] theorem columns_followAll :
    (followAll schema name alterations table).columns = table.columns := by
  obtain ⟨keys, hkeys⟩ := exists_followAll_eq schema name alterations table
  rw [hkeys]

/-- Right after an edit the edited table has nothing to follow. -/
theorem followIn_of_edited (hedited : table.Edited alteration altered) :
    followIn table.schema table.name altered alteration = altered := by
  cases hedited with
  | @dropColumn column hcolumn =>
      exact Table.dropReferences_eq_self fun key hkey =>
        (Table.mem_foreignKeys_withoutColumn.mp hkey).2.2
  | renameColumn hcolumn hne hfresh =>
      rw [followIn, if_pos (by simp [Table.withColumnRenamed])]
  | keepColumn hcolumn => rw [followIn, if_pos (by simp)]
  | _ => rfl

/-- A table that follows its own alterations loses its keys to columns of itself with the name of a
dropped one. -/
theorem mem_foreignKeys_followAll_own {key : ForeignKey} :
    key ∈ (followAll table.schema table.name alterations table).foreignKeys ↔
      key ∈ table.foreignKeys ∧
        ¬ (key.pointsAt table.schema table.schema table.name = true ∧
          dropColumn key.referencedColumn ∈ alterations) := by
  induction alterations generalizing table with
  | nil => simp [followAll]
  | cons alteration rest ih =>
      -- Following leaves the names of the table, so the rest is about the same table.
      obtain ⟨keys, hkeys⟩ := exists_followIn_eq table.schema table.name table alteration
      have hrest := @ih (followIn table.schema table.name table alteration)
      rw [show (followIn table.schema table.name table alteration).schema = table.schema by
          rw [hkeys],
        show (followIn table.schema table.name table alteration).name = table.name by
          rw [hkeys]] at hrest
      rw [followAll, List.foldl_cons, ← followAll, hrest]
      cases alteration with
      | dropColumn column =>
          rw [followIn, Table.mem_foreignKeys_dropReferences, List.mem_cons, dropColumn.injEq]
          tauto
      | renameColumn source target =>
          rw [followIn, if_pos (by simp), List.mem_cons]
          simp
      | _ => simp [followIn]

/-- A table follows its own alterations without a change when none of its keys aims at a column of
the table with the name of a dropped one. -/
theorem followAll_own_eq_self_iff :
    followAll table.schema table.name alterations table = table ↔
      ∀ key ∈ table.foreignKeys, key.pointsAt table.schema table.schema table.name = true →
        dropColumn key.referencedColumn ∉ alterations := by
  constructor
  · intro hsame key hkey hpoints hdropped
    rw [← hsame] at hkey
    exact (mem_foreignKeys_followAll_own.mp hkey).2 ⟨hpoints, hdropped⟩
  · intro hnone
    -- on the alterations: as long as none drops the column of a key, the next one finds the table
    -- unchanged
    induction alterations with
    | nil => rfl
    | cons alteration rest ih =>
        have hfirst : followIn table.schema table.name table alteration = table := by
          cases alteration with
          | dropColumn column =>
              refine Table.dropReferences_eq_self fun key hkey hboth => ?_
              exact hnone key hkey hboth.1 (hboth.2 ▸ List.mem_cons_self)
          | renameColumn source target => rw [followIn, if_pos (by simp)]
          | _ => rfl
        rw [followAll, List.foldl_cons, hfirst]
        exact ih fun key hkey hpoints hrest =>
          hnone key hkey hpoints (List.mem_cons_of_mem _ hrest)

end Alteration

/-! ## What an alteration asks of other tables -/

/-- What a foreign key sees of the table that it refers to. -/
def Table.face (table : Table) : String × String × List Column :=
  (table.schema, table.name, table.columns)

namespace Catalog

variable {first second : Catalog} {owner : Table}

/-- The answer to a reference, from the questions that a catalog answers. -/
theorem referencedTable_eq (catalog : Catalog) (owner : Table) (key : ForeignKey) :
    catalog.referencedTable owner key =
      if key.targetSchema owner.schema = owner.schema ∧ key.referencedTable = owner.name then
        .ok owner
      else
        match catalog.table? (key.targetSchema owner.schema) key.referencedTable with
        | some table => .ok table
        | none =>
            .error (.unresolvedReference owner.schema owner.name key.name
              (if catalog.hasSchema (key.targetSchema owner.schema) then
                .table (key.targetSchema owner.schema) key.referencedTable
              else .schema (key.targetSchema owner.schema))) := by
  unfold referencedTable
  -- a table refers to itself before it is in the catalog, so it is asked first
  by_cases hself : key.targetSchema owner.schema = owner.schema ∧ key.referencedTable = owner.name
  · simp [hself]
  · rw [if_neg hself, if_neg (by simpa using hself)]
    simp only [table?, hasSchema, NameMap.contains]
    obtain hnone | ⟨holder, hholder⟩ :=
      Option.eq_none_or_eq_some (catalog.schemas.find? (key.targetSchema owner.schema))
    · simp [hnone]
    · cases hfound : holder.tables.find? key.referencedTable <;> simp [hholder, hfound]

/-- Two catalogs agree on what a table may refer to, the table itself left out. -/
structure AgreeBeside (owner : Table) (first second : Catalog) : Prop where
  hasSchema : ∀ schema, first.hasSchema schema = second.hasSchema schema
  face : ∀ schema name, ¬ (schema = owner.schema ∧ name = owner.name) →
    (first.table? schema name).map Table.face = (second.table? schema name).map Table.face

/-- Catalogs that agree beside the owner of a key let the same keys through. -/
theorem AgreeBeside.checkReference_eq (hagree : AgreeBeside owner first second)
    (key : ForeignKey) : first.checkReference owner key = second.checkReference owner key := by
  unfold checkReference
  rw [referencedTable_eq, referencedTable_eq, hagree.hasSchema]
  split
  · rfl
  split
  · rfl
  · rename_i hother
    -- The check asks the other table for its names and columns and for nothing else.
    have hface := hagree.face _ _ hother
    cases hfirst : first.table? (key.targetSchema owner.schema) key.referencedTable with
    | none =>
        rw [hfirst, Option.map_none, eq_comm, Option.map_eq_none_iff] at hface
        rw [hface]
    | some table =>
        rw [hfirst, Option.map_some, eq_comm, Option.map_eq_some_iff] at hface
        obtain ⟨other, hsecond, hsame⟩ := hface
        simp only [Table.face, Prod.mk.injEq] at hsame
        obtain ⟨hschema, hname, hcolumns⟩ := hsame
        have hcolumn : other.hasColumn key.referencedColumn =
            table.hasColumn key.referencedColumn := by
          rw [Table.hasColumn, Table.hasColumn, hcolumns]
        simp only [hsecond, bind, Except.bind]
        rw [hcolumn, hschema, hname]

/-- Catalogs that agree beside a table alter it alike. -/
theorem AgreeBeside.alter_eq (hagree : AgreeBeside owner first second)
    (alteration : Alteration) : alteration.alter first owner = alteration.alter second owner := by
  cases alteration with
  | addForeignKey key => simp only [Alteration.alter, hagree.checkReference_eq key]
  | _ => rfl

/-- Catalogs that agree beside a table make the same copy of it by several alterations. -/
theorem AgreeBeside.foldlM_alter_eq (hagree : AgreeBeside owner first second)
    (alterations : List Alteration) :
    alterations.foldlM (Alteration.alter first) owner =
      alterations.foldlM (Alteration.alter second) owner := by
  induction alterations generalizing owner with
  | nil => rfl
  | cons alteration rest ih =>
      rw [List.foldlM_cons, List.foldlM_cons, hagree.alter_eq]
      cases halter : alteration.alter second owner with
      | error error => rfl
      | ok altered =>
          obtain ⟨hedited, -⟩ := Alteration.alter_eq_ok_iff.mp halter
          refine ih ⟨hagree.hasSchema, fun schema name hother => hagree.face schema name ?_⟩
          rwa [hedited.schema_eq, hedited.name_eq] at hother

/-! ## One by one and in a batch -/

variable {catalog : Catalog} {schema name : String} {table : Table}

/-- Makes alterations to a table one after the other, each on the catalog that the last one left. -/
def alterTableEach (catalog : Catalog) (schema name : String) (alterations : List Alteration) :
    Except CatalogError Catalog :=
  alterations.foldlM (fun current alteration => current.alterTable schema name alteration) catalog

/-- In a batch, the altered copy takes the place of the table, and then all tables follow. -/
theorem alterTableBatch_eq (htable : catalog.table? schema name = some table)
    (alterations : List Alteration) :
    catalog.alterTableBatch schema name alterations =
      (alterations.foldlM (Alteration.alter catalog) table).map fun altered =>
        (catalog.putTable schema altered).mapTables
          (Alteration.followAll schema name alterations) := by
  unfold alterTableBatch
  rw [table_eq_ok_iff.mpr htable]
  simp only [Alteration.foldl_follow_eq_mapTables, bind, Except.bind]
  cases alterations.foldlM (Alteration.alter catalog) table <;> rfl

theorem alterTable_eq (htable : catalog.table? schema name = some table)
    (alteration : Alteration) :
    catalog.alterTable schema name alteration =
      (alteration.alter catalog table).map fun altered =>
        (catalog.putTable schema altered).mapTables
          (Alteration.followIn schema name · alteration) := by
  rw [alterTable, alterTableBatch_eq htable, List.foldlM_cons]
  cases alteration.alter catalog table <;> rfl

/-- The catalog that one alteration leaves: the table is the altered copy, all others have
followed. -/
theorem table?_after_alter {altered : Table} {alteration : Alteration}
    (hfiled : catalog.TablesFiled) (htable : catalog.table? schema name = some table)
    (hedited : table.Edited alteration altered) (query other : String) :
    ((catalog.putTable schema altered).mapTables
      (Alteration.followIn schema name · alteration)).table? query other =
        if query = schema ∧ other = name then some altered
        else (catalog.table? query other).map (Alteration.followIn schema name · alteration) := by
  obtain ⟨rfl, rfl⟩ := hfiled htable
  rw [table?_mapTables, table?_putTable (hasSchema_of_table? htable), hedited.name_eq]
  split
  · rw [Option.map_some, Alteration.followIn_of_edited hedited]
  · rfl

theorem TablesFiled.followIn (hfiled : catalog.TablesFiled) (schema name : String)
    (alteration : Alteration) :
    (catalog.mapTables (Alteration.followIn schema name · alteration)).TablesFiled := by
  refine hfiled.mapTables (fun table => ?_) fun table => ?_
  · obtain ⟨keys, hkeys⟩ := Alteration.exists_followIn_eq schema name table alteration
    rw [hkeys]
  · obtain ⟨keys, hkeys⟩ := Alteration.exists_followIn_eq schema name table alteration
    rw [hkeys]

theorem tablesFiled_putTable_edited {altered : Table} {alteration : Alteration}
    (hfiled : catalog.TablesFiled) (htable : catalog.table? schema name = some table)
    (hedited : table.Edited alteration altered) :
    (catalog.putTable schema altered).TablesFiled :=
  hfiled.putTable (hasSchema_of_table? htable) (hedited.schema_eq.trans (hfiled htable).1)

/-- An alteration leaves what the table may refer to as it was. -/
theorem agreeBeside_after_alter {altered : Table} {alteration : Alteration}
    (hfiled : catalog.TablesFiled) (htable : catalog.table? schema name = some table)
    (hedited : table.Edited alteration altered) :
    AgreeBeside altered ((catalog.putTable schema altered).mapTables
      (Alteration.followIn schema name · alteration)) catalog := by
  obtain ⟨hschema, hname⟩ := hfiled htable
  constructor
  · intro query
    simp
  · intro query other hother
    rw [hedited.schema_eq, hedited.name_eq, hschema, hname] at hother
    rw [table?_after_alter hfiled htable hedited, if_neg hother, Option.map_map]
    congr 1
    funext old
    obtain ⟨keys, hkeys⟩ := Alteration.exists_followIn_eq schema name old alteration
    simp only [Function.comp_apply, hkeys]
    rfl

/-- Several alterations leave a table where it is. -/
theorem foldlM_alter_keeps {altered : Table} {alterations : List Alteration}
    (halter : alterations.foldlM (Alteration.alter catalog) table = .ok altered) :
    altered.schema = table.schema ∧ altered.name = table.name := by
  refine foldlM_ok_induction (P := fun current =>
    current.schema = table.schema ∧ current.name = table.name) ?_ ⟨rfl, rfl⟩ halter
  rintro start alteration next - ⟨hschema, hname⟩ hnext
  obtain ⟨hedited, -⟩ := Alteration.alter_eq_ok_iff.mp hnext
  exact ⟨hedited.schema_eq.trans hschema, hedited.name_eq.trans hname⟩

/-- One by one, the altered copy takes the place of the table, and all other tables have
followed. -/
theorem alterTableEach_eq (hfiled : catalog.TablesFiled)
    (htable : catalog.table? schema name = some table) (alterations : List Alteration) :
    catalog.alterTableEach schema name alterations =
      (alterations.foldlM (Alteration.alter catalog) table).map fun altered =>
        (catalog.mapTables (Alteration.followAll schema name alterations)).putTable
          schema altered := by
  -- Along the list, the table of the current catalog is the copy that the batch would have made.
  induction alterations generalizing catalog table with
  | nil =>
      have hput : catalog.putTable schema table = catalog :=
        putTable_eq_self (by rwa [(hfiled htable).2])
      have hmap : catalog.mapTables (Alteration.followAll schema name []) = catalog :=
        mapTables_eq_self fun _ _ _ _ => rfl
      simp only [alterTableEach, List.foldlM_nil, pure, Except.pure, Except.map, hmap, hput]
  | cons alteration rest ih =>
      rw [alterTableEach, List.foldlM_cons, List.foldlM_cons, alterTable_eq htable]
      cases halter : alteration.alter catalog table with
      | error error =>
          rw [except_map_error, except_error_bind, except_error_bind, except_map_error]
      | ok altered =>
          obtain ⟨hedited, -⟩ := Alteration.alter_eq_ok_iff.mp halter
          have hnext := table?_after_alter hfiled htable hedited
          have hfollowed := (tablesFiled_putTable_edited hfiled htable hedited).followIn
            schema name alteration
          have hagree := agreeBeside_after_alter hfiled htable hedited
          rw [except_map_ok, except_ok_bind, except_ok_bind, ← alterTableEach,
            ih hfollowed ((hnext schema name).trans (if_pos ⟨rfl, rfl⟩)), hagree.foldlM_alter_eq]
          cases hcopy : rest.foldlM (Alteration.alter catalog) altered with
          | error error => rw [except_map_error, except_map_error]
          | ok copy =>
              have hcopyName : copy.name = name :=
                calc copy.name = altered.name := (foldlM_alter_keeps hcopy).2
                  _ = table.name := hedited.name_eq
                  _ = name := (hfiled htable).2
              have hschema : catalog.hasSchema schema = true := hasSchema_of_table? htable
              rw [except_map_ok, except_map_ok]
              congr 1
              -- What the first alteration put in is covered by the copy that all of them make.
              refine ext_table? (by simp) (fun query => by simp) fun query other => ?_
              rw [table?_putTable (by simpa using hschema),
                table?_putTable (by simpa using hschema), hcopyName]
              by_cases hown : query = schema ∧ other = name
              · rw [if_pos hown, if_pos hown]
              · rw [if_neg hown, if_neg hown, table?_mapTables, hnext, if_neg hown,
                  Option.map_map, table?_mapTables]
                rfl

/-- Putting a table in and then changing every table changes the others and puts in the changed
one. -/
theorem mapTables_putTable {change : Table → Table} (hschema : catalog.hasSchema schema = true)
    (hname : ∀ table, (change table).name = table.name) (table : Table) :
    (catalog.putTable schema table).mapTables change =
      (catalog.mapTables change).putTable schema (change table) := by
  refine ext_table? (by simp) (fun query => by simp) fun query other => ?_
  rw [table?_putTable (by simpa using hschema), table?_mapTables, table?_mapTables,
    table?_putTable hschema, hname]
  split <;> rfl

/-- In a batch, the altered copy takes the place of the table, and it has followed like all other
tables. -/
theorem alterTableBatch_eq_putTable (htable : catalog.table? schema name = some table)
    (alterations : List Alteration) :
    catalog.alterTableBatch schema name alterations =
      (alterations.foldlM (Alteration.alter catalog) table).map fun altered =>
        (catalog.mapTables (Alteration.followAll schema name alterations)).putTable schema
          (Alteration.followAll schema name alterations altered) := by
  rw [alterTableBatch_eq htable]
  congr 1
  funext altered
  exact mapTables_putTable (hasSchema_of_table? htable) (fun _ => Alteration.name_followAll) altered

end Catalog

end Schemata
