import Mathlib.Data.List.Nodup
import Schemata.Catalog.Alteration

/-!
# Reading a catalog back

Three questions fix a catalog: which schema unqualified names belong to, which schemas there are
with their enum types (`Catalog.outline?`), and which table stands under which name
(`Catalog.table?`).  This file answers them for every way in which the operations rebuild a catalog,
so that later files never open a `NameMap`.

A catalog is a map of schemas, each with a map of tables and one of enum types, and most operations
touch one entry of one inner map or all entries of all of them.  The lemmas here say for each what
the three questions answer afterwards, in terms of what they answered before; equality of catalogs
and membership in the list of all tables are then statements about answers alone.

* `ext_table?`: two catalogs that answer alike are equal.
* `table?_mapTables`, `table?_putTable`, `table?_eraseTable`: what stands where after a change.
* `HasColumn`: the one thing foreign keys ask of a catalog.
* `tables`: all tables, each of which is listed once (`TablesFiled.nodup_identities`), and what is
  listed after a change (`tables_mapTables`, `TablesFiled.tables_eraseTable`).
-/

namespace Schemata

namespace NameMap

variable {α : Type}

/-- The changed name holds its changed value, if it held one, and nothing else changes. -/
theorem find?_modify (map : NameMap α) (name : String) (change : α → α) (query : String) :
    (map.modify name change).find? query =
      if query = name then (map.find? name).map change else map.find? query := by
  unfold modify
  split
  · rename_i value hvalue
    rw [find?_insert, hvalue]
    rfl
  · rename_i hnone
    split
    · rename_i hquery
      rw [hquery, hnone]
      rfl
    · rfl

theorem mem_entries_iff {map : NameMap α} {name : String} {value : α} :
    (name, value) ∈ map.entries ↔ map.find? name = some value := by
  obtain ⟨entries, hordered⟩ := map
  show (name, value) ∈ entries ↔ findEntry name entries = some value
  induction entries with
  | nil => simp [findEntry]
  | cons entry rest ih =>
      obtain ⟨hfirst, hrest⟩ := List.pairwise_cons.mp hordered
      obtain ⟨label, held⟩ := entry
      rw [findEntry, List.mem_cons]
      by_cases hname : name = label
      · -- The names are apart, so this one does not come again.
        subst hname
        have hnot : (name, value) ∉ rest := fun hmem => String.lt_irrefl name (hfirst _ hmem)
        simp [hnot, eq_comm]
      · simp [hname, ih hrest]

theorem nodup_names (map : NameMap α) : map.names.Nodup := by
  refine List.pairwise_map.mpr (map.ordered.imp fun hlt heq => ?_)
  exact String.lt_irrefl _ (heq ▸ hlt)

/-- A new value takes the place of the old one. -/
theorem insertEntry_of_findEntry {entries : List (String × α)} (hordered : Ordered entries)
    {name : String} {held : α} (hheld : findEntry name entries = some held) (value : α) :
    insertEntry name value entries =
      entries.map fun entry => if entry.1 = name then (name, value) else entry := by
  -- on the entries, which are ordered by name: once the name is found, no later one is equal to it
  induction entries with
  | nil => cases hheld
  | cons first rest ih =>
      obtain ⟨hfirst, hrest⟩ := List.pairwise_cons.mp hordered
      rw [insertEntry, List.map_cons]
      by_cases hname : name = first.1
      · subst hname
        have hkept : rest.map (fun entry => if entry.1 = first.1 then (first.1, value) else entry) =
            rest := by
          refine (List.map_congr_left fun entry hentry => if_neg fun hsame => ?_).trans
            (List.map_id rest)
          exact String.lt_irrefl first.1 (hsame ▸ hfirst entry hentry)
        rw [if_neg (String.lt_irrefl _), if_pos rfl, if_pos rfl, hkept]
      · rw [findEntry, if_neg hname] at hheld
        have hmem : (name, held) ∈ rest := (@mem_entries_iff α ⟨rest, hrest⟩ name held).mpr hheld
        have hlater : ¬name < first.1 := fun hlt =>
          String.lt_irrefl name (String.lt_trans hlt (hfirst _ hmem))
        rw [if_neg hlater, if_neg hname, if_neg (Ne.symm hname), ih hrest hheld]

/-- A change of one value leaves the list of all entries as it is but for that value. -/
theorem entries_modify (map : NameMap α) (name : String) (change : α → α) :
    (map.modify name change).entries =
      map.entries.map fun entry => if entry.1 = name then (entry.1, change entry.2) else entry := by
  unfold modify
  split
  · rename_i held hheld
    refine (insertEntry_of_findEntry map.ordered hheld _).trans
      (List.map_congr_left fun entry hentry => ?_)
    split
    · rename_i hname
      subst hname
      rw [mem_entries_iff.mp hentry] at hheld
      cases hheld
      rfl
    · rfl
  · rename_i hnone
    refine ((List.map_congr_left fun entry hentry => if_neg ?_).trans (List.map_id _)).symm
    rintro rfl
    rw [mem_entries_iff.mp hentry] at hnone
    cases hnone

end NameMap

namespace Catalog

variable {catalog : Catalog} {schema name : String}

/-- A schema without its tables: its name and its enum types. -/
def outline? (catalog : Catalog) (schema : String) : Option (String × NameMap EnumType) :=
  (catalog.schemas.find? schema).map fun holder => (holder.name, holder.enums)

theorem hasSchema_eq_isSome_outline? (catalog : Catalog) (schema : String) :
    catalog.hasSchema schema = (catalog.outline? schema).isSome := by
  simp [hasSchema, NameMap.contains, outline?]

theorem enum?_eq_outline? (catalog : Catalog) (schema name : String) :
    catalog.enum? schema name = (catalog.outline? schema).bind (·.2.find? name) := by
  unfold enum? outline?
  cases catalog.schemas.find? schema <;> rfl

theorem table_eq_ok_iff {table : Table} : catalog.table schema name = .ok table ↔
    catalog.table? schema name = some table := by
  unfold Catalog.table
  cases catalog.table? schema name <;> simp

/-- A table stands in a schema that exists. -/
theorem hasSchema_of_table? {table : Table} (htable : catalog.table? schema name = some table) :
    catalog.hasSchema schema = true := by
  obtain ⟨holder, hholder, -⟩ := Option.bind_eq_some_iff.mp htable
  simp [hasSchema, NameMap.contains, hholder]

/-- Catalogs with the same default schema, outlines and tables are equal. -/
theorem ext_table? {first second : Catalog} (hdefault : first.defaultSchema = second.defaultSchema)
    (houtline : ∀ schema, first.outline? schema = second.outline? schema)
    (htable : ∀ schema name, first.table? schema name = second.table? schema name) :
    first = second := by
  obtain ⟨firstDefault, firstSchemas⟩ := first
  obtain ⟨secondDefault, secondSchemas⟩ := second
  obtain rfl : firstDefault = secondDefault := hdefault
  congr 1
  refine NameMap.ext_find? fun schema => ?_
  have houtline := houtline schema
  have htable := htable schema
  simp only [outline?, table?] at houtline htable
  -- Both maps have the schema or neither has it, and then its tables decide.
  cases hfirst : firstSchemas.find? schema with
  | none =>
      cases hsecond : secondSchemas.find? schema with
      | none => rfl
      | some holder => simp [hfirst, hsecond] at houtline
  | some holder =>
      cases hsecond : secondSchemas.find? schema with
      | none => simp [hfirst, hsecond] at houtline
      | some other =>
          simp only [hfirst, hsecond, Option.map_some, Option.some.injEq, Prod.mk.injEq,
            Option.bind_some] at houtline htable
          obtain ⟨holderName, holderTables, holderEnums⟩ := holder
          obtain ⟨otherName, otherTables, otherEnums⟩ := other
          obtain ⟨rfl, rfl⟩ := houtline
          obtain rfl : holderTables = otherTables := NameMap.ext_find? htable
          rfl

/-! ## Changing every table -/

@[simp] theorem defaultSchema_mapTables (catalog : Catalog) (change : Table → Table) :
    (catalog.mapTables change).defaultSchema = catalog.defaultSchema := rfl

@[simp] theorem outline?_mapTables (catalog : Catalog) (change : Table → Table) (schema : String) :
    (catalog.mapTables change).outline? schema = catalog.outline? schema := by
  simp [outline?, mapTables, NameMap.find?_map, Function.comp_def]

@[simp] theorem hasSchema_mapTables (catalog : Catalog) (change : Table → Table)
    (schema : String) : (catalog.mapTables change).hasSchema schema = catalog.hasSchema schema := by
  rw [hasSchema_eq_isSome_outline?, hasSchema_eq_isSome_outline?, outline?_mapTables]

@[simp] theorem table?_mapTables (catalog : Catalog) (change : Table → Table)
    (schema name : String) :
    (catalog.mapTables change).table? schema name = (catalog.table? schema name).map change := by
  unfold table? mapTables
  rw [NameMap.find?_map]
  cases catalog.schemas.find? schema with
  | none => rfl
  | some holder => simp [NameMap.find?_map]

/-- Two changes of every table, one after the other, are one change. -/
theorem mapTables_mapTables (catalog : Catalog) (first second : Table → Table) :
    (catalog.mapTables first).mapTables second = catalog.mapTables (second ∘ first) :=
  ext_table? rfl (fun schema => by simp) fun schema name => by simp

/-- A change of every table that leaves the tables of the catalog alone leaves the catalog alone. -/
theorem mapTables_eq_self {change : Table → Table}
    (hsame : ∀ schema name table, catalog.table? schema name = some table → change table = table) :
    catalog.mapTables change = catalog := by
  refine ext_table? rfl (fun schema => by simp) fun schema name => ?_
  rw [table?_mapTables]
  cases htable : catalog.table? schema name with
  | none => rfl
  | some table => exact congrArg some (hsame schema name table htable)

/-! ## Changing the tables of one schema -/

/-- The catalog with the tables of one schema changed. -/
def changeTables (catalog : Catalog) (schema : String)
    (change : NameMap Table → NameMap Table) : Catalog :=
  catalog.modifySchema schema fun holder => { holder with tables := change holder.tables }

@[simp] theorem defaultSchema_changeTables (catalog : Catalog) (schema : String)
    (change : NameMap Table → NameMap Table) :
    (catalog.changeTables schema change).defaultSchema = catalog.defaultSchema := rfl

@[simp] theorem outline?_changeTables (catalog : Catalog) (schema : String)
    (change : NameMap Table → NameMap Table) (query : String) :
    (catalog.changeTables schema change).outline? query = catalog.outline? query := by
  simp only [outline?, changeTables, modifySchema, NameMap.find?_modify]
  split
  · rename_i hquery
    simp [hquery, Function.comp_def]
  · rfl

theorem table?_changeTables (catalog : Catalog) (schema : String)
    (change : NameMap Table → NameMap Table) (query name : String) :
    (catalog.changeTables schema change).table? query name =
      if query = schema then
        (catalog.schemas.find? schema).bind fun holder => (change holder.tables).find? name
      else catalog.table? query name := by
  simp only [table?, changeTables, modifySchema, NameMap.find?_modify]
  split
  · cases catalog.schemas.find? schema <;> rfl
  · rfl

theorem putTable_eq_changeTables (catalog : Catalog) (schema : String) (table : Table) :
    catalog.putTable schema table =
      catalog.changeTables schema (·.insert table.name table) := rfl

@[simp] theorem defaultSchema_putTable (catalog : Catalog) (schema : String) (table : Table) :
    (catalog.putTable schema table).defaultSchema = catalog.defaultSchema := rfl

@[simp] theorem outline?_putTable (catalog : Catalog) (schema : String) (table : Table)
    (query : String) :
    (catalog.putTable schema table).outline? query = catalog.outline? query := by
  rw [putTable_eq_changeTables, outline?_changeTables]

@[simp] theorem hasSchema_putTable (catalog : Catalog) (schema : String) (table : Table)
    (query : String) :
    (catalog.putTable schema table).hasSchema query = catalog.hasSchema query := by
  rw [hasSchema_eq_isSome_outline?, hasSchema_eq_isSome_outline?, outline?_putTable]

/-- A table put into a schema is found there and nothing else changes. -/
theorem table?_putTable (hschema : catalog.hasSchema schema = true) (table : Table)
    (query name : String) :
    (catalog.putTable schema table).table? query name =
      if query = schema ∧ name = table.name then some table else catalog.table? query name := by
  rw [putTable_eq_changeTables, table?_changeTables]
  obtain ⟨holder, hholder⟩ := Option.isSome_iff_exists.mp hschema
  by_cases hquery : query = schema
  · subst hquery
    simp [hholder, NameMap.find?_insert, table?]
  · simp [hquery]

/-- A table taken out of a schema is not found there and nothing else changes. -/
theorem table?_eraseTable (catalog : Catalog) (schema erased query name : String) :
    (catalog.changeTables schema (·.erase erased)).table? query name =
      if query = schema ∧ name = erased then none else catalog.table? query name := by
  rw [table?_changeTables]
  by_cases hquery : query = schema
  · subst hquery
    cases hholder : catalog.schemas.find? query <;>
      simp [hholder, NameMap.find?_erase, table?]
  · simp [hquery]

/-- Of two tables of one name, put in one after the other, the second stays. -/
theorem putTable_putTable (hschema : catalog.hasSchema schema = true) {first second : Table}
    (hname : second.name = first.name) :
    (catalog.putTable schema first).putTable schema second = catalog.putTable schema second := by
  refine ext_table? rfl (fun query => by simp) fun query name => ?_
  rw [table?_putTable (by simpa using hschema), table?_putTable hschema, table?_putTable hschema,
    hname]
  split <;> rfl

/-- Putting a table back is no change. -/
theorem putTable_eq_self {table : Table} (htable : catalog.table? schema table.name = some table) :
    catalog.putTable schema table = catalog := by
  refine ext_table? rfl (fun query => by simp) fun query name => ?_
  rw [table?_putTable (hasSchema_of_table? htable)]
  split
  · rename_i hquery
    rw [hquery.1, hquery.2, htable]
  · rfl

/-! ## Schemas and enum types -/

/-- The catalog with a schema that holds nothing. -/
def withSchema (catalog : Catalog) (name : String) : Catalog :=
  { catalog with schemas := catalog.schemas.insert name (.empty name) }

theorem outline?_withSchema (catalog : Catalog) (name query : String) :
    (catalog.withSchema name).outline? query =
      if query = name then some (name, .empty) else catalog.outline? query := by
  simp only [outline?, withSchema, NameMap.find?_insert]
  split <;> rfl

/-- A new schema holds no tables, and the others keep theirs. -/
theorem table?_withSchema (hnew : catalog.hasSchema name = false) (query table : String) :
    (catalog.withSchema name).table? query table = catalog.table? query table := by
  simp only [table?, withSchema, NameMap.find?_insert]
  split
  · rename_i hquery
    have hnone : catalog.schemas.find? name = none := by
      simpa [hasSchema, NameMap.contains] using hnew
    rw [hquery, hnone]
    rfl
  · rfl

@[simp] theorem table?_ensureSchema (catalog : Catalog) (schema query name : String) :
    (catalog.ensureSchema schema).table? query name = catalog.table? query name := by
  rw [ensureSchema]
  split
  · rfl
  · rename_i hnew
    exact table?_withSchema (by simpa using hnew) query name

@[simp] theorem enum?_ensureSchema (catalog : Catalog) (schema query name : String) :
    (catalog.ensureSchema schema).enum? query name = catalog.enum? query name := by
  rw [ensureSchema]
  split
  · rfl
  · rename_i hnew
    have hnone : catalog.outline? schema = none := by
      rw [hasSchema_eq_isSome_outline?] at hnew
      simpa using hnew
    rw [← withSchema, enum?_eq_outline?, enum?_eq_outline?, outline?_withSchema]
    split
    · rename_i hquery
      rw [hquery, hnone]
      rfl
    · rfl

/-- The catalog with the enum types of one schema changed. -/
def changeEnums (catalog : Catalog) (schema : String)
    (change : NameMap EnumType → NameMap EnumType) : Catalog :=
  catalog.modifySchema schema fun holder => { holder with enums := change holder.enums }

theorem outline?_changeEnums (catalog : Catalog) (schema : String)
    (change : NameMap EnumType → NameMap EnumType) (query : String) :
    (catalog.changeEnums schema change).outline? query =
      if query = schema then
        (catalog.outline? query).map fun outline => (outline.1, change outline.2)
      else catalog.outline? query := by
  simp only [outline?, changeEnums, modifySchema, NameMap.find?_modify]
  split
  · rename_i hquery
    simp [hquery, Function.comp_def]
  · rfl

@[simp] theorem table?_changeEnums (catalog : Catalog) (schema : String)
    (change : NameMap EnumType → NameMap EnumType) (query name : String) :
    (catalog.changeEnums schema change).table? query name = catalog.table? query name := by
  simp only [table?, changeEnums, modifySchema, NameMap.find?_modify]
  split
  · rename_i hquery
    rw [hquery]
    cases catalog.schemas.find? schema <;> rfl
  · rfl

/-! ## Tables under their own names -/

/-- Every table stands under its own schema and name. -/
def TablesFiled (catalog : Catalog) : Prop :=
  ∀ ⦃schema name : String⦄ ⦃table : Table⦄, catalog.table? schema name = some table →
    table.schema = schema ∧ table.name = name

theorem TablesFiled.mapTables (hfiled : catalog.TablesFiled) {change : Table → Table}
    (hschema : ∀ table, (change table).schema = table.schema)
    (hname : ∀ table, (change table).name = table.name) :
    (catalog.mapTables change).TablesFiled := by
  intro schema name table htable
  rw [table?_mapTables] at htable
  obtain ⟨old, hold, rfl⟩ := Option.map_eq_some_iff.mp htable
  rw [hschema, hname]
  exact hfiled hold

theorem TablesFiled.putTable (hfiled : catalog.TablesFiled) {table : Table}
    (hhas : catalog.hasSchema schema = true) (hschema : table.schema = schema) :
    (catalog.putTable schema table).TablesFiled := by
  intro query name other hother
  rw [table?_putTable hhas] at hother
  split at hother
  · rename_i hquery
    cases hother
    exact ⟨hschema.trans hquery.1.symm, hquery.2.symm⟩
  · exact hfiled hother

/-! ## Listing tables -/

/-- All tables, in the order of their schemas and names. -/
def tables (catalog : Catalog) : List Table :=
  catalog.schemas.values.flatMap (·.tables.values)

theorem mem_tables_iff {table : Table} :
    table ∈ catalog.tables ↔ ∃ schema name, catalog.table? schema name = some table := by
  simp only [tables, NameMap.values, List.mem_flatMap, List.mem_map, Prod.exists]
  constructor
  · rintro ⟨holder, ⟨schema, _, hholder, rfl⟩, name, _, htable, rfl⟩
    refine ⟨schema, name, ?_⟩
    rw [table?, NameMap.mem_entries_iff.mp hholder]
    exact NameMap.mem_entries_iff.mp htable
  · rintro ⟨schema, name, htable⟩
    obtain ⟨holder, hholder, hfound⟩ := Option.bind_eq_some_iff.mp htable
    exact ⟨holder, ⟨schema, holder, NameMap.mem_entries_iff.mpr hholder, rfl⟩,
      name, table, NameMap.mem_entries_iff.mpr hfound, rfl⟩

theorem TablesFiled.mem_tables_iff (hfiled : catalog.TablesFiled) {table : Table} :
    table ∈ catalog.tables ↔ catalog.table? table.schema table.name = some table := by
  rw [Catalog.mem_tables_iff]
  constructor
  · rintro ⟨schema, name, htable⟩
    obtain ⟨hschema, hname⟩ := hfiled htable
    rw [hschema, hname]
    exact htable
  · exact fun htable => ⟨table.schema, table.name, htable⟩

/-- In the lists that make up a filed catalog, every table stands under its own names. -/
theorem TablesFiled.of_mem_entries (hfiled : catalog.TablesFiled) {holder : String × Schema}
    (hholder : holder ∈ catalog.schemas.entries) {entry : String × Table}
    (hentry : entry ∈ holder.2.tables.entries) :
    entry.2.schema = holder.1 ∧ entry.2.name = entry.1 := by
  refine hfiled ?_
  rw [table?, NameMap.mem_entries_iff.mp hholder]
  exact NameMap.mem_entries_iff.mp hentry

theorem TablesFiled.nodup_identities (hfiled : catalog.TablesFiled) :
    (catalog.tables.map fun table => (table.schema, table.name)).Nodup := by
  -- A table is identified by the names under which it stands.
  have hidentities : catalog.tables.map (fun table => (table.schema, table.name)) =
      catalog.schemas.entries.flatMap fun holder =>
        holder.2.tables.names.map fun name => (holder.1, name) := by
    rw [tables, List.map_flatMap, NameMap.values, List.flatMap_map]
    refine List.flatMap_congr fun holder hholder => ?_
    rw [NameMap.values, NameMap.names, List.map_map, List.map_map]
    refine List.map_congr_left fun entry hentry => ?_
    obtain ⟨hschema, hname⟩ := hfiled.of_mem_entries hholder hentry
    exact Prod.ext hschema hname
  rw [hidentities, List.nodup_flatMap]
  constructor
  · intro holder _
    exact holder.2.tables.nodup_names.map fun _ _ hsame => (Prod.ext_iff.mp hsame).2
  · refine catalog.schemas.ordered.imp fun hlt => ?_
    intro identity hfirst hsecond
    obtain ⟨_, -, rfl⟩ := List.mem_map.mp hfirst
    obtain ⟨_, -, hsame⟩ := List.mem_map.mp hsecond
    rw [← (Prod.ext_iff.mp hsame).1] at hlt
    exact String.lt_irrefl _ hlt

theorem TablesFiled.nodup_tables (hfiled : catalog.TablesFiled) : catalog.tables.Nodup :=
  List.Nodup.of_map _ hfiled.nodup_identities

theorem tables_mapTables (catalog : Catalog) (change : Table → Table) :
    (catalog.mapTables change).tables = catalog.tables.map change := by
  simp only [tables, mapTables, NameMap.values, NameMap.map, List.map_map, List.map_flatMap,
    List.flatMap_map, Function.comp_def]

theorem tables_changeTables (catalog : Catalog) (schema : String)
    (change : NameMap Table → NameMap Table) :
    (catalog.changeTables schema change).tables = catalog.schemas.entries.flatMap fun holder =>
      (if holder.1 = schema then change holder.2.tables else holder.2.tables).values := by
  simp only [tables, changeTables, modifySchema, NameMap.values, NameMap.entries_modify,
    List.flatMap_map]
  refine List.flatMap_congr fun holder _ => ?_
  split <;> rfl

/-- A table taken out of a schema is not listed and nothing else changes. -/
theorem TablesFiled.tables_eraseTable (hfiled : catalog.TablesFiled) (schema name : String) :
    (catalog.changeTables schema (·.erase name)).tables =
      catalog.tables.filter fun table => !(table.schema == schema && table.name == name) := by
  rw [tables_changeTables, tables, NameMap.values, List.flatMap_map, List.filter_flatMap]
  refine List.flatMap_congr fun holder hholder => ?_
  split
  · rename_i hschema
    rw [NameMap.values, NameMap.erase, NameMap.values, List.filter_map]
    refine congrArg (List.map Prod.snd) (List.filter_congr fun entry hentry => ?_)
    obtain ⟨hown, hname⟩ := hfiled.of_mem_entries hholder hentry
    rw [Function.comp_apply, hown, hname, hschema, beq_self_eq_true, Bool.true_and, bne]
  · rename_i hschema
    refine (List.filter_eq_self.mpr fun table htable => ?_).symm
    obtain ⟨entry, hentry, rfl⟩ := List.mem_map.mp htable
    obtain ⟨hown, -⟩ := hfiled.of_mem_entries hholder hentry
    rw [hown, beq_eq_false_iff_ne.mpr hschema]
    rfl

/-- A table put in the place of another is listed there. -/
theorem TablesFiled.tables_putTable (hfiled : catalog.TablesFiled) {table : Table}
    (htable : catalog.hasTable schema table.name = true) :
    (catalog.putTable schema table).tables = catalog.tables.map fun old =>
      if old.schema = schema ∧ old.name = table.name then table else old := by
  rw [putTable_eq_changeTables, tables_changeTables, tables, NameMap.values, List.flatMap_map,
    List.map_flatMap]
  refine List.flatMap_congr fun holder hholder => ?_
  split
  · rename_i hschema
    -- in the schema itself the entry of that name changes, and it is the entry of that table
    have hheld : (holder.2.tables.find? table.name).isSome = true := by
      rwa [hasTable, table?, ← hschema, NameMap.mem_entries_iff.mp hholder] at htable
    obtain ⟨held, hheld⟩ := Option.isSome_iff_exists.mp hheld
    show (insertEntry table.name table holder.2.tables.entries).map Prod.snd = _
    rw [NameMap.insertEntry_of_findEntry holder.2.tables.ordered hheld, NameMap.values,
      List.map_map, List.map_map]
    refine List.map_congr_left fun entry hentry => ?_
    obtain ⟨hown, hname⟩ := hfiled.of_mem_entries hholder hentry
    simp only [Function.comp_apply, hown, hname, hschema, true_and]
    split <;> rfl
  · rename_i hschema
    -- in another schema no table is the changed one, whatever its name
    refine ((List.map_congr_left fun old hold => if_neg ?_).trans (List.map_id _)).symm
    obtain ⟨entry, hentry, rfl⟩ := List.mem_map.mp hold
    obtain ⟨hown, -⟩ := hfiled.of_mem_entries hholder hentry
    rw [hown]
    exact fun hboth => hschema hboth.1

/-! ## Columns -/

/-- The catalog has a table with the given column. -/
def HasColumn (catalog : Catalog) (schema name column : String) : Prop :=
  ∃ table, catalog.table? schema name = some table ∧ table.hasColumn column = true

theorem hasColumn_iff_of_table? {table : Table} (htable : catalog.table? schema name = some table)
    {column : String} : catalog.HasColumn schema name column ↔ table.hasColumn column = true := by
  constructor
  · rintro ⟨other, hother, hcolumn⟩
    rw [htable] at hother
    cases hother
    exact hcolumn
  · exact fun hcolumn => ⟨table, htable, hcolumn⟩

/-- Where two catalogs hold tables of the same columns they have the same columns. -/
theorem hasColumn_congr {first second : Catalog} {column : String}
    (hcolumns : (first.table? schema name).map Table.columns =
      (second.table? schema name).map Table.columns) :
    first.HasColumn schema name column ↔ second.HasColumn schema name column := by
  unfold HasColumn Table.hasColumn
  cases hfirst : first.table? schema name <;> cases hsecond : second.table? schema name <;>
    simp_all

end Catalog

end Schemata
