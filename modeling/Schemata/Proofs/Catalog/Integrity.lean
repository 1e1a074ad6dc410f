import Schemata.Proofs.Catalog.Batch

/-!
# Integrity of the catalog

A catalog is *sound* when everything stands under its own name, the tables are well formed, and both
sides of every foreign key exist.  That every key resolves is a fact about two tables at once, and
an operation checks it only for what it adds: it is the other tables that have to follow when a
table or a column is dropped or takes another name.  So each operation has a lemma on what stands
where afterwards (`table?_after_rename`, `table?_after_alter` and their kin), and soundness asks of
each table found there where it was before and of each of its keys what it led to before.

Each operation of the catalog, when it succeeds, leaves a sound catalog sound:

* `Sound.addTable`, `Sound.dropTable`, `Sound.renameTable`;
* `Sound.alterTable`: one alteration.  Columns of the altered table move (`Alteration.columnAfter`),
  and every foreign key to them moves along (`ForeignKey.MovedBy`) or goes;
* `Sound.alterTableBatch`: a batch leaves what its alterations leave one by one, perhaps with fewer
  foreign keys.
-/

namespace Schemata

/-- A key points at the table that its two names give. -/
theorem ForeignKey.pointsAt_iff {key : ForeignKey} {ownerSchema schema name : String} :
    key.pointsAt ownerSchema schema name = true ↔
      key.targetSchema ownerSchema = schema ∧ key.referencedTable = name := by
  simp [ForeignKey.pointsAt, and_comm]

namespace Catalog

variable {catalog result first second : Catalog} {schema name : String} {table : Table}

/-! ## Soundness -/

/-- The default schema exists, and schemas and enum types stand under their own names. -/
structure Labelled (catalog : Catalog) : Prop where
  hasSchema_default : catalog.hasSchema catalog.defaultSchema = true
  schema_name : ∀ ⦃schema : String⦄ ⦃holder : Schema⦄,
    catalog.schemas.find? schema = some holder → holder.name = schema
  enum_name : ∀ ⦃schema name : String⦄ ⦃enumType : EnumType⦄,
    catalog.enum? schema name = some enumType → enumType.name = name

/-- Everything stands under its own name, tables are well formed, and every foreign key leads to a
column that exists. -/
structure Sound (catalog : Catalog) : Prop extends Labelled catalog where
  filed : catalog.TablesFiled
  wellFormed : ∀ ⦃schema name : String⦄ ⦃table : Table⦄,
    catalog.table? schema name = some table → table.WellFormed
  resolved : ∀ ⦃schema name : String⦄ ⦃table : Table⦄, catalog.table? schema name = some table →
    ∀ key ∈ table.foreignKeys,
      catalog.HasColumn (key.targetSchema table.schema) key.referencedTable key.referencedColumn

theorem hasSchema_congr (houtline : ∀ query, second.outline? query = first.outline? query)
    (schema : String) : second.hasSchema schema = first.hasSchema schema := by
  rw [hasSchema_eq_isSome_outline?, hasSchema_eq_isSome_outline?, houtline]

/-- The labels are a matter of the outlines. -/
theorem Labelled.of_outline (hlabelled : first.Labelled)
    (hdefault : second.defaultSchema = first.defaultSchema)
    (houtline : ∀ query, second.outline? query = first.outline? query) : second.Labelled := by
  constructor
  · rw [hdefault, hasSchema_congr houtline]
    exact hlabelled.hasSchema_default
  · intro schema holder hholder
    have hsame := houtline schema
    rw [outline?, outline?, hholder, Option.map_some, eq_comm, Option.map_eq_some_iff] at hsame
    obtain ⟨other, hother, hlabels⟩ := hsame
    have hname := hlabelled.schema_name hother
    rw [Prod.mk.injEq] at hlabels
    exact hlabels.1.symm.trans hname
  · intro schema name enumType henum
    rw [enum?_eq_outline?, houtline, ← enum?_eq_outline?] at henum
    exact hlabelled.enum_name henum

/-! ## Schemas and enum types -/

theorem find?_schemas_new (defaultSchema query : String) :
    (new defaultSchema).schemas.find? query =
      if query = defaultSchema then some (.empty defaultSchema) else none := by
  rw [new, NameMap.find?_insert, NameMap.find?_empty]

/-- The catalog before the first change has no tables. -/
theorem table?_new (defaultSchema query other : String) :
    (new defaultSchema).table? query other = none := by
  rw [table?, find?_schemas_new]
  split <;> rfl

/-- The catalog before the first change is sound. -/
theorem sound_new (defaultSchema : String) : (new defaultSchema).Sound := by
  constructor
  · constructor
    · rw [hasSchema, NameMap.contains, find?_schemas_new]
      simp [new]
    · intro schema holder hholder
      rw [find?_schemas_new] at hholder
      split at hholder
      · rename_i hschema
        cases hholder
        exact hschema.symm
      · cases hholder
    · intro schema name enumType henum
      rw [enum?, find?_schemas_new] at henum
      split at henum <;> cases henum
  · intro schema name table htable
    cases (table?_new defaultSchema schema name).symm.trans htable
  · intro schema name table htable
    cases (table?_new defaultSchema schema name).symm.trans htable
  · intro schema name table htable
    cases (table?_new defaultSchema schema name).symm.trans htable

/-- Soundness beyond the labels is a matter of the tables. -/
theorem Sound.of_table? (hsound : first.Sound) (hlabelled : second.Labelled)
    (htables : ∀ query other, second.table? query other = first.table? query other) :
    second.Sound := by
  refine ⟨hlabelled, ?_, ?_, ?_⟩
  · intro schema name table htable
    exact hsound.filed ((htables schema name).symm.trans htable)
  · intro schema name table htable
    exact hsound.wellFormed ((htables schema name).symm.trans htable)
  · intro schema name table htable key hkey
    obtain ⟨target, htarget, hcolumn⟩ :=
      hsound.resolved ((htables schema name).symm.trans htable) key hkey
    exact ⟨target, (htables _ _).trans htarget, hcolumn⟩

theorem Sound.withSchema (hsound : catalog.Sound) (hnew : catalog.hasSchema name = false) :
    (catalog.withSchema name).Sound := by
  refine hsound.of_table? ⟨?_, ?_, ?_⟩ (table?_withSchema hnew)
  · rw [hasSchema_eq_isSome_outline?, outline?_withSchema]
    have hdefault := hsound.hasSchema_default
    rw [hasSchema_eq_isSome_outline?] at hdefault
    split
    · rfl
    · exact hdefault
  · intro schema holder hholder
    rw [Catalog.withSchema, NameMap.find?_insert] at hholder
    split at hholder
    · rename_i hschema
      cases hholder
      exact hschema.symm
    · exact hsound.schema_name hholder
  · intro schema name enumType henum
    rw [enum?_eq_outline?, outline?_withSchema] at henum
    split at henum
    · cases (NameMap.find?_empty _).symm.trans henum
    · rw [← enum?_eq_outline?] at henum
      exact hsound.enum_name henum

theorem Sound.createSchema (hsound : catalog.Sound)
    (hcreate : catalog.createSchema name = .ok result) : result.Sound := by
  unfold Catalog.createSchema at hcreate
  split at hcreate
  · cases hcreate
  · rename_i hnew
    cases hcreate
    exact hsound.withSchema (by simpa using hnew)

theorem Sound.ensureSchema (hsound : catalog.Sound) (name : String) :
    (catalog.ensureSchema name).Sound := by
  unfold Catalog.ensureSchema
  split
  · exact hsound
  · rename_i hnew
    exact hsound.withSchema (by simpa using hnew)

/-- A change of the enum types of a schema that keeps them under their own names. -/
theorem Sound.changeEnums (hsound : catalog.Sound)
    {change : NameMap EnumType → NameMap EnumType}
    (hchange : ∀ enums : NameMap EnumType,
      (∀ name enumType, enums.find? name = some enumType → enumType.name = name) →
        ∀ name enumType, (change enums).find? name = some enumType → enumType.name = name) :
    (catalog.changeEnums schema change).Sound := by
  refine hsound.of_table? ⟨?_, ?_, ?_⟩ (table?_changeEnums catalog schema change)
  · -- the schema stays, with other enum types
    have hdefault := hsound.hasSchema_default
    rw [hasSchema_eq_isSome_outline?] at hdefault ⊢
    rw [outline?_changeEnums]
    split
    · rw [Option.isSome_map]
      exact hdefault
    · exact hdefault
  · intro query holder hholder
    rw [Catalog.changeEnums, modifySchema, NameMap.find?_modify] at hholder
    split at hholder
    · rename_i hquery
      obtain ⟨old, hold, rfl⟩ := Option.map_eq_some_iff.mp hholder
      exact (hsound.schema_name hold).trans hquery.symm
    · exact hsound.schema_name hholder
  · intro query name enumType henum
    -- of the asked schema either the types are changed or they stay
    have hnames : ∀ name enumType,
        ((catalog.outline? query).bind fun outline => outline.2.find? name) = some enumType →
          enumType.name = name := by
      intro name enumType hfound
      rw [← enum?_eq_outline?] at hfound
      exact hsound.enum_name hfound
    rw [enum?_eq_outline?, outline?_changeEnums] at henum
    cases houtline : catalog.outline? query with
    | none => simp [houtline] at henum
    | some outline =>
        rw [houtline] at hnames henum
        split at henum
        · exact hchange outline.2 hnames name enumType henum
        · exact hnames name enumType henum

/-- A successful addition of an enum type puts it under its name. -/
theorem eq_of_addEnum {enumType : EnumType} (hadd : catalog.addEnum schema enumType = .ok result) :
    result = catalog.changeEnums schema (·.insert enumType.name enumType) := by
  simp only [addEnum, except_bind_eq_ok] at hadd
  obtain ⟨holder, -, hadd⟩ := hadd
  split at hadd
  · cases hadd
  · exact (except_pure_eq_ok.mp hadd).symm

theorem eq_of_dropEnum {enumType : EnumType}
    (hdrop : catalog.dropEnum schema name = .ok (enumType, result)) :
    result = catalog.changeEnums schema (·.erase name) := by
  unfold dropEnum at hdrop
  split at hdrop
  · cases hdrop
  · cases hdrop
    rfl

theorem Sound.addEnum (hsound : catalog.Sound) {enumType : EnumType}
    (hadd : catalog.addEnum schema enumType = .ok result) : result.Sound := by
  rw [eq_of_addEnum hadd]
  refine hsound.changeEnums fun enums hnames name found hfound => ?_
  rw [NameMap.find?_insert] at hfound
  split at hfound
  · rename_i hname
    cases hfound
    exact hname.symm
  · exact hnames name found hfound

theorem Sound.dropEnum (hsound : catalog.Sound) {enumType : EnumType}
    (hdrop : catalog.dropEnum schema name = .ok (enumType, result)) : result.Sound := by
  rw [eq_of_dropEnum hdrop]
  refine hsound.changeEnums fun enums hnames query found hfound => ?_
  rw [NameMap.find?_erase] at hfound
  split at hfound
  · cases hfound
  · exact hnames query found hfound

/-! ## Adding, dropping and renaming tables -/

/-- A foreign key passes the check when it is on a column of its owner and leads to a column of the
owner itself or of a table in the catalog. -/
theorem checkReference_eq_ok_iff {owner : Table} {key : ForeignKey} :
    catalog.checkReference owner key = .ok () ↔
      owner.hasColumn key.column = true ∧
        if key.targetSchema owner.schema = owner.schema ∧ key.referencedTable = owner.name then
          owner.hasColumn key.referencedColumn = true
        else catalog.HasColumn (key.targetSchema owner.schema) key.referencedTable
          key.referencedColumn := by
  unfold checkReference
  rw [referencedTable_eq]
  cases hcolumn : owner.hasColumn key.column with
  | false => simp
  | true =>
      by_cases hself : key.targetSchema owner.schema = owner.schema ∧
          key.referencedTable = owner.name
      · simp [hself]
      · simp only [Bool.not_true, Bool.false_eq_true, if_false, if_neg hself, true_and]
        cases htarget : catalog.table? (key.targetSchema owner.schema) key.referencedTable with
        | none => simp [HasColumn, htarget]
        | some target => simp [hasColumn_iff_of_table? htarget]

/-- A successful addition: the schema is there, the name is new, and every foreign key resolves. -/
theorem addTable_eq_ok_iff : catalog.addTable table = .ok result ↔
    catalog.hasSchema table.schema = true ∧ catalog.table? table.schema table.name = none ∧
      (∀ key ∈ table.foreignKeys, catalog.checkReference table key = .ok ()) ∧
      result = catalog.putTable table.schema table := by
  unfold addTable Catalog.schema hasSchema NameMap.contains table?
  cases hholder : catalog.schemas.find? table.schema with
  | none => simp
  | some holder =>
      cases hfound : holder.tables.find? table.name with
      | some other => simp [hfound]
      | none =>
          simp only [hfound, except_ok_bind, Option.isSome_none,
            Bool.false_eq_true, if_false, except_bind_eq_ok, except_pure_eq_ok,
            Option.isSome_some, Option.bind_some, true_and]
          constructor
          · rintro ⟨⟨⟩, hchecks, rfl⟩
            exact ⟨forM_eq_ok_iff.mp hchecks, rfl⟩
          · rintro ⟨hchecks, rfl⟩
            exact ⟨(), forM_eq_ok_iff.mpr hchecks, rfl⟩

theorem Sound.addTable (hsound : catalog.Sound) (hwell : table.WellFormed)
    (hadd : catalog.addTable table = .ok result) : result.Sound := by
  obtain ⟨hschema, hnew, hchecks, rfl⟩ := addTable_eq_ok_iff.mp hadd
  have htables := table?_putTable hschema table
  -- The new table hides none of the old ones, so all old columns are still there.
  have hkeep : ∀ {query other column}, catalog.HasColumn query other column →
      (catalog.putTable table.schema table).HasColumn query other column := by
    rintro query other column ⟨target, htarget, hcolumn⟩
    refine ⟨target, ?_, hcolumn⟩
    rw [htables, if_neg, htarget]
    rintro ⟨rfl, rfl⟩
    cases hnew.symm.trans htarget
  have hlabelled := hsound.toLabelled.of_outline (defaultSchema_putTable catalog table.schema table)
    (outline?_putTable catalog table.schema table)
  refine ⟨hlabelled, hsound.filed.putTable hschema rfl, ?_, ?_⟩
  · intro query other found hfound
    rw [htables] at hfound
    split at hfound
    · cases hfound
      exact hwell
    · exact hsound.wellFormed hfound
  · intro query other found hfound key hkey
    rw [htables] at hfound
    split at hfound
    · cases hfound
      obtain ⟨-, htarget⟩ := checkReference_eq_ok_iff.mp (hchecks key hkey)
      split at htarget
      · rename_i hself
        exact ⟨table, (htables _ _).trans (if_pos hself), htarget⟩
      · exact hkeep htarget
    · exact hkeep (hsound.resolved hfound key hkey)

/-- A successful drop: the table was there, it goes, and the other tables lose their keys to it. -/
theorem dropTable_eq_ok_iff : catalog.dropTable schema name = .ok (table, result) ↔
    catalog.table? schema name = some table ∧
      result = (catalog.changeTables schema (·.erase name)).mapTables
        (·.dropReferences schema name none) := by
  simp only [dropTable, except_bind_eq_ok, except_pure_eq_ok, table_eq_ok_iff, Prod.mk.injEq]
  constructor
  · rintro ⟨found, hfound, rfl, rfl⟩
    exact ⟨hfound, rfl⟩
  · rintro ⟨hfound, rfl⟩
    exact ⟨table, hfound, rfl, rfl⟩

theorem Sound.dropTable (hsound : catalog.Sound)
    (hdrop : catalog.dropTable schema name = .ok (table, result)) : result.Sound := by
  obtain ⟨-, hresult⟩ := dropTable_eq_ok_iff.mp hdrop
  have htables : ∀ query other, result.table? query other =
      if query = schema ∧ other = name then none
      else (catalog.table? query other).map (·.dropReferences schema name none) := by
    intro query other
    rw [hresult, table?_mapTables, table?_eraseTable]
    split <;> rfl
  have hfound : ∀ {query other found}, result.table? query other = some found →
      ∃ old, catalog.table? query other = some old ∧
        found = old.dropReferences schema name none := by
    intro query other found hfound
    rw [htables] at hfound
    split at hfound
    · cases hfound
    · obtain ⟨old, hold, rfl⟩ := Option.map_eq_some_iff.mp hfound
      exact ⟨old, hold, rfl⟩
  refine ⟨hsound.toLabelled.of_outline (by rw [hresult]; rfl) (by simp [hresult]), ?_, ?_, ?_⟩
  · intro query other found hquery
    obtain ⟨old, hold, rfl⟩ := hfound hquery
    obtain ⟨hschema, hname⟩ := hsound.filed hold
    exact ⟨hschema, hname⟩
  · intro query other found hquery
    obtain ⟨old, hold, rfl⟩ := hfound hquery
    exact (hsound.wellFormed hold).dropReferences schema name none
  · intro query other found hquery key hkey
    obtain ⟨old, hold, rfl⟩ := hfound hquery
    obtain ⟨hkey, hkept⟩ := List.mem_filter.mp hkey
    obtain ⟨target, htarget, hcolumn⟩ := hsound.resolved hold key hkey
    -- A key that was kept does not lead to the dropped table.
    refine ⟨target.dropReferences schema name none, ?_, hcolumn⟩
    rw [htables, if_neg]
    · exact Option.map_eq_some_iff.mpr ⟨target, htarget, rfl⟩
    · intro htarget
      have hpoints : key.pointsAt old.schema schema name = true :=
        ForeignKey.pointsAt_iff.mpr htarget
      simp [hpoints] at hkept

/-- A renaming succeeds when the table is there and its new name is the old one, which changes
nothing, or is free, and then the table moves and the keys to it follow. -/
theorem renameTable_eq_ok_iff {source target : String} :
    catalog.renameTable schema source target = .ok result ↔
      ∃ table, catalog.table? schema source = some table ∧
        (source = target ∧ result = catalog ∨
          source ≠ target ∧ catalog.table? schema target = none ∧
            result = (catalog.changeTables schema fun tables =>
              (tables.erase source).insert target { table with name := target }).mapTables
                (·.retargetTable schema source target)) := by
  simp only [renameTable, except_bind_eq_ok, table_eq_ok_iff, hasTable]
  refine exists_congr fun table => and_congr_right fun _ => ?_
  by_cases hsame : source = target
  · simp [hsame, eq_comm]
  · obtain hnone | ⟨other, hother⟩ := Option.eq_none_or_eq_some (catalog.table? schema target)
    · simp only [beq_iff_eq, hsame, if_false, hnone, Option.isSome_none, Bool.false_eq_true,
        except_pure_eq_ok, false_and, false_or, ne_eq, not_false_eq_true, true_and]
      exact eq_comm
    · simp [hsame, hother]

/-- A successful renaming: to the old name it changes nothing, and to a new one the table moves and
the keys to it follow. -/
theorem renameTable_cases {source target : String}
    (hrename : catalog.renameTable schema source target = .ok result) :
    result = catalog ∨
      ∃ table, catalog.table? schema source = some table ∧
        catalog.table? schema target = none ∧
        result = (catalog.changeTables schema fun tables =>
          (tables.erase source).insert target { table with name := target }).mapTables
            (·.retargetTable schema source target) := by
  obtain ⟨table, htable, ⟨-, hresult⟩ | ⟨-, hnew, hresult⟩⟩ := renameTable_eq_ok_iff.mp hrename
  · exact Or.inl hresult
  · exact Or.inr ⟨table, htable, hnew, hresult⟩

/-- What stands where after a renaming. -/
theorem table?_after_rename {source : String}
    (htable : catalog.table? schema source = some table) (target query other : String) :
    ((catalog.changeTables schema fun tables =>
      (tables.erase source).insert target { table with name := target }).mapTables
        (·.retargetTable schema source target)).table? query other =
      (if query = schema ∧ other = target then some { table with name := target }
        else if query = schema ∧ other = source then none
        else catalog.table? query other).map (·.retargetTable schema source target) := by
  rw [table?_mapTables, table?_changeTables]
  obtain ⟨holder, hholder⟩ := Option.isSome_iff_exists.mp (hasSchema_of_table? htable)
  by_cases hquery : query = schema
  · subst hquery
    simp only [hholder, Option.bind_some, NameMap.find?_insert, NameMap.find?_erase, table?,
      true_and, if_true]
  · simp [hquery]

section Rename

variable {target : String}
  (htables : ∀ query other, result.table? query other =
    (if query = table.schema ∧ other = target then some { table with name := target }
      else if query = table.schema ∧ other = table.name then none
      else catalog.table? query other).map (·.retargetTable table.schema table.name target))

include htables

/-- Every table behind a renaming is an old one under its new name, with its keys moved along. -/
theorem exists_table?_of_rename (hfiled : catalog.TablesFiled)
    (htable : catalog.table? table.schema table.name = some table) {query other : String}
    {found : Table} (hfound : result.table? query other = some found) :
    ∃ before old, catalog.table? query before = some old ∧
      found = { old with name := other }.retargetTable table.schema table.name target := by
  rw [htables, Option.map_eq_some_iff] at hfound
  obtain ⟨base, hbase, rfl⟩ := hfound
  split at hbase
  · rename_i hown
    cases hbase
    exact ⟨table.name, table, hown.1 ▸ htable, by rw [hown.2]⟩
  split at hbase
  · cases hbase
  · refine ⟨other, base, hbase, ?_⟩
    rw [← (hfiled hbase).2]

/-- A key to the renamed table leads to its new name, and any other key to where it led. -/
theorem hasColumn_of_rename (htable : catalog.table? table.schema table.name = some table)
    (hnew : catalog.table? table.schema target = none) {ownerSchema : String} {key : ForeignKey}
    (hcolumn : catalog.HasColumn (key.targetSchema ownerSchema) key.referencedTable
      key.referencedColumn) :
    result.HasColumn (key.targetSchema ownerSchema)
      (if key.pointsAt ownerSchema table.schema table.name then target else key.referencedTable)
      key.referencedColumn := by
  obtain ⟨aim, haim, hcolumn⟩ := hcolumn
  by_cases hpoints : key.pointsAt ownerSchema table.schema table.name = true
  · obtain ⟨hschema, hname⟩ := ForeignKey.pointsAt_iff.mp hpoints
    rw [hschema, hname, htable] at haim
    cases haim
    rw [if_pos hpoints]
    refine ⟨{ table with name := target }.retargetTable table.schema table.name target, ?_,
      hcolumn⟩
    rw [htables, if_pos ⟨hschema, rfl⟩]
    rfl
  · rw [if_neg hpoints]
    refine ⟨aim.retargetTable table.schema table.name target, ?_, hcolumn⟩
    -- the new name was free, so nothing led there
    rw [htables, if_neg, if_neg]
    · exact Option.map_eq_some_iff.mpr ⟨aim, haim, rfl⟩
    · exact fun hown => hpoints (ForeignKey.pointsAt_iff.mpr hown)
    · rintro ⟨hschema, hname⟩
      rw [← hschema, ← hname] at hnew
      cases hnew.symm.trans haim

end Rename

theorem Sound.renameTable (hsound : catalog.Sound) {source target : String}
    (hrename : catalog.renameTable schema source target = .ok result) : result.Sound := by
  obtain rfl | ⟨table, htable, hnew, hresult⟩ := renameTable_cases hrename
  · exact hsound
  obtain ⟨rfl, rfl⟩ := hsound.filed htable
  have htables := table?_after_rename htable target
  rw [← hresult] at htables
  refine ⟨hsound.toLabelled.of_outline (by rw [hresult]; rfl) (by simp [hresult]), ?_, ?_, ?_⟩
  · intro query other found hquery
    obtain ⟨before, old, hold, rfl⟩ := exists_table?_of_rename htables hsound.filed htable hquery
    exact ⟨(hsound.filed hold).1, rfl⟩
  · intro query other found hquery
    obtain ⟨before, old, hold, rfl⟩ := exists_table?_of_rename htables hsound.filed htable hquery
    have hrenamed : { old with name := other }.WellFormed :=
      (hsound.wellFormed hold).of_keys rfl rfl (List.Sublist.refl _) fun key hkey =>
        ⟨key, hkey, rfl⟩
    exact hrenamed.retargetTable table.schema table.name target
  · -- each key of the result is an old one, led to the new name if it led to the old one
    intro query other found hquery key hkey
    obtain ⟨before, old, hold, rfl⟩ := exists_table?_of_rename htables hsound.filed htable hquery
    obtain ⟨oldKey, holdKey, rfl⟩ := List.mem_map.mp hkey
    have hcolumn := hasColumn_of_rename htables htable hnew (hsound.resolved hold oldKey holdKey)
    dsimp only
    split
    · rename_i hpoints
      rwa [if_pos hpoints] at hcolumn
    · rename_i hpoints
      rwa [if_neg hpoints] at hcolumn

end Catalog

/-! ## Columns that move -/

/-- Where a column of the altered table is found after the alteration. -/
def Alteration.columnAfter : Alteration → String → Option String
  | dropColumn dropped, column => if column = dropped then none else some column
  | renameColumn source target, column => if column = source then some target else some column
  | _, column => some column

/-- The second key is the first one after an alteration of the table `schema.name`: it leads to the
same table, and if that is the altered one, to where its column is now. -/
structure ForeignKey.MovedBy (alteration : Alteration) (ownerSchema schema name : String)
    (key moved : ForeignKey) : Prop where
  referencedSchema : moved.referencedSchema = key.referencedSchema
  referencedTable : moved.referencedTable = key.referencedTable
  inside : key.pointsAt ownerSchema schema name = true →
    alteration.columnAfter key.referencedColumn = some moved.referencedColumn
  outside : key.pointsAt ownerSchema schema name = false →
    moved.referencedColumn = key.referencedColumn

section Moving

variable {table edited : Table} {alteration : Alteration} {schema name : String}

/-- The columns that an edit does not drop are there under their new names. -/
theorem Table.Edited.hasColumn_columnAfter (hedited : table.Edited alteration edited)
    (hwell : table.WellFormed) {column moved : String} (hcolumn : table.hasColumn column = true)
    (hmoved : alteration.columnAfter column = some moved) : edited.hasColumn moved = true := by
  have hnodup := hwell.columns_nodup
  -- by what the edit can do; only a dropped or renamed column is not found where it was
  cases hedited with
  | @addColumn added hfresh =>
      cases hmoved
      rw [Table.hasColumn_iff, List.map_append]
      exact List.mem_append_left _ (Table.hasColumn_iff.mp hcolumn)
  | @dropColumn dropped hdropped =>
      rw [Alteration.columnAfter] at hmoved
      split at hmoved
      · cases hmoved
      · rename_i hne
        cases hmoved
        exact (Table.hasColumn_withoutColumn hnodup).mpr ⟨hcolumn, hne⟩
  | @modifyColumn changed hchanged =>
      cases hmoved
      rw [Table.hasColumn_iff, map_changeFirst_self fun _ => rfl]
      exact Table.hasColumn_iff.mp hcolumn
  | @keepColumn kept hkept =>
      rw [Alteration.columnAfter] at hmoved
      split at hmoved
      · rename_i hsame
        cases hmoved
        exact hsame ▸ hcolumn
      · cases hmoved
        exact hcolumn
  | @renameColumn source target hsource hne hfresh =>
      rw [Table.hasColumn_withColumnRenamed hnodup hsource]
      rw [Alteration.columnAfter] at hmoved
      split at hmoved
      · cases hmoved
        exact Or.inl rfl
      · rename_i hother
        cases hmoved
        exact Or.inr ⟨hcolumn, hother⟩
  | _ =>
      cases hmoved
      exact hcolumn

/-- A key stays as it is when the column that it leads to stays where it is. -/
theorem ForeignKey.movedBy_self {ownerSchema : String} {key : ForeignKey}
    (hstays : key.pointsAt ownerSchema schema name = true →
      alteration.columnAfter key.referencedColumn = some key.referencedColumn) :
    key.MovedBy alteration ownerSchema schema name key :=
  ⟨rfl, rfl, hstays, fun _ => rfl⟩

/-- The keys of an edited table are moved keys of the table, apart from a new one. -/
theorem Table.Edited.movedBy (hedited : table.Edited alteration edited) {key : ForeignKey}
    (hkey : key ∈ edited.foreignKeys) :
    (∃ old ∈ table.foreignKeys, old.MovedBy alteration table.schema table.schema table.name key) ∨
      alteration = .addForeignKey key := by
  -- by what the edit can do; where the columns stay, so do the keys
  cases hedited with
  | @dropColumn dropped hdropped =>
      -- a key that is left does not lead to the dropped column, so its column stays
      obtain ⟨hold, -, hnot⟩ := Table.mem_foreignKeys_withoutColumn.mp hkey
      refine Or.inl ⟨key, hold, ForeignKey.movedBy_self fun hpoints => ?_⟩
      rw [Alteration.columnAfter, if_neg fun hcolumn => hnot ⟨hpoints, hcolumn⟩]
  | @keepColumn kept hkept =>
      refine Or.inl ⟨key, hkey, ForeignKey.movedBy_self fun _ => ?_⟩
      rw [Alteration.columnAfter]
      split
      · rename_i hsame
        rw [hsame]
      · rfl
  | @renameColumn source target hsource hne hfresh =>
      obtain ⟨old, hold, rfl⟩ := List.mem_map.mp hkey
      refine Or.inl ⟨old, hold, ?_⟩
      rw [Table.renameColumnInKey_eq]
      refine ⟨rfl, rfl, fun hpoints => ?_, fun hnot => ?_⟩
      · rw [Alteration.columnAfter]
        dsimp only
        simp only [hpoints, true_and]
        split <;> rfl
      · simp [hnot]
  | @addForeignKey added hfresh hcolumn =>
      rcases List.mem_append.mp hkey with hold | hadded
      · exact Or.inl ⟨key, hold, ForeignKey.movedBy_self fun _ => rfl⟩
      · rw [List.mem_singleton.mp hadded]
        exact Or.inr rfl
  | dropForeignKey hdropped =>
      exact Or.inl ⟨key, List.mem_of_mem_eraseP hkey, ForeignKey.movedBy_self fun _ => rfl⟩
  | renameForeignKey hrenamed hfresh =>
      rcases mem_changeFirst hkey with hold | ⟨old, hold, -, rfl⟩
      · exact Or.inl ⟨key, hold, ForeignKey.movedBy_self fun _ => rfl⟩
      · exact Or.inl ⟨old, hold, rfl, rfl, fun _ => rfl, fun _ => rfl⟩
  | _ => exact Or.inl ⟨key, hkey, ForeignKey.movedBy_self fun _ => rfl⟩

/-- The keys of another table that has followed an alteration are moved keys of that table. -/
theorem Alteration.followIn_movedBy (hother : ¬ (table.schema = schema ∧ table.name = name))
    {key : ForeignKey} (hkey : key ∈ (followIn schema name table alteration).foreignKeys) :
    ∃ old ∈ table.foreignKeys, old.MovedBy alteration table.schema schema name key := by
  cases alteration with
  | dropColumn dropped =>
      obtain ⟨hold, hnot⟩ := Table.mem_foreignKeys_dropReferences.mp hkey
      refine ⟨key, hold, ForeignKey.movedBy_self fun hpoints => ?_⟩
      rw [columnAfter, if_neg fun hcolumn => hnot ⟨hpoints, hcolumn⟩]
  | renameColumn source target =>
      rw [followIn, if_neg (by simpa using hother)] at hkey
      obtain ⟨old, hold, rfl⟩ := List.mem_map.mp hkey
      refine ⟨old, hold, ?_, ?_, fun hpoints => ?_, fun hnot => ?_⟩
      · split <;> rfl
      · split <;> rfl
      · rw [columnAfter]
        by_cases hsource : old.referencedColumn = source <;> simp [hpoints, hsource]
      · simp [hnot]
  | _ => exact ⟨key, hkey, ForeignKey.movedBy_self fun _ => rfl⟩

theorem Table.WellFormed.followIn (hwell : table.WellFormed) (schema name : String)
    (alteration : Alteration) : (alteration.followIn schema name table).WellFormed := by
  cases alteration with
  | dropColumn dropped => exact hwell.dropReferences schema name (some dropped)
  | renameColumn source target =>
      rw [Alteration.followIn]
      split
      · exact hwell
      · exact hwell.retargetColumn schema name source target
  | _ => exact hwell

theorem Table.WellFormed.followAll (hwell : table.WellFormed) (schema name : String)
    (alterations : List Alteration) :
    (Alteration.followAll schema name alterations table).WellFormed := by
  induction alterations generalizing table with
  | nil => exact hwell
  | cons alteration rest ih => exact ih (hwell.followIn schema name alteration)

end Moving

namespace Catalog

variable {catalog result : Catalog} {schema name : String} {table : Table}

/-! ## Altering tables -/

/-- Only tables that exist are altered. -/
theorem exists_table?_of_alterTableBatch {alterations : List Alteration}
    (halter : catalog.alterTableBatch schema name alterations = .ok result) :
    ∃ table, catalog.table? schema name = some table := by
  rw [alterTableBatch, except_bind_eq_ok] at halter
  obtain ⟨table, htable, -⟩ := halter
  exact ⟨table, table_eq_ok_iff.mp htable⟩

/-- Where a key led to a column, the moved key leads to one in the altered catalog. -/
theorem hasColumn_of_movedBy {altered : Table} {alteration : Alteration} {ownerSchema : String}
    {key moved : ForeignKey} (hwell : table.WellFormed)
    (htable : catalog.table? table.schema table.name = some table)
    (hedited : table.Edited alteration altered)
    (htables : ∀ query other, result.table? query other =
      if query = table.schema ∧ other = table.name then some altered
      else (catalog.table? query other).map
        (Alteration.followIn table.schema table.name · alteration))
    (hmoved : key.MovedBy alteration ownerSchema table.schema table.name moved)
    (hcolumn : catalog.HasColumn (key.targetSchema ownerSchema) key.referencedTable
      key.referencedColumn) :
    result.HasColumn (moved.targetSchema ownerSchema) moved.referencedTable
      moved.referencedColumn := by
  obtain ⟨aim, haim, hcolumn⟩ := hcolumn
  rw [ForeignKey.targetSchema, hmoved.referencedSchema, ← ForeignKey.targetSchema,
    hmoved.referencedTable]
  -- by whether the key leads to the altered table, whose columns move, or to another, which loses
  -- keys at most
  cases hpoints : key.pointsAt ownerSchema table.schema table.name with
  | true =>
      obtain ⟨haimSchema, haimName⟩ := ForeignKey.pointsAt_iff.mp hpoints
      rw [haimSchema, haimName, htable] at haim
      cases haim
      exact ⟨altered, by rw [htables, if_pos ⟨haimSchema, haimName⟩],
        hedited.hasColumn_columnAfter hwell hcolumn (hmoved.inside hpoints)⟩
  | false =>
      rw [hmoved.outside hpoints]
      refine ⟨alteration.followIn table.schema table.name aim, ?_, ?_⟩
      · rw [htables, if_neg fun hboth => ?_, haim, Option.map_some]
        rw [ForeignKey.pointsAt_iff.mpr hboth] at hpoints
        cases hpoints
      · obtain ⟨keys, hkeys⟩ :=
          Alteration.exists_followIn_eq table.schema table.name aim alteration
        rw [hkeys]
        exact hcolumn

theorem Sound.alterTable (hsound : catalog.Sound) {alteration : Alteration}
    (halter : catalog.alterTable schema name alteration = .ok result) : result.Sound := by
  obtain ⟨table, htable⟩ := exists_table?_of_alterTableBatch halter
  obtain ⟨rfl, rfl⟩ := hsound.filed htable
  rw [alterTable_eq htable, except_map_eq_ok] at halter
  obtain ⟨altered, halter, hresult⟩ := halter
  obtain ⟨hedited, hcheck⟩ := Alteration.alter_eq_ok_iff.mp halter
  have hwell := hsound.wellFormed htable
  have htables := table?_after_alter hsound.filed htable hedited
  rw [hresult] at htables
  -- a key that resolved still does after it has moved
  have hkeep : ∀ {ownerSchema : String} {key moved : ForeignKey},
      key.MovedBy alteration ownerSchema table.schema table.name moved →
      catalog.HasColumn (key.targetSchema ownerSchema) key.referencedTable key.referencedColumn →
      result.HasColumn (moved.targetSchema ownerSchema) moved.referencedTable
        moved.referencedColumn :=
    hasColumn_of_movedBy hwell htable hedited htables
  refine ⟨hsound.toLabelled.of_outline (by rw [← hresult]; rfl) (by simp [← hresult]), ?_, ?_, ?_⟩
  · rw [← hresult]
    exact (tablesFiled_putTable_edited hsound.filed htable hedited).followIn table.schema
      table.name alteration
  · intro query other found hfound
    rw [htables] at hfound
    split at hfound
    · cases hfound
      exact hedited.wellFormed hwell
    · obtain ⟨old, hold, rfl⟩ := Option.map_eq_some_iff.mp hfound
      exact (hsound.wellFormed hold).followIn table.schema table.name alteration
  · -- each key of the result is a moved key, of the altered table or of one that followed
    intro query other found hfound key hkey
    rw [htables] at hfound
    split at hfound
    · cases hfound
      rw [hedited.schema_eq]
      rcases hedited.movedBy hkey with ⟨old, hold, hmoved⟩ | rfl
      · exact hkeep hmoved (hsound.resolved htable old hold)
      · -- A new key was checked against the table as it was, and adding it moves no column.
        refine hkeep (ForeignKey.movedBy_self fun _ => rfl) ?_
        obtain ⟨-, htarget⟩ := checkReference_eq_ok_iff.mp (hcheck key rfl)
        split at htarget
        · rename_i hself
          exact ⟨table, by rw [hself.1, hself.2, htable], htarget⟩
        · exact htarget
    · rename_i hother
      obtain ⟨old, hold, rfl⟩ := Option.map_eq_some_iff.mp hfound
      have hfiled := hsound.filed hold
      obtain ⟨oldKey, holdKey, hmoved⟩ :=
        Alteration.followIn_movedBy (by rwa [hfiled.1, hfiled.2]) hkey
      obtain ⟨keys, hkeys⟩ := Alteration.exists_followIn_eq table.schema table.name old alteration
      rw [hkeys]
      exact hkeep hmoved (hsound.resolved hold oldKey holdKey)

theorem Sound.alterTableEach (hsound : catalog.Sound) {alterations : List Alteration}
    (halter : catalog.alterTableEach schema name alterations = .ok result) : result.Sound :=
  foldlM_ok_induction (P := Sound) (fun _ _ _ _ hstart hnext => hstart.alterTable hnext) hsound
    halter

/-- A table may lose foreign keys. -/
theorem Sound.putTable_fewerKeys (hsound : catalog.Sound)
    (htable : catalog.table? schema name = some table) {fewer : Table}
    (hschema : fewer.schema = table.schema) (hname : fewer.name = table.name)
    (hcolumns : fewer.columns = table.columns) (hwell : fewer.WellFormed)
    (hkeys : ∀ key ∈ fewer.foreignKeys, key ∈ table.foreignKeys) :
    (catalog.putTable schema fewer).Sound := by
  obtain ⟨rfl, rfl⟩ := hsound.filed htable
  have hhas := hasSchema_of_table? htable
  have htables := table?_putTable hhas fewer
  -- the columns stay, so what was found is still found
  have hkeep : ∀ {query other column}, catalog.HasColumn query other column →
      (catalog.putTable table.schema fewer).HasColumn query other column := by
    intro query other column
    refine (hasColumn_congr ?_).mp
    rw [htables, hname]
    split
    · rename_i hown
      rw [hown.1, hown.2, htable, Option.map_some, Option.map_some, hcolumns]
    · rfl
  refine ⟨hsound.toLabelled.of_outline (defaultSchema_putTable catalog table.schema fewer)
    (outline?_putTable catalog table.schema fewer), hsound.filed.putTable hhas hschema, ?_, ?_⟩
  · intro query other found hfound
    rw [htables] at hfound
    split at hfound
    · cases hfound
      exact hwell
    · exact hsound.wellFormed hfound
  · intro query other found hfound key hkey
    rw [htables] at hfound
    split at hfound
    · cases hfound
      rw [hschema]
      exact hkeep (hsound.resolved htable key (hkeys key hkey))
    · exact hkeep (hsound.resolved hfound key hkey)

theorem Sound.alterTableBatch (hsound : catalog.Sound) {alterations : List Alteration}
    (halter : catalog.alterTableBatch schema name alterations = .ok result) : result.Sound := by
  obtain ⟨table, htable⟩ := exists_table?_of_alterTableBatch halter
  obtain ⟨rfl, rfl⟩ := hsound.filed htable
  rw [alterTableBatch_eq_putTable htable, except_map_eq_ok] at halter
  obtain ⟨altered, hcopy, rfl⟩ := halter
  -- One by one the alterations leave a sound catalog; the batch differs in the keys of one table.
  have heach := alterTableEach_eq hsound.filed htable alterations
  rw [hcopy, except_map_ok] at heach
  have hsoundEach := hsound.alterTableEach heach
  obtain ⟨hschema, hname⟩ := foldlM_alter_keeps hcopy
  have hhas : (catalog.mapTables (Alteration.followAll table.schema table.name
      alterations)).hasSchema table.schema = true := by
    rw [hasSchema_mapTables]
    exact hasSchema_of_table? htable
  have haltered : ((catalog.mapTables (Alteration.followAll table.schema table.name
      alterations)).putTable table.schema altered).table? table.schema altered.name =
        some altered := by
    rw [table?_putTable hhas, if_pos ⟨rfl, rfl⟩]
  rw [← putTable_putTable hhas Alteration.name_followAll]
  rw [← hschema, ← hname] at hsoundEach haltered ⊢
  refine hsoundEach.putTable_fewerKeys haltered Alteration.schema_followAll
    Alteration.name_followAll Alteration.columns_followAll ?_ fun key hkey => ?_
  · exact (hsoundEach.wellFormed haltered).followAll _ _ alterations
  · exact (Alteration.mem_foreignKeys_followAll_own.mp hkey).1

end Catalog

end Schemata
