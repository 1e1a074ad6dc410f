import Schemata.Proofs.PrimaryKeys

/-!
# Renaming and renaming back

A renaming changes a name and everything that refers to it.  Renaming back finds again what was
changed because nothing else had the new name: no table or column had it, and a foreign key never
leads to what is not there, so no key had it either.

* `Sound.renameTable_back`: a renamed table can be renamed back, and the catalog is the old one.
* `Sound.renameColumn_back`: so can a renamed column, if no index of the table lists the new name.

Indexes are the one place where a name can stand that is no column.  Texts make none, so a catalog
that a replay leaves has none (`sound_afterReplay`), and there all renamings can be taken back
(`renamings_back_afterReplay`).
-/

namespace Schemata

/-! ## Names that are put back -/

section Back

variable {α : Type} {source target : String}

/-- A new name that is replaced by the old one again. -/
theorem replaced_back {name : String} (hfree : name ≠ target) :
    (if (if name = source then target else name) = target then source
      else if name = source then target else name) = name := by
  by_cases hsource : name = source
  · rw [if_pos hsource, if_pos rfl, hsource]
  · rw [if_neg hsource, if_neg hfree]

theorem map_back {items : List α} {change back : α → α}
    (hback : ∀ item ∈ items, back (change item) = item) : (items.map change).map back = items := by
  rw [List.map_map]
  exact (List.map_congr_left hback).trans (List.map_id items)

/-- The first item of a name is found again by its new name. -/
theorem changeFirst_back {label : α → String} {put : String → α → α}
    (hlabel : ∀ name item, label (put name item) = name)
    (hput : ∀ name item, put (label item) (put name item) = item) {items : List α}
    (hfree : target ∉ items.map label) :
    changeFirst (label · == target) (put source)
      (changeFirst (label · == source) (put target) items) = items := by
  induction items with
  | nil => rfl
  | cons item rest ih =>
      obtain ⟨hitem, hrest⟩ := not_or.mp (mt List.mem_cons.mpr hfree)
      rw [changeFirst]
      by_cases hsource : label item = source
      · rw [if_pos (beq_iff_eq.mpr hsource), changeFirst, if_pos (beq_iff_eq.mpr (hlabel _ _)),
          ← hsource, hput]
      · have hneg : ¬(label item == target) = true := by simpa using Ne.symm hitem
        rw [if_neg (by simpa using hsource), changeFirst, if_neg hneg, ih hrest]

end Back

/-! ## Single tables -/

namespace Table

variable {table : Table} {schema name source target : String}

/-- References to a table move to a name that had none, and back. -/
theorem retargetTable_back
    (hfree : ∀ key ∈ table.foreignKeys, ¬key.pointsAt table.schema schema target = true) :
    (table.retargetTable schema source target).retargetTable schema target source = table := by
  refine congrArg (fun keys => { table with foreignKeys := keys }) (map_back fun key hkey => ?_)
  by_cases hpoints : key.pointsAt table.schema schema source = true
  · obtain ⟨hschema, hsource⟩ := ForeignKey.pointsAt_iff.mp hpoints
    have hmoved : { key with referencedTable := target }.pointsAt table.schema schema target =
        true := ForeignKey.pointsAt_iff.mpr ⟨hschema, rfl⟩
    rw [if_pos hpoints]
    refine (if_pos hmoved).trans ?_
    rw [← hsource]
  · rw [if_neg hpoints]
    exact if_neg (hfree key hkey)

/-- No key of the table leads to a column of the given name in the given table. -/
def Avoids (table : Table) (schema name column : String) : Prop :=
  ∀ key ∈ table.foreignKeys, key.pointsAt table.schema schema name = true →
    key.referencedColumn ≠ column

/-- References to a column move to one that had none, and back. -/
theorem retargetColumn_back (hfree : table.Avoids schema name target) :
    (table.retargetColumn schema name source target).retargetColumn schema name target source =
      table := by
  refine congrArg (fun keys => { table with foreignKeys := keys }) (map_back fun key hkey => ?_)
  by_cases hpoints :
      (key.pointsAt table.schema schema name && key.referencedColumn == source) = true
  · obtain ⟨htable, hsource⟩ := (Bool.and_eq_true _ _).mp hpoints
    have hmoved : (key.pointsAt table.schema schema name && target == target) = true := by
      rw [htable, beq_self_eq_true]
      rfl
    rw [if_pos hpoints]
    refine (if_pos hmoved).trans ?_
    rw [← eq_of_beq hsource]
  · have hother : ¬(key.pointsAt table.schema schema name && key.referencedColumn == target) =
        true := by
      rw [Bool.and_eq_true, beq_iff_eq]
      exact fun hboth => hfree key hkey hboth.1 hboth.2
    rw [if_neg hpoints]
    exact if_neg hother

/-- References stay where they are when a column keeps its name. -/
theorem retargetColumn_self (table : Table) (schema name column : String) :
    table.retargetColumn schema name column column = table := by
  refine congrArg (fun keys => { table with foreignKeys := keys }) ?_
  refine (List.map_congr_left fun key _ => ?_).trans (List.map_id table.foreignKeys)
  split
  · rename_i hpoints
    rw [← eq_of_beq ((Bool.and_eq_true _ _).mp hpoints).2]
    rfl
  · rfl

/-- The columns of a key are renamed back. -/
theorem renameColumnInKey_back {key : ForeignKey} (hcolumn : key.column ≠ target)
    (hkey : key.pointsAt table.schema table.schema table.name = true →
      key.referencedColumn ≠ target) :
    table.renameColumnInKey target source (table.renameColumnInKey source target key) = key := by
  have hreferenced : ∀ points : Bool, (points = true → key.referencedColumn ≠ target) →
      (if points = true ∧ (if points = true ∧ key.referencedColumn = source then target
          else key.referencedColumn) = target then source
        else if points = true ∧ key.referencedColumn = source then target
        else key.referencedColumn) = key.referencedColumn := by
    intro points hpoints
    cases points with
    | false => simp
    | true => simpa using replaced_back (hpoints rfl)
  rw [renameColumnInKey_eq, renameColumnInKey_eq]
  dsimp only
  rw [replaced_back hcolumn]
  exact congrArg (fun column => { key with referencedColumn := column }) (hreferenced _ hkey)

/-- A column that was renamed is renamed back, also in the keys and indexes of the table. -/
theorem withColumnRenamed_back (hwell : table.WellFormed) (hfree : table.hasColumn target = false)
    (hkeys : table.Avoids table.schema table.name target)
    (hindexes : ∀ index ∈ table.indexes, target ∉ index.columns) :
    (table.withColumnRenamed source target).withColumnRenamed target source = table := by
  -- nothing in the table has the new name before, so that it belongs to what was renamed
  have hcolumns : changeFirst (·.name == target) ({ · with name := source })
      (changeFirst (·.name == source) ({ · with name := target }) table.columns) =
        table.columns :=
    @changeFirst_back Column source target Column.name
      (fun name column => { column with name := name }) (fun _ _ => rfl) (fun _ _ => rfl) _
      (hasColumn_eq_false_iff.mp hfree)
  have hkeysBack : (table.foreignKeys.map (table.renameColumnInKey source target)).map
      (table.renameColumnInKey target source) = table.foreignKeys := by
    refine map_back fun key hkey => renameColumnInKey_back ?_ (hkeys key hkey)
    rintro rfl
    rw [hwell.hasColumn_key key hkey] at hfree
    cases hfree
  have hindexesBack : (table.indexes.map fun index => { index with
      columns := index.columns.map fun column => if column == source then target else column }).map
        (fun index => { index with
          columns := index.columns.map fun column =>
            if column == target then source else column }) =
      table.indexes := by
    refine map_back fun index hindex => ?_
    refine congrArg (fun columns => { index with columns := columns })
      (map_back fun column hmem => ?_)
    have hne : column ≠ target := fun hsame => hindexes index hindex (hsame ▸ hmem)
    simpa only [beq_iff_eq] using replaced_back hne
  have hparts : ∀ columns keys indexes, columns = table.columns → keys = table.foreignKeys →
      indexes = table.indexes →
        { table with columns := columns, foreignKeys := keys, indexes := indexes } = table := by
    rintro columns keys indexes rfl rfl rfl
    rfl
  exact hparts _ _ _ hcolumns hkeysBack hindexesBack

/-- The edit that takes a renaming back. -/
theorem edited_withColumnRenamed (hwell : table.WellFormed)
    (hcolumn : table.hasColumn source = true)
    (hne : source ≠ target) (hfree : table.hasColumn target = false)
    (hkeys : table.Avoids table.schema table.name target)
    (hindexes : ∀ index ∈ table.indexes, target ∉ index.columns) :
    (table.withColumnRenamed source target).Edited (.renameColumn target source) table := by
  have hnames : ∀ {query}, (table.withColumnRenamed source target).hasColumn query = true ↔
      query = target ∨ table.hasColumn query = true ∧ query ≠ source :=
    hasColumn_withColumnRenamed hwell.columns_nodup hcolumn
  have hgone : (table.withColumnRenamed source target).hasColumn source = false := by
    rw [← Bool.not_eq_true, hnames]
    rintro (hsame | ⟨-, hsame⟩)
    · exact hne hsame
    · exact hsame rfl
  have hedited := Edited.renameColumn (hnames.mpr (Or.inl rfl)) hne.symm hgone
  rwa [withColumnRenamed_back hwell hfree hkeys hindexes] at hedited

end Table

namespace Alteration

variable {table : Table} {schema name source target : String}

theorem followIn_renameColumn_self (schema name column : String) (table : Table) :
    followIn schema name table (.renameColumn column column) = table := by
  rw [followIn]
  split
  · rfl
  · exact table.retargetColumn_self schema name column

/-- A table that follows a renaming and the renaming back is the old one. -/
theorem followIn_renameColumn_back (hfree : table.Avoids schema name target) :
    followIn schema name (followIn schema name table (.renameColumn source target))
      (.renameColumn target source) = table := by
  by_cases hown : (table.schema == schema && table.name == name) = true
  · rw [followIn, followIn, if_pos hown, if_pos hown]
  · rw [followIn, followIn, if_neg hown]
    exact (if_neg hown).trans (Table.retargetColumn_back hfree)

end Alteration

/-! ## Sound catalogs -/

namespace Catalog

variable {catalog renamed : Catalog} {schema name source target : String} {table : Table}

/-- No key leads to a table that is not there. -/
theorem Sound.not_pointsAt (hsound : catalog.Sound) (hnone : catalog.table? schema target = none)
    {query other : String} (htable : catalog.table? query other = some table) :
    ∀ key ∈ table.foreignKeys, ¬key.pointsAt table.schema schema target = true := by
  intro key hkey hpoints
  obtain ⟨hschema, hname⟩ := ForeignKey.pointsAt_iff.mp hpoints
  obtain ⟨aim, haim, -⟩ := hsound.resolved htable key hkey
  rw [hschema, hname, hnone] at haim
  cases haim

/-- No key leads to a column that is not there. -/
theorem Sound.avoids (hsound : catalog.Sound) (htable : catalog.table? schema name = some table)
    {column : String} (hfree : table.hasColumn column = false) {query other : String}
    {owner : Table} (howner : catalog.table? query other = some owner) :
    owner.Avoids schema name column := by
  rintro key hkey hpoints rfl
  obtain ⟨hschema, hname⟩ := ForeignKey.pointsAt_iff.mp hpoints
  have hcolumn := hsound.resolved howner key hkey
  rw [hschema, hname, hasColumn_iff_of_table? htable, hfree] at hcolumn
  cases hcolumn

/-- A renamed table can be renamed back, and the catalog is the old one. -/
theorem Sound.renameTable_back (hsound : catalog.Sound)
    (hrename : catalog.renameTable schema source target = .ok renamed) :
    renamed.renameTable schema target source = .ok catalog := by
  obtain ⟨table, htable, ⟨rfl, rfl⟩ | ⟨hne, hnone, hrenamed⟩⟩ := renameTable_eq_ok_iff.mp hrename
  · exact hrename
  obtain ⟨rfl, rfl⟩ := hsound.filed htable
  have htables := table?_after_rename htable target
  rw [← hrenamed] at htables
  -- the renamed table is found under the new name, and nothing under the old one
  have hmoved : renamed.table? table.schema target =
      some ({ table with name := target }.retargetTable table.schema table.name target) := by
    rw [htables, if_pos ⟨rfl, rfl⟩, Option.map_some]
  have hleft : renamed.table? table.schema table.name = none := by
    rw [htables, if_neg (fun hsame => hne hsame.2), if_pos ⟨rfl, rfl⟩, Option.map_none]
  refine renameTable_eq_ok_iff.mpr ⟨_, hmoved, Or.inr ⟨hne.symm, hleft, ?_⟩⟩
  refine ext_table? ?_ (fun query => ?_) fun query other => ?_
  · rw [hrenamed]
    rfl
  · simp [hrenamed]
  · -- no key led to the new name before, so every key that leads there now was moved there
    have hback : ∀ {query other old}, catalog.table? query other = some old →
        (old.retargetTable table.schema table.name target).retargetTable table.schema target
          table.name = old :=
      fun hold => Table.retargetTable_back (hsound.not_pointsAt hnone hold)
    rw [table?_after_rename hmoved, htables]
    by_cases hsource : query = table.schema ∧ other = table.name
    · rw [if_pos hsource, hsource.1, hsource.2, htable]
      exact congrArg some (hback htable).symm
    by_cases htarget : query = table.schema ∧ other = target
    · rw [if_neg hsource, if_pos htarget, htarget.1, htarget.2, hnone]
      rfl
    · rw [if_neg hsource, if_neg htarget, if_neg htarget, if_neg hsource]
      cases hold : catalog.table? query other with
      | none => rfl
      | some old => exact congrArg some (hback hold).symm

/-- A renamed column can be renamed back, and the catalog is the old one. -/
theorem Sound.renameColumn_back (hsound : catalog.Sound)
    (hindexes : ∀ table, catalog.table? schema name = some table →
      ∀ index ∈ table.indexes, target ∉ index.columns)
    (hrename : catalog.alterTable schema name (.renameColumn source target) = .ok renamed) :
    renamed.alterTable schema name (.renameColumn target source) = .ok catalog := by
  obtain ⟨table, htable⟩ := exists_table?_of_alterTableBatch hrename
  obtain ⟨altered, halter, hrenamed⟩ :=
    except_map_eq_ok.mp ((alterTable_eq htable _).symm.trans hrename)
  obtain ⟨hedited, -⟩ := Alteration.alter_eq_ok_iff.mp halter
  have htables := table?_after_alter hsound.filed htable hedited
  rw [hrenamed] at htables
  -- The altered table is edited back, and every other table has followed there and back.
  obtain ⟨hedited, hfollowed⟩ : altered.Edited (.renameColumn target source) table ∧
      ∀ query other old, catalog.table? query other = some old →
        Alteration.followIn schema name
          (Alteration.followIn schema name old (.renameColumn source target))
            (.renameColumn target source) = old := by
    cases hedited with
    | keepColumn hcolumn =>
        refine ⟨.keepColumn hcolumn, fun query other old _ => ?_⟩
        rw [Alteration.followIn_renameColumn_self, Alteration.followIn_renameColumn_self]
    | renameColumn hcolumn hne hfree =>
        obtain ⟨rfl, rfl⟩ := hsound.filed htable
        refine ⟨Table.edited_withColumnRenamed (hsound.wellFormed htable) hcolumn hne hfree
          (hsound.avoids htable hfree htable) (hindexes table htable), ?_⟩
        exact fun query other old hold =>
          Alteration.followIn_renameColumn_back (hsound.avoids htable hfree hold)
  have haltered : renamed.table? schema name = some altered := by
    rw [htables, if_pos ⟨rfl, rfl⟩]
  have hback : Alteration.alter renamed altered (.renameColumn target source) = .ok table :=
    Alteration.alter_eq_ok_iff.mpr ⟨hedited, fun _ hkey => Alteration.noConfusion hkey⟩
  have hfiled : renamed.TablesFiled := (hsound.alterTable hrename).filed
  rw [alterTable_eq haltered, hback, except_map_ok]
  congr 1
  refine ext_table? ?_ (fun query => ?_) fun query other => ?_
  · rw [← hrenamed]
    rfl
  · simp [← hrenamed]
  · rw [table?_after_alter hfiled haltered hedited, htables]
    by_cases hown : query = schema ∧ other = name
    · rw [if_pos hown, hown.1, hown.2, htable]
    · rw [if_neg hown, if_neg hown]
      cases hold : catalog.table? query other with
      | none => rfl
      | some old => exact congrArg some (hfollowed query other old hold)

end Catalog

/-! ## Texts make no indexes -/

section IndexFree

variable {origin : Origin} {table edited : Table} {alteration : Alteration}
  {alterations : List Alteration} {before after : Catalog}

theorem Table.Edited.indexes_eq_nil (hedited : table.Edited alteration edited)
    (hother : ∀ index, alteration ≠ .addIndex index) (hnone : table.indexes = []) :
    edited.indexes = [] := by
  cases hedited with
  | dropColumn hcolumn => exact congrArg (List.filter _) hnone
  | renameColumn hcolumn hne hfree => exact congrArg (List.map _) hnone
  | @addIndex index hfree => exact absurd rfl (hother index)
  | dropIndex hindex => exact congrArg (List.eraseP _) hnone
  | _ => exact hnone

/-- A column is put back as a column. -/
theorem Alteration.ne_addIndex_of_putBack {column : Column}
    (hput : putBack origin table column = .ok alteration) (index : Index) :
    alteration ≠ .addIndex index := by
  simp only [putBack, except_bind_eq_ok, except_pure_eq_ok] at hput
  obtain ⟨⟨⟩, -, rfl⟩ := hput
  exact Alteration.noConfusion

theorem TableConstraint.addIndex_not_mem {constraint : TableConstraint}
    (halterations : constraint.alterations origin table = .ok alterations) (index : Index) :
    .addIndex index ∉ alterations := by
  unfold TableConstraint.alterations at halterations
  split at halterations
  · intro hmem
    obtain ⟨name, -, hput⟩ := mem_of_mapM_eq_ok halterations hmem
    simp only [except_bind_eq_ok] at hput
    obtain ⟨column, -, hput⟩ := hput
    exact Alteration.ne_addIndex_of_putBack hput index rfl
  · cases halterations
    simp
  · simp only [except_bind_eq_ok, except_pure_eq_ok] at halterations
    obtain ⟨column, -, rfl⟩ := halterations
    simp
  · cases halterations
    simp

/-- No operation on a table adds an index. -/
theorem Operation.addIndex_not_mem {operation : Operation}
    (halterations : operation.alterations origin table = .ok alterations) (index : Index) :
    .addIndex index ∉ alterations := by
  -- by the operation: each has its list of alterations, and none of them is about an index
  cases operation with
  | addColumn definition ifNotExists =>
      simp only [Operation.alterations] at halterations
      split at halterations
      · cases halterations
        simp
      · cases halterations
        simp
  | dropColumn name ifExists =>
      simp only [Operation.alterations] at halterations
      split at halterations
      · cases halterations
        simp
      · cases halterations
        simp
  | alterColumn name change =>
      simp only [Operation.alterations, except_bind_eq_ok, except_pure_eq_ok] at halterations
      obtain ⟨column, -, changed, -, alteration, hput, rfl⟩ := halterations
      intro hmem
      exact Alteration.ne_addIndex_of_putBack hput index (List.mem_singleton.mp hmem).symm
  | addConstraint constraint => exact constraint.addIndex_not_mem halterations index
  | dropConstraint name ifExists =>
      cases halterations
      unfold Table.constraintRemoval
      split
      · simp
      split
      · simp
      · simp
  | renameConstraint source target =>
      cases halterations
      split
      · simp
      · simp
  | unsupported text => cases halterations
  | _ =>
      cases halterations
      simp

/-- Every step that a text brings about leaves the tables without indexes. -/
theorem Origin.Step.indexes_eq_nil (hstep : origin.Step before after)
    (hnone : before.EveryTable (·.indexes = [])) : after.EveryTable (·.indexes = []) := by
  refine Catalog.Step.everyTable hstep hnone (fun _ _ _ hmoved => hmoved)
    (fun table hdescribes => ?_) fun table alterations altered htable halters hcopy => ?_
  · obtain ⟨text, statement, schema, -, htable⟩ := hdescribes
    refine CreateTable.table_induction (P := fun table => table.indexes = []) rfl ?_ ?_ htable
    · exact fun start column next _ hstart hedited =>
        hedited.indexes_eq_nil (fun _ => Alteration.noConfusion) hstart
    · exact fun start key next hstart hedited =>
        hedited.indexes_eq_nil (fun _ => Alteration.noConfusion) hstart
  · obtain ⟨text, statement, -, halterations⟩ := halters
    refine foldlM_ok_induction (P := fun table => table.indexes = []) ?_ htable hcopy
    intro start alteration next halteration hstart hnext
    obtain ⟨hedited, -⟩ := Alteration.alter_eq_ok_iff.mp hnext
    refine hedited.indexes_eq_nil (fun index hsame => ?_) hstart
    exact Operation.addIndex_not_mem halterations index (hsame ▸ halteration)

end IndexFree

/-! ## Along a replay -/

theorem Settings.eq_new_of_catalog {settings : Settings} {start : Catalog}
    (hstart : settings.catalog = .ok start) : start = .new settings.defaultSchema := by
  simp only [Settings.catalog, except_bind_eq_ok, except_pure_eq_ok] at hstart
  obtain ⟨⟨⟩, -, rfl⟩ := hstart
  rfl

/-- A replay leaves a sound catalog without indexes. -/
theorem sound_afterReplay (family : Family) (defaultSchema : String) (calls : List ReplayCall) :
    (afterReplay family (.new defaultSchema) calls).Sound ∧
      (afterReplay family (.new defaultSchema) calls).EveryTable (·.indexes = []) := by
  refine afterReplay_induction (P := fun catalog => catalog.Sound ∧
    catalog.EveryTable (·.indexes = [])) ?_ ⟨Catalog.sound_new defaultSchema, ?_⟩ calls
  · rintro file before after ⟨hsound, hnone⟩ hstep
    exact ⟨hstep.sound (fun _ => Catalog.wellFormed_of_describes) hsound,
      hstep.indexes_eq_nil hnone⟩
  · intro schema name table htable
    rw [Catalog.table?_new] at htable
    cases htable

/-- In every catalog that a replay leaves, whatever it carried out and with whatever success, each
renaming of a table and each renaming of a column can be taken back by the opposite renaming, and
the catalog is then exactly the old one. -/
theorem renamings_back_afterReplay {settings : Settings} {start catalog : Catalog}
    (hstart : settings.catalog = .ok start) {calls : List ReplayCall}
    (hcatalog : afterReplay settings.family start calls = catalog) :
    (∀ schema source target renamed, catalog.renameTable schema source target = .ok renamed →
      renamed.renameTable schema target source = .ok catalog) ∧
    ∀ schema name source target renamed,
      catalog.alterTable schema name (.renameColumn source target) = .ok renamed →
        renamed.alterTable schema name (.renameColumn target source) = .ok catalog := by
  obtain ⟨hsound, hnone⟩ := sound_afterReplay settings.family settings.defaultSchema calls
  rw [← Settings.eq_new_of_catalog hstart, hcatalog] at hsound hnone
  constructor
  · intro schema source target renamed hrename
    exact hsound.renameTable_back hrename
  · intro schema name source target renamed hrename
    refine hsound.renameColumn_back (fun table htable index hindex => ?_) hrename
    rw [hnone htable] at hindex
    cases hindex

/-- A table with a key to itself and one with a key to the first. -/
def nodesAndEdges : Catalog :=
  afterReplay Settings.standard.family (.new "public")
    [.statement "1.sql" "CREATE TABLE n (id uuid, up uuid REFERENCES n (id))",
      .statement "2.sql" "CREATE TABLE e (n uuid REFERENCES n (id))"]

theorem renamings_back_afterReplay_nodes :
    Settings.standard.catalog = .ok (.new "public") ∧
    (∃ renamed, nodesAndEdges.renameTable "public" "n" "node" = .ok renamed ∧
      renamed ≠ nodesAndEdges ∧
      renamed.renameTable "public" "node" "n" = .ok nodesAndEdges) ∧
    ∃ renamed, nodesAndEdges.alterTable "public" "n" (.renameColumn "id" "key") = .ok renamed ∧
      renamed ≠ nodesAndEdges ∧
      renamed.alterTable "public" "n" (.renameColumn "key" "id") = .ok nodesAndEdges := by
  have hstart : Settings.standard.catalog = .ok (.new "public") := by decide +kernel
  obtain ⟨htables, hcolumns⟩ :=
    renamings_back_afterReplay hstart (rfl : afterReplay _ _ _ = nodesAndEdges)
  -- What the renamings leave, computed in one go.
  obtain ⟨htable, hmoved, hcolumn, hchanged⟩ :
      nodesAndEdges.renameTable "public" "n" "node" =
        .ok (nodesAndEdges.settle (nodesAndEdges.renameTable "public" "n" "node")) ∧
      nodesAndEdges.settle (nodesAndEdges.renameTable "public" "n" "node") ≠ nodesAndEdges ∧
      nodesAndEdges.alterTable "public" "n" (.renameColumn "id" "key") =
        .ok (nodesAndEdges.settle
          (nodesAndEdges.alterTable "public" "n" (.renameColumn "id" "key"))) ∧
      nodesAndEdges.settle (nodesAndEdges.alterTable "public" "n" (.renameColumn "id" "key")) ≠
        nodesAndEdges := by
    decide +kernel
  exact ⟨hstart, ⟨_, htable, hmoved, htables _ _ _ _ htable⟩,
    _, hcolumn, hchanged, hcolumns _ _ _ _ _ hcolumn⟩

end Schemata
