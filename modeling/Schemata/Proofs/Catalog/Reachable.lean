import Schemata.Proofs.Catalog.Integrity
import Schemata.Proofs.Effect

/-!
# Catalogs that can be reached

A catalog starts with its default schema and changes by calls (`Catalog.Call`): operations on
schemas, tables and enum types, and texts that are read and carried out.  A call that is refused
changes nothing, apart from a text, of which the part before the failure stays.

All of this comes down to steps (`Catalog.Step`), one successful operation each: a call is some
steps one after the other (`afterCall_reaches`), and so is a list of calls.  What every step keeps
therefore holds of every catalog that can be reached.  Soundness is one such fact; another kind are
facts about single tables (`EveryTable`), which only the addition and the alteration of a table can
break, for all other steps give tables other names and other foreign keys at most.

* `sound_afterCalls`: whatever the calls, the default schema is there and the catalog is sound.
* `alterTableBatch_eq_iff`: on every table of such a catalog a batch is refused when its alterations
  are refused one by one; otherwise the two leave the same catalog, unless the batch drops a column
  and the table ends up with a key to a column of its own under the dropped name.
-/

namespace Schemata

namespace Catalog

variable {catalog before after : Catalog} {schema name : String}
  {admits : Table → Prop} {alters : Table → List Alteration → Prop}

/-! ## Steps keep the catalog sound -/

theorem defaultSchema_ensureSchema (catalog : Catalog) (name : String) :
    (catalog.ensureSchema name).defaultSchema = catalog.defaultSchema := by
  unfold ensureSchema
  split <;> rfl

theorem defaultSchema_of_alterTableBatch {alterations : List Alteration}
    (halter : catalog.alterTableBatch schema name alterations = .ok after) :
    after.defaultSchema = catalog.defaultSchema := by
  obtain ⟨table, htable⟩ := exists_table?_of_alterTableBatch halter
  rw [alterTableBatch_eq htable, except_map_eq_ok] at halter
  obtain ⟨altered, -, rfl⟩ := halter
  rfl

/-- No step changes which schema is the default one. -/
theorem Step.defaultSchema_eq (hstep : Step admits alters before after) :
    after.defaultSchema = before.defaultSchema := by
  cases hstep with
  | ensureSchema name => exact defaultSchema_ensureSchema before name
  | addTable _ hadd =>
      obtain ⟨-, -, -, rfl⟩ := addTable_eq_ok_iff.mp hadd
      rfl
  | dropTable hdrop =>
      obtain ⟨-, rfl⟩ := dropTable_eq_ok_iff.mp hdrop
      rfl
  | renameTable hrename =>
      obtain rfl | ⟨table, -, -, rfl⟩ := renameTable_cases hrename
      · rfl
      · rfl
  | alterTable _ _ halter => exact defaultSchema_of_alterTableBatch halter
  | addEnum hadd =>
      rw [eq_of_addEnum hadd]
      rfl
  | dropEnum hdrop =>
      rw [eq_of_dropEnum hdrop]
      rfl

/-- Every step keeps a catalog sound, if the tables that it may add are well formed. -/
theorem Step.sound (hadmits : ∀ table, admits table → table.WellFormed)
    (hstep : Step admits alters before after) (hsound : before.Sound) : after.Sound := by
  cases hstep with
  | ensureSchema name => exact hsound.ensureSchema name
  | addTable htable hadd => exact hsound.addTable (hadmits _ htable) hadd
  | dropTable hdrop => exact hsound.dropTable hdrop
  | renameTable hrename => exact hsound.renameTable hrename
  | alterTable _ _ halter => exact hsound.alterTableBatch halter
  | addEnum hadd => exact hsound.addEnum hadd
  | dropEnum hdrop => exact hsound.dropEnum hdrop

/-! ## Properties of single tables -/

/-- All tables have the property. -/
def EveryTable (P : Table → Prop) (catalog : Catalog) : Prop :=
  ∀ ⦃schema name : String⦄ ⦃table : Table⦄, catalog.table? schema name = some table → P table

section EveryTable

variable {P : Table → Prop}

/-- Old tables under new names and with other foreign keys keep a property that asks for neither. -/
theorem EveryTable.of_moved (hevery : before.EveryTable P)
    (hmoved : ∀ table name keys, P table → P { table with name := name, foreignKeys := keys })
    (hold : ∀ schema name table, after.table? schema name = some table →
      ∃ other old keys, before.table? schema other = some old ∧
        table = { old with name := table.name, foreignKeys := keys }) : after.EveryTable P := by
  intro schema name table htable
  obtain ⟨other, old, keys, hfound, hsame⟩ := hold schema name table htable
  rw [hsame]
  exact hmoved old table.name keys (hevery hfound)

/-- A renamed table is an old one, and so is every table that follows it. -/
theorem EveryTable.renameTable (hevery : before.EveryTable P)
    (hmoved : ∀ table name keys, P table → P { table with name := name, foreignKeys := keys })
    {schema source target : String}
    (hrename : before.renameTable schema source target = .ok after) : after.EveryTable P := by
  obtain rfl | ⟨table, htable, -, rfl⟩ := renameTable_cases hrename
  · exact hevery
  refine hevery.of_moved hmoved fun query other found hfound => ?_
  rw [table?_after_rename htable] at hfound
  obtain ⟨base, hbase, rfl⟩ := Option.map_eq_some_iff.mp hfound
  split at hbase
  · rename_i hown
    cases hbase
    exact ⟨source, table, _, hown.1 ▸ htable, rfl⟩
  split at hbase
  · cases hbase
  · exact ⟨other, base, _, hbase, rfl⟩

/-- A batch makes the altered copy, and every table follows it. -/
theorem EveryTable.alterTableBatch (hevery : before.EveryTable P)
    (hmoved : ∀ table name keys, P table → P { table with name := name, foreignKeys := keys })
    {schema name : String} {table : Table} {alterations : List Alteration}
    (htable : before.table? schema name = some table)
    (halters : ∀ altered, alterations.foldlM (Alteration.alter before) table = .ok altered →
      P altered)
    (halter : before.alterTableBatch schema name alterations = .ok after) :
    after.EveryTable P := by
  rw [alterTableBatch_eq_putTable htable, except_map_eq_ok] at halter
  obtain ⟨altered, hcopy, rfl⟩ := halter
  -- whatever follows the alterations changes its foreign keys and nothing else
  have hfollowed : ∀ old, P old → P (Alteration.followAll schema name alterations old) := by
    intro old hold
    obtain ⟨keys, hkeys⟩ := Alteration.exists_followAll_eq schema name alterations old
    rw [hkeys]
    exact hmoved old old.name keys hold
  intro query other found hfound
  rw [table?_putTable (by rw [hasSchema_mapTables]; exact hasSchema_of_table? htable)] at hfound
  split at hfound
  · cases hfound
    exact hfollowed altered (halters altered hcopy)
  · rw [table?_mapTables] at hfound
    obtain ⟨old, hold, rfl⟩ := Option.map_eq_some_iff.mp hfound
    exact hfollowed old (hevery hold)

/-- A step keeps a property of single tables, if the tables that it may add have it and the
alterations that it may make keep it. -/
theorem Step.everyTable (hstep : Step admits alters before after) (hevery : before.EveryTable P)
    (hmoved : ∀ table name keys, P table → P { table with name := name, foreignKeys := keys })
    (hadmits : ∀ table, admits table → P table)
    (halters : ∀ table alterations altered, P table → alters table alterations →
      alterations.foldlM (Alteration.alter before) table = .ok altered → P altered) :
    after.EveryTable P := by
  cases hstep with
  | ensureSchema name =>
      refine hevery.of_moved hmoved fun query other table htable => ?_
      rw [table?_ensureSchema] at htable
      exact ⟨other, table, table.foreignKeys, htable, rfl⟩
  | addTable hadded hadd =>
      obtain ⟨hschema, -, -, rfl⟩ := addTable_eq_ok_iff.mp hadd
      intro query other found hfound
      rw [table?_putTable hschema] at hfound
      split at hfound
      · cases hfound
        exact hadmits _ hadded
      · exact hevery hfound
  | dropTable hdrop =>
      obtain ⟨-, rfl⟩ := dropTable_eq_ok_iff.mp hdrop
      refine hevery.of_moved hmoved fun query other found hfound => ?_
      rw [table?_mapTables, table?_eraseTable] at hfound
      obtain ⟨old, hold, rfl⟩ := Option.map_eq_some_iff.mp hfound
      split at hold
      · cases hold
      · exact ⟨other, old, _, hold, rfl⟩
  | renameTable hrename => exact hevery.renameTable hmoved hrename
  | @alterTable schema name table alterations _ htable hlist halter =>
      exact hevery.alterTableBatch hmoved htable
        (fun altered hcopy => halters table alterations altered (hevery htable) hlist hcopy) halter
  | addEnum hadd =>
      rw [eq_of_addEnum hadd]
      refine hevery.of_moved hmoved fun query other table htable => ?_
      rw [table?_changeEnums] at htable
      exact ⟨other, table, table.foreignKeys, htable, rfl⟩
  | dropEnum hdrop =>
      rw [eq_of_dropEnum hdrop]
      refine hevery.of_moved hmoved fun query other table htable => ?_
      rw [table?_changeEnums] at htable
      exact ⟨other, table, table.foreignKeys, htable, rfl⟩

end EveryTable

/-- A table that a text describes is well formed. -/
theorem wellFormed_of_describes {origin : Origin} {table : Table} (h : origin.Describes table) :
    table.WellFormed := by
  obtain ⟨text, statement, schema, -, htable⟩ := h
  refine CreateTable.table_induction (Table.wellFormed_empty _ _ _) ?_ ?_ htable
  · exact fun start column next _ hstart hedited => hedited.wellFormed hstart
  · exact fun start key next hstart hedited => hedited.wellFormed hstart

/-! ## Calls -/

/-- A call of an operation of the catalog.  A table to add is made from nothing by its own
operations. -/
inductive Call where
  | createSchema (name : String)
  | ensureSchema (name : String)
  | addTable (schema name file : String) (edits : List Alteration)
  | dropTable (schema name : String)
  | renameTable (schema source target : String)
  | alterTable (schema name : String) (alteration : Alteration)
  | alterTableBatch (schema name : String) (alterations : List Alteration)
  | addEnum (schema : String) (enumType : EnumType)
  | dropEnum (schema name : String)
  /-- Reads a text of an origin and carries it out. -/
  | applyText (origin : Origin) (text : String)
  deriving DecidableEq, Repr, Inhabited

/-- The catalog after an operation; a refused one changes nothing. -/
def settle (catalog : Catalog) : Except CatalogError Catalog → Catalog
  | .ok changed => changed
  | .error _ => catalog

/-- The catalog after a call, whether it succeeds or fails. -/
def afterCall (catalog : Catalog) : Call → Catalog
  | .createSchema name => catalog.settle (catalog.createSchema name)
  | .ensureSchema name => catalog.ensureSchema name
  | .addTable schema name file edits =>
      catalog.settle (catalog.addTable (Table.built schema name file edits))
  | .dropTable schema name => catalog.settle ((catalog.dropTable schema name).map Prod.snd)
  | .renameTable schema source target => catalog.settle (catalog.renameTable schema source target)
  | .alterTable schema name alteration => catalog.settle (catalog.alterTable schema name alteration)
  | .alterTableBatch schema name alterations =>
      catalog.settle (catalog.alterTableBatch schema name alterations)
  | .addEnum schema enumType => catalog.settle (catalog.addEnum schema enumType)
  | .dropEnum schema name => catalog.settle ((catalog.dropEnum schema name).map Prod.snd)
  | .applyText origin text => (Statement.applyText origin text).after catalog

/-- The catalog that calls make, one after the other, from the one with nothing but its default
schema. -/
def afterCalls (defaultSchema : String) (calls : List Call) : Catalog :=
  calls.foldl afterCall (new defaultSchema)

/-- One successful operation of the catalog on well-formed tables. -/
abbrev AnyStep : Catalog → Catalog → Prop :=
  Step Table.WellFormed fun _ _ => True

theorem settle_reaches {outcome : Except CatalogError Catalog}
    (hok : ∀ result, outcome = .ok result → AnyStep catalog result) :
    Relation.ReflTransGen AnyStep catalog (catalog.settle outcome) := by
  cases outcome with
  | error error => exact .refl
  | ok result => exact .single (hok result rfl)

/-- A new schema is made as one that may exist already. -/
theorem ensureSchema_of_createSchema (hcreate : catalog.createSchema name = .ok after) :
    catalog.ensureSchema name = after := by
  unfold createSchema at hcreate
  unfold ensureSchema
  split at hcreate
  · cases hcreate
  · rename_i hnew
    rw [if_neg hnew]
    exact Except.ok.inj hcreate

/-- Every call changes the catalog by steps. -/
theorem afterCall_reaches (catalog : Catalog) (call : Call) :
    Relation.ReflTransGen AnyStep catalog (catalog.afterCall call) := by
  -- a refused operation is no step at all, and an accepted one is one step; a text may be many
  cases call with
  | createSchema name =>
      refine settle_reaches fun result hcreate => ?_
      rw [← ensureSchema_of_createSchema hcreate]
      exact .ensureSchema name
  | ensureSchema name => exact .single (.ensureSchema name)
  | addTable schema name file edits =>
      exact settle_reaches fun result hadd =>
        .addTable (Table.wellFormed_built schema name file edits) hadd
  | dropTable schema name =>
      refine settle_reaches fun result hdrop => ?_
      obtain ⟨⟨table, left⟩, hpair, rfl⟩ := except_map_eq_ok.mp hdrop
      exact .dropTable hpair
  | renameTable schema source target =>
      exact settle_reaches fun result hrename => .renameTable hrename
  | alterTable schema name alteration =>
      refine settle_reaches fun result halter => ?_
      obtain ⟨table, htable⟩ := exists_table?_of_alterTableBatch halter
      exact .alterTable htable trivial halter
  | alterTableBatch schema name alterations =>
      refine settle_reaches fun result halter => ?_
      obtain ⟨table, htable⟩ := exists_table?_of_alterTableBatch halter
      exact .alterTable htable trivial halter
  | addEnum schema enumType => exact settle_reaches fun result hadd => .addEnum hadd
  | dropEnum schema name =>
      refine settle_reaches fun result hdrop => ?_
      obtain ⟨⟨enumType, left⟩, hpair, rfl⟩ := except_map_eq_ok.mp hdrop
      exact .dropEnum hpair
  | applyText origin text =>
      refine Relation.ReflTransGen.mono (fun _ _ hstep => ?_) _ _
        (Statement.applyText_reaches origin text catalog)
      exact hstep.mono (fun _ => wellFormed_of_describes) fun _ _ _ => trivial

/-- Calls change the catalog by steps. -/
theorem afterCalls_reaches (defaultSchema : String) (calls : List Call) :
    Relation.ReflTransGen AnyStep (new defaultSchema) (afterCalls defaultSchema calls) := by
  unfold afterCalls
  generalize new defaultSchema = start
  induction calls generalizing start with
  | nil => exact .refl
  | cons call rest ih => exact (afterCall_reaches start call).trans (ih _)

theorem sound_of_reaches (hreaches : Relation.ReflTransGen AnyStep before after)
    (hsound : before.Sound) : after.Sound ∧ after.defaultSchema = before.defaultSchema := by
  induction hreaches with
  | refl => exact ⟨hsound, rfl⟩
  | tail _ hlast ih =>
      exact ⟨hlast.sound (fun _ => id) ih.1, hlast.defaultSchema_eq.trans ih.2⟩

theorem sound_of_calls (defaultSchema : String) (calls : List Call) :
    (afterCalls defaultSchema calls).Sound :=
  (sound_of_reaches (afterCalls_reaches defaultSchema calls) (sound_new defaultSchema)).1

/-- Whatever calls are made, in whatever order and with whatever success, the default schema is
there, everything stands under its own name, names within a table are apart, and both sides of every
foreign key exist. -/
theorem sound_afterCalls (defaultSchema : String) (calls : List Call) :
    (afterCalls defaultSchema calls).hasSchema defaultSchema = true ∧
      (afterCalls defaultSchema calls).Sound := by
  obtain ⟨hsound, hdefault⟩ :=
    sound_of_reaches (afterCalls_reaches defaultSchema calls) (sound_new defaultSchema)
  have hhas := hsound.hasSchema_default
  rw [hdefault] at hhas
  exact ⟨hhas, hsound⟩

/-! ## Batches -/

/-- A batch and its alterations one by one, made to a table of a sound catalog, work on the same
copy and differ only in what the copy has followed. -/
theorem Sound.alterTableBatch_alterTableEach (hsound : catalog.Sound) {table : Table}
    (htable : catalog.table? schema name = some table) (alterations : List Alteration) :
    (∃ error, catalog.alterTableBatch schema name alterations = .error error ∧
      catalog.alterTableEach schema name alterations = .error error) ∨
    ∃ (altered : Table) (others : Catalog), altered.schema = schema ∧ altered.name = name ∧
      others.hasSchema schema = true ∧
      catalog.alterTableBatch schema name alterations =
        .ok (others.putTable schema (Alteration.followAll schema name alterations altered)) ∧
      catalog.alterTableEach schema name alterations = .ok (others.putTable schema altered) := by
  rw [alterTableBatch_eq_putTable htable, alterTableEach_eq hsound.filed htable]
  cases hcopy : alterations.foldlM (Alteration.alter catalog) table with
  | error error => exact Or.inl ⟨error, rfl, rfl⟩
  | ok altered =>
      obtain ⟨hschema, hname⟩ := foldlM_alter_keeps hcopy
      obtain ⟨hfiledSchema, hfiledName⟩ := hsound.filed htable
      refine Or.inr ⟨altered, catalog.mapTables (Alteration.followAll schema name alterations),
        hschema.trans hfiledSchema, hname.trans hfiledName, ?_, rfl, rfl⟩
      rw [hasSchema_mapTables]
      exact hasSchema_of_table? htable

/-- Two catalogs that differ at most in one table are equal when the table is. -/
theorem putTable_inj (hschema : catalog.hasSchema schema = true) {first second : Table}
    (hname : first.name = second.name) :
    catalog.putTable schema first = catalog.putTable schema second ↔ first = second := by
  constructor
  · intro hsame
    have htables := congrArg (·.table? schema second.name) hsame
    rw [table?_putTable hschema, table?_putTable hschema, if_pos ⟨rfl, hname.symm⟩,
      if_pos ⟨rfl, rfl⟩] at htables
    exact Option.some.inj htables
  · exact congrArg (catalog.putTable schema)

/-- On every table of a catalog that can be reached, a batch succeeds when its alterations succeed
one by one.  Both leave the same catalog exactly when the table ends up without a foreign key to a
column of its own that has the name of a column dropped in the batch. -/
theorem alterTableBatch_eq_iff (defaultSchema : String) (calls : List Call) {schema name : String}
    {table : Table}
    (htable : (afterCalls defaultSchema calls).table? schema name = some table)
    (alterations : List Alteration) :
    ((∃ batch, (afterCalls defaultSchema calls).alterTableBatch schema name alterations =
        .ok batch) ↔
      ∃ each, (afterCalls defaultSchema calls).alterTableEach schema name alterations =
        .ok each) ∧
    ∀ batch each,
      (afterCalls defaultSchema calls).alterTableBatch schema name alterations = .ok batch →
      (afterCalls defaultSchema calls).alterTableEach schema name alterations = .ok each →
      (batch = each ↔ ∀ own : Table, each.table? schema name = some own → ∀ key ∈ own.foreignKeys,
        key.pointsAt schema schema name = true →
          .dropColumn key.referencedColumn ∉ alterations) := by
  have hsound := (sound_of_reaches (afterCalls_reaches defaultSchema calls)
    (sound_new defaultSchema)).1
  rcases hsound.alterTableBatch_alterTableEach htable alterations with
    ⟨error, hbatch, heach⟩ | ⟨altered, others, rfl, rfl, hschema, hbatch, heach⟩
  · simp [hbatch, heach]
  · rw [hbatch, heach]
    refine ⟨⟨fun _ => ⟨_, rfl⟩, fun _ => ⟨_, rfl⟩⟩, fun batch each hfirst hsecond => ?_⟩
    cases hfirst
    cases hsecond
    -- Both put their copy into the same catalog, so the copies decide.
    rw [putTable_inj hschema Alteration.name_followAll, Alteration.followAll_own_eq_self_iff,
      table?_putTable hschema, if_pos ⟨rfl, rfl⟩]
    constructor
    · intro hnone own hown
      cases hown
      exact hnone
    · exact fun hnone => hnone altered rfl

/-- A column of text without constraints. -/
def textColumn (name : String) : Column :=
  .plain name ⟨"text", none, none, none⟩

/-- Calls that make a table of nodes with an identifier and a parent. -/
def treeCalls : List Call :=
  [.addTable "public" "node" "" [.addColumn (textColumn "id"), .addColumn (textColumn "parent")]]

/-- The key that makes the parent of a node a node. -/
def parentKey : ForeignKey :=
  ⟨"node_parent_fkey", "parent", none, "node", "id", .noAction, .noAction, ""⟩

/-- Alterations that drop the identifier, add it again and make the parent refer to it. -/
def replaceIdentifier : List Alteration :=
  [.dropColumn "id", .addColumn (textColumn "id"), .addForeignKey parentKey]

/-- The new key alone may be added either way. -/
theorem alterTableBatch_eq_each_tree :
    (afterCalls "public" treeCalls).table? "public" "node" =
        some ⟨"public", "node", [textColumn "id", textColumn "parent"], [], [], ""⟩ ∧
      ∃ batch each,
        (afterCalls "public" treeCalls).alterTableBatch "public" "node" [.addForeignKey parentKey] =
          .ok batch ∧
        (afterCalls "public" treeCalls).alterTableEach "public" "node" [.addForeignKey parentKey] =
          .ok each ∧
        batch = each := by
  have htable : (afterCalls "public" treeCalls).table? "public" "node" =
      some ⟨"public", "node", [textColumn "id", textColumn "parent"], [], [], ""⟩ := by
    decide +kernel
  obtain ⟨hsucceeds, hsame⟩ :=
    alterTableBatch_eq_iff "public" treeCalls htable [.addForeignKey parentKey]
  have hok : ((afterCalls "public" treeCalls).alterTableBatch "public" "node"
      [.addForeignKey parentKey]).isOk = true := by
    decide +kernel
  refine ⟨htable, ?_⟩
  cases hbatch : (afterCalls "public" treeCalls).alterTableBatch "public" "node"
      [.addForeignKey parentKey] with
  | error error =>
      rw [hbatch] at hok
      cases hok
  | ok batch =>
      obtain ⟨each, heach⟩ := hsucceeds.mp ⟨batch, hbatch⟩
      exact ⟨batch, each, rfl, heach, (hsame batch each hbatch heach).mpr (by simp)⟩

/-- In a batch the new key is dropped with the references to the old identifier, and one by one it
stays. -/
theorem alterTableBatch_loses_key :
    (((afterCalls "public" treeCalls).alterTableBatch "public" "node"
        replaceIdentifier).toOption.bind (·.table? "public" "node")).map Table.foreignKeys =
      some [] ∧
    (((afterCalls "public" treeCalls).alterTableEach "public" "node"
        replaceIdentifier).toOption.bind (·.table? "public" "node")).map Table.foreignKeys =
      some [parentKey] := by
  decide +kernel

end Catalog

end Schemata
