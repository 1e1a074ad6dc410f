import Mathlib.Data.Set.Function
import Schemata.Proofs.Relation

/-!
# Renamings keep the relations

A renamed table or column changes the names in relations and nothing else.  `Relabelling` says
what is renamed, and from the new names of tables (`Relabelling.tableName`) and of their columns
(`Relabelling.columnName`) follows what becomes of a key, a table and a relation.

* `Sound.moves_renameTable`, `Sound.moves_renameColumn`: after a renaming the tables are the old
  ones with the new names put in, and no two names have become one (`Relabelling.Moves`).
* `Relabelling.Moves.relabels`: whatever moves the tables so relabels the relations.
* `renamings_relabel_afterCalls`: so it is in every catalog that can be reached.

What a table is to its relations depends on which of its names are equal: a key whose target is its
own table, two keys with one target, a key on a unique column, a column that no key is on.  Equal
names stay equal under any renaming; that different names stay different is where the new name must
have been free, and it is asked only of names in use, for a renaming is not injective on all names.
-/

namespace Schemata

/-! ## New names -/

/-- A table, or a column of a table, gets a new name. -/
inductive Relabelling where
  | ofTable (schema source target : String)
  | ofColumn (schema name source target : String)
  deriving DecidableEq, Repr, Inhabited

namespace Relabelling

/-- The schema and name that a table has afterwards. -/
def tableName : Relabelling → String × String → String × String
  | ofTable schema source target, identity =>
      if identity = (schema, source) then (schema, target) else identity
  | ofColumn _ _ _ _, identity => identity

/-- The name that a column has afterwards, in the table that had the given schema and name. -/
def columnName : Relabelling → String × String → String → String
  | ofTable _ _ _, _, column => column
  | ofColumn schema name source target, identity, column =>
      if identity = (schema, name) ∧ column = source then target else column

/-- A join table under the new names. -/
def inJoin (relabelling : Relabelling) (join : JoinTable) : JoinTable where
  schema := (relabelling.tableName (join.schema, join.table)).1
  table := (relabelling.tableName (join.schema, join.table)).2
  sourceColumn := relabelling.columnName (join.schema, join.table) join.sourceColumn
  targetColumn := relabelling.columnName (join.schema, join.table) join.targetColumn

/-- A relation under the new names; its kind, its key and whether it leads to its own table stay. -/
def inRelation (relabelling : Relabelling) (relation : Relation) : Relation :=
  { relation with
    sourceSchema := (relabelling.tableName relation.source).1
    sourceTable := (relabelling.tableName relation.source).2
    sourceColumn := relabelling.columnName relation.source relation.sourceColumn
    targetSchema := (relabelling.tableName relation.target).1
    targetTable := (relabelling.tableName relation.target).2
    targetColumn := relabelling.columnName relation.target relation.targetColumn
    join := relation.join.map relabelling.inJoin }

/-- A foreign key of a table under the new names. -/
def inKey (relabelling : Relabelling) (owner : Table) (key : ForeignKey) : ForeignKey :=
  { key with
    column := relabelling.columnName owner.identity key.column
    referencedTable := (relabelling.tableName (owner.targetOf key)).2
    referencedColumn := relabelling.columnName (owner.targetOf key) key.referencedColumn }

/-- A column of a table under its new name. -/
def inColumn (relabelling : Relabelling) (owner : Table) (column : Column) : Column :=
  { column with name := relabelling.columnName owner.identity column.name }

/-- An index of a table under the new names of its columns. -/
def inIndex (relabelling : Relabelling) (owner : Table) (index : Index) : Index :=
  { index with columns := index.columns.map (relabelling.columnName owner.identity) }

/-- A table under the new names. -/
def inTable (relabelling : Relabelling) (table : Table) : Table :=
  { table with
    name := (relabelling.tableName table.identity).2
    columns := table.columns.map (relabelling.inColumn table)
    indexes := table.indexes.map (relabelling.inIndex table)
    foreignKeys := table.foreignKeys.map (relabelling.inKey table) }

/-- The graph of one catalog is the graph of the other under the new names. -/
structure Relabels (relabelling : Relabelling) (before after : Catalog) : Prop where
  relations_perm : after.relationGraph.relations.Perm
    (before.relationGraph.relations.map relabelling.inRelation)
  /-- The relations are filed under the new name of their table. -/
  relationsIn_perm : ∀ table ∈ before.tables,
    (after.relationGraph.relationsIn (relabelling.tableName table.identity).1
      (relabelling.tableName table.identity).2).Perm
      ((before.relationGraph.relationsIn table.schema table.name).map relabelling.inRelation)
  sources_perm : after.relationGraph.sources.Perm
    (before.relationGraph.sources.map relabelling.tableName)
  /-- The join tables are the old ones. -/
  joins_perm : ((after.tables.filter fun table => table.IsJoin).map Table.identity).Perm
    ((before.tables.filter fun table => table.IsJoin).map (relabelling.tableName ·.identity))

end Relabelling

/-! ## Join tables and relations -/

namespace Table

variable {table : Table} {first second : ForeignKey}

theorem joinKeys?_eq_none (hkeys : table.foreignKeys = [first, second])
    (hnot : ¬table.JoinsBy first second) : table.joinKeys? = none := by
  refine Option.eq_none_iff_forall_not_mem.mpr ?_
  rintro ⟨one, other⟩ hpair
  obtain ⟨hsame, hjoins⟩ := joinKeys?_eq_some_iff.mp hpair
  cases hkeys.symm.trans hsame
  exact hnot hjoins

theorem isSome_joinKeys?_iff : table.joinKeys?.isSome = true ↔ table.IsJoin := by
  constructor
  · intro hsome
    obtain ⟨⟨first, second⟩, hpair⟩ := Option.isSome_iff_exists.mp hsome
    exact isJoin_iff.mpr ⟨first, second, (joinKeys?_eq_some_iff.mp hpair).2⟩
  · intro hjoin
    obtain ⟨first, second, hkeys, hjoins, -⟩ | ⟨hnot, -⟩ := table.joins_cases
    · rw [joinKeys?_eq_some_iff.mpr ⟨hkeys, hjoins⟩]
      rfl
    · exact absurd hjoin hnot

/-- The relations that a table gives rise to where all its keys resolve. -/
def derived (table : Table) : List Relation :=
  table.foreignKeys.flatMap table.keyRelations ++ table.joinRelations

end Table

namespace Relabelling

/-! ## Names of single tables -/

variable {relabelling : Relabelling} {table : Table} {key first second : ForeignKey}

/-- No table moves to another schema. -/
@[simp] theorem tableName_fst (relabelling : Relabelling) (identity : String × String) :
    (relabelling.tableName identity).1 = identity.1 := by
  cases relabelling with
  | ofTable schema source target =>
      rw [tableName]
      split
      · rename_i hsame
        rw [hsame]
      · rfl
  | ofColumn schema name source target => rfl

@[simp] theorem identity_inTable (relabelling : Relabelling) (table : Table) :
    (relabelling.inTable table).identity = relabelling.tableName table.identity :=
  Prod.ext (relabelling.tableName_fst table.identity).symm rfl

@[simp] theorem targetOf_inKey (relabelling : Relabelling) (table : Table) (key : ForeignKey) :
    (relabelling.inTable table).targetOf (relabelling.inKey table key) =
      relabelling.tableName (table.targetOf key) :=
  Prod.ext (relabelling.tableName_fst (table.targetOf key)).symm rfl

@[simp] theorem source_inRelation (relabelling : Relabelling) (relation : Relation) :
    (relabelling.inRelation relation).source = relabelling.tableName relation.source :=
  rfl

/-- A table whose columns keep their names changes in its own name and in its keys. -/
theorem inTable_of_columnName
    (hcolumns : ∀ column, relabelling.columnName table.identity column = column) :
    relabelling.inTable table = { table with
      name := (relabelling.tableName table.identity).2
      foreignKeys := table.foreignKeys.map (relabelling.inKey table) } := by
  have hnames : relabelling.columnName table.identity = id := funext hcolumns
  have hcolumn : relabelling.inColumn table = id := by
    funext column
    rw [inColumn, hnames]
    rfl
  have hindex : relabelling.inIndex table = id := by
    funext index
    rw [inIndex, hnames, List.map_id]
    rfl
  rw [inTable, hcolumn, hindex, List.map_id, List.map_id]

/-- Names that stay leave a table as it is. -/
theorem inTable_eq_self (htables : ∀ identity, relabelling.tableName identity = identity)
    (hcolumns : ∀ identity column, relabelling.columnName identity column = column)
    (table : Table) : relabelling.inTable table = table := by
  have hkey : relabelling.inKey table = id := by
    funext key
    simp only [inKey, htables, hcolumns]
    rfl
  rw [inTable_of_columnName (hcolumns table.identity), htables, hkey, List.map_id]
  rfl

/-! ## Relations of single tables -/

/-- Names in use stay apart: those of the tables that a table and its keys name, and those of the
columns of the table. -/
structure Separates (relabelling : Relabelling) (known : Set (String × String)) (table : Table) :
    Prop where
  tables_injOn : known.InjOn relabelling.tableName
  identity_mem : table.identity ∈ known
  targetOf_mem : ∀ key ∈ table.foreignKeys, table.targetOf key ∈ known
  columns_injOn : {name | name ∈ table.columns.map Column.name}.InjOn
    (relabelling.columnName table.identity)
  column_mem : ∀ key ∈ table.foreignKeys, key.column ∈ table.columns.map Column.name

variable {known : Set (String × String)}

/-- A relation under the new names, if its ends are the same or not as before. -/
theorem inRelation_between {kind : RelationKind} {source target : String × String}
    (hends : relabelling.tableName source = relabelling.tableName target ↔ source = target)
    (sourceColumn targetColumn name : String) (join : Option JoinTable) :
    relabelling.inRelation (.between kind source sourceColumn target targetColumn name join) =
      .between kind (relabelling.tableName source) (relabelling.columnName source sourceColumn)
        (relabelling.tableName target) (relabelling.columnName target targetColumn) name
        (join.map relabelling.inJoin) := by
  simp only [Relation.between, inRelation, Relation.source, Relation.target, hends]

theorem joinRelation_inTable (relabelling : Relabelling) (table : Table)
    (start finish : ForeignKey) :
    (relabelling.inTable table).joinRelation (relabelling.inKey table start)
      (relabelling.inKey table finish) =
        relabelling.inRelation (table.joinRelation start finish) := by
  simp only [Table.joinRelation, inRelation, Relation.source, Relation.target, tableName_fst,
    Option.map_some, inJoin]
  rfl

namespace Separates

theorem forward_inTable (hseparates : relabelling.Separates known table)
    (hkey : key ∈ table.foreignKeys) (kind : RelationKind) :
    (relabelling.inTable table).forward kind (relabelling.inKey table key) =
      relabelling.inRelation (table.forward kind key) := by
  have hends := hseparates.tables_injOn.eq_iff hseparates.identity_mem
    (hseparates.targetOf_mem key hkey)
  rw [Table.forward, Table.forward, inRelation_between hends, identity_inTable, targetOf_inKey]
  rfl

theorem backward_inTable (hseparates : relabelling.Separates known table)
    (hkey : key ∈ table.foreignKeys) (kind : RelationKind) :
    (relabelling.inTable table).backward kind (relabelling.inKey table key) =
      relabelling.inRelation (table.backward kind key) := by
  have hends := hseparates.tables_injOn.eq_iff (hseparates.targetOf_mem key hkey)
    hseparates.identity_mem
  rw [Table.backward, Table.backward, inRelation_between hends, identity_inTable, targetOf_inKey]
  rfl

/-- A column is found under its new name. -/
theorem column?_inTable (hseparates : relabelling.Separates known table) {name : String}
    (hname : name ∈ table.columns.map Column.name) :
    (relabelling.inTable table).column? (relabelling.columnName table.identity name) =
      (table.column? name).map (relabelling.inColumn table) := by
  have htest : ∀ column ∈ table.columns,
      ((relabelling.inColumn table column).name == relabelling.columnName table.identity name) =
        (column.name == name) := by
    intro column hcolumn
    rw [Bool.eq_iff_iff, beq_iff_eq, beq_iff_eq]
    exact hseparates.columns_injOn.eq_iff (List.mem_map_of_mem hcolumn) hname
  have hfound : table.columns.find? (fun column =>
      (relabelling.inColumn table column).name == relabelling.columnName table.identity name) =
        table.columns.find? (·.name == name) := by
    generalize table.columns = columns at htest
    induction columns with
    | nil => rfl
    | cons column rest ih =>
        rw [List.find?_cons, List.find?_cons, htest column List.mem_cons_self,
          ih fun other hother => htest other (List.mem_cons_of_mem _ hother)]
  rw [Table.column?, Table.column?, ← hfound]
  exact List.find?_map

theorem isOneToOne_inTable (hseparates : relabelling.Separates known table) {name : String}
    (hname : name ∈ table.columns.map Column.name) :
    (relabelling.inTable table).isOneToOne (relabelling.columnName table.identity name) =
      table.isOneToOne name := by
  have hkeys : (relabelling.inTable table).primaryKeyColumns =
      table.primaryKeyColumns.map (relabelling.inColumn table) := List.filter_map
  have hunique : ((table.column? name).map (relabelling.inColumn table)).any (·.unique) =
      (table.column? name).any (·.unique) := by
    cases table.column? name <;> rfl
  rw [Table.isOneToOne, Table.isOneToOne, hseparates.column?_inTable hname, hunique, hkeys]
  congr 1
  rcases hsole : table.primaryKeyColumns with _ | ⟨column, _ | ⟨second, others⟩⟩
  · rfl
  · have hcolumn : column ∈ table.columns := by
      refine (List.mem_filter (p := (·.primaryKey))).mp ?_ |>.1
      rw [← Table.primaryKeyColumns, hsole]
      exact List.mem_singleton_self column
    rw [Bool.eq_iff_iff]
    refine beq_iff_eq.trans (Iff.trans ?_ beq_iff_eq.symm)
    exact hseparates.columns_injOn.eq_iff (List.mem_map_of_mem hcolumn) hname
  · rfl

theorem keyRelations_inTable (hseparates : relabelling.Separates known table)
    (hkey : key ∈ table.foreignKeys) :
    (relabelling.inTable table).keyRelations (relabelling.inKey table key) =
      (table.keyRelations key).map relabelling.inRelation := by
  have hunique : (relabelling.inTable table).isOneToOne (relabelling.inKey table key).column =
      table.isOneToOne key.column :=
    hseparates.isOneToOne_inTable (hseparates.column_mem key hkey)
  rw [Table.keyRelations_eq, Table.keyRelations_eq, hunique, List.map_append]
  simp only [hseparates.forward_inTable hkey, hseparates.backward_inTable hkey]
  split <;> rfl

/-- A pair of keys joins by the new names if it does by the old ones. -/
theorem joinsBy_inTable (hseparates : relabelling.Separates known table)
    (hkeys : table.foreignKeys = [first, second]) :
    (relabelling.inTable table).JoinsBy (relabelling.inKey table first)
      (relabelling.inKey table second) ↔ table.JoinsBy first second := by
  have hfirst : first ∈ table.foreignKeys := by simp [hkeys]
  have hsecond : second ∈ table.foreignKeys := by simp [hkeys]
  have hlist : (relabelling.inTable table).foreignKeys =
      [relabelling.inKey table first, relabelling.inKey table second] :=
    congrArg (List.map (relabelling.inKey table)) hkeys
  have htargets : ∀ {one other}, one ∈ known → other ∈ known →
      (relabelling.tableName one ≠ relabelling.tableName other ↔ one ≠ other) :=
    fun hone hother => not_congr (hseparates.tables_injOn.eq_iff hone hother)
  have hcolumns : ∀ {one other}, one ∈ table.columns.map Column.name →
      other ∈ table.columns.map Column.name →
        (relabelling.columnName table.identity one ≠
          relabelling.columnName table.identity other ↔ one ≠ other) :=
    fun hone hother => not_congr (hseparates.columns_injOn.eq_iff hone hother)
  have hfirstColumn := hseparates.column_mem first hfirst
  have hsecondColumn := hseparates.column_mem second hsecond
  have hfirstTarget := hseparates.targetOf_mem first hfirst
  have hsecondTarget := hseparates.targetOf_mem second hsecond
  rw [Table.joinsBy_iff, Table.joinsBy_iff, hlist, hkeys]
  simp only [targetOf_inKey, identity_inTable, List.Perm.refl, true_and]
  refine and_congr (hcolumns hfirstColumn hsecondColumn) <|
    and_congr (htargets hfirstTarget hsecondTarget) <|
    and_congr (htargets hfirstTarget hseparates.identity_mem) <|
    and_congr (htargets hsecondTarget hseparates.identity_mem) ?_
  -- Of the other columns nothing but the name is new.
  refine List.forall_mem_map.trans (forall₂_congr fun column hcolumn => ?_)
  have hmem := List.mem_map_of_mem (f := Column.name) hcolumn
  exact imp_congr (hcolumns hmem hfirstColumn) <|
    imp_congr (hcolumns hmem hsecondColumn) Iff.rfl

/-- A join table is still one, and by the same keys. -/
theorem joinKeys?_inTable (hseparates : relabelling.Separates known table) :
    (relabelling.inTable table).joinKeys? = table.joinKeys?.map fun pair =>
      (relabelling.inKey table pair.1, relabelling.inKey table pair.2) := by
  match hkeys : table.foreignKeys with
  | [] => simp [Table.joinKeys?, inTable, hkeys]
  | [_] => simp [Table.joinKeys?, inTable, hkeys]
  | _ :: _ :: _ :: _ => simp [Table.joinKeys?, inTable, hkeys]
  | [first, second] =>
      have hlist : (relabelling.inTable table).foreignKeys =
          [relabelling.inKey table first, relabelling.inKey table second] :=
        congrArg (List.map (relabelling.inKey table)) hkeys
      by_cases hjoins : table.JoinsBy first second
      · rw [Table.joinKeys?_eq_some_iff.mpr ⟨hkeys, hjoins⟩]
        exact Table.joinKeys?_eq_some_iff.mpr ⟨hlist, (hseparates.joinsBy_inTable hkeys).mpr hjoins⟩
      · have hmoved := mt (hseparates.joinsBy_inTable hkeys).mp hjoins
        rw [Table.joinKeys?_eq_none hkeys hjoins, Table.joinKeys?_eq_none hlist hmoved,
          Option.map_none]

theorem isJoin_inTable (hseparates : relabelling.Separates known table) :
    (relabelling.inTable table).IsJoin ↔ table.IsJoin := by
  rw [← Table.isSome_joinKeys?_iff, ← Table.isSome_joinKeys?_iff, hseparates.joinKeys?_inTable,
    Option.isSome_map]

theorem joinRelations_inTable (hseparates : relabelling.Separates known table) :
    (relabelling.inTable table).joinRelations =
      table.joinRelations.map relabelling.inRelation := by
  rw [Table.joinRelations, Table.joinRelations, hseparates.joinKeys?_inTable]
  cases table.joinKeys? with
  | none => rfl
  | some pair => simp only [Option.map_some, List.map_cons, List.map_nil, joinRelation_inTable]

/-- A table under the new names gives rise to its relations under the new names. -/
theorem derived_inTable (hseparates : relabelling.Separates known table) :
    (relabelling.inTable table).derived = table.derived.map relabelling.inRelation := by
  have hkeys : (relabelling.inTable table).foreignKeys.flatMap
      (relabelling.inTable table).keyRelations =
        (table.foreignKeys.flatMap table.keyRelations).map relabelling.inRelation := by
    rw [List.map_flatMap, inTable, List.flatMap_map]
    exact List.flatMap_congr fun key hkey => hseparates.keyRelations_inTable hkey
  rw [Table.derived, Table.derived, List.map_append, hkeys, hseparates.joinRelations_inTable]

end Separates

end Relabelling

/-! ## Graphs of catalogs -/

namespace Catalog

variable {catalog : Catalog}

/-- The catalog has a table of the schema and name. -/
def Names (catalog : Catalog) (identity : String × String) : Prop :=
  ∃ table ∈ catalog.tables, table.identity = identity

theorem Sound.names_targetOf (hsound : catalog.Sound) {table : Table}
    (htable : table ∈ catalog.tables) {key : ForeignKey} (hkey : key ∈ table.foreignKeys) :
    catalog.Names (table.targetOf key) := by
  obtain ⟨schema, hschema, target, htarget, hidentity⟩ := hsound.knows_targetOf htable hkey
  exact ⟨target, List.mem_flatMap.mpr ⟨schema, hschema, htarget⟩, hidentity⟩

/-- Every key resolves, so that the graph is what the tables give rise to. -/
theorem Sound.relations_relationGraph (hsound : catalog.Sound) :
    catalog.relationGraph.relations = catalog.tables.flatMap Table.derived := by
  rw [relationGraph, RelationGraph.relations_ofSchemas]
  refine List.flatMap_congr fun table htable => ?_
  have hkeys : table.foreignKeys.filter (fun key =>
      decide (RelationGraph.Knows catalog.schemas.values (table.targetOf key))) =
        table.foreignKeys :=
    List.filter_eq_self.mpr fun key hkey => decide_eq_true (hsound.knows_targetOf htable hkey)
  rw [Table.relations, hkeys, Table.derived]

/-- Relations start from tables that there are. -/
theorem Sound.names_source (hsound : catalog.Sound) {relation : Relation}
    (hrelation : relation ∈ catalog.relationGraph.relations) : catalog.Names relation.source := by
  rw [hsound.relations_relationGraph] at hrelation
  obtain ⟨table, htable, hrelation⟩ := List.mem_flatMap.mp hrelation
  rcases List.mem_append.mp hrelation with hkeys | hjoins
  · obtain ⟨key, hkey, hrelation⟩ := List.mem_flatMap.mp hkeys
    obtain ⟨kind, rfl | rfl⟩ := Table.exists_of_mem_keyRelations hrelation
    · exact ⟨table, htable, rfl⟩
    · exact hsound.names_targetOf htable hkey
  · rw [Table.joinRelations_eq] at hjoins
    obtain ⟨⟨first, second⟩, hpair, rfl⟩ := List.mem_map.mp hjoins
    have hjoin := Table.mem_joins_iff.mp hpair
    exact hsound.names_targetOf htable (hjoin.keys.mem_iff.mpr List.mem_cons_self)

end Catalog

namespace Relabelling

variable {relabelling : Relabelling} {before after : Catalog}

/-- The tables of one catalog are those of the other under the new names, and names in use stay
apart. -/
structure Moves (relabelling : Relabelling) (before after : Catalog) : Prop where
  tables_perm : after.tables.Perm (before.tables.map relabelling.inTable)
  tables_injOn : Set.InjOn relabelling.tableName {identity | before.Names identity}
  columns_injOn : ∀ table ∈ before.tables, {name | name ∈ table.columns.map Column.name}.InjOn
    (relabelling.columnName table.identity)

namespace Moves

theorem separates (hmoves : relabelling.Moves before after) (hsound : before.Sound) {table : Table}
    (htable : table ∈ before.tables) :
    relabelling.Separates {identity | before.Names identity} table where
  tables_injOn := hmoves.tables_injOn
  identity_mem := ⟨table, htable, rfl⟩
  targetOf_mem := fun _ hkey => hsound.names_targetOf htable hkey
  columns_injOn := hmoves.columns_injOn table htable
  column_mem := fun key hkey => Table.hasColumn_iff.mp <|
    (hsound.wellFormed (hsound.filed.mem_tables_iff.mp htable)).hasColumn_key key hkey

theorem relations_perm (hmoves : relabelling.Moves before after) (hbefore : before.Sound)
    (hafter : after.Sound) : after.relationGraph.relations.Perm
      (before.relationGraph.relations.map relabelling.inRelation) := by
  rw [hafter.relations_relationGraph, hbefore.relations_relationGraph, List.map_flatMap]
  refine (hmoves.tables_perm.flatMap_right _).trans (List.Perm.of_eq ?_)
  rw [List.flatMap_map]
  exact List.flatMap_congr fun table htable => (hmoves.separates hbefore htable).derived_inTable

/-- Different tables that relations start from keep different names, so a relation starts from the
renamed table just when it started from the table. -/
theorem relationsIn_perm (hmoves : relabelling.Moves before after) (hbefore : before.Sound)
    (hafter : after.Sound) {table : Table} (htable : table ∈ before.tables) :
    (after.relationGraph.relationsIn (relabelling.tableName table.identity).1
      (relabelling.tableName table.identity).2).Perm
      ((before.relationGraph.relationsIn table.schema table.name).map relabelling.inRelation) := by
  rw [RelationGraph.relationsIn_eq_filter, RelationGraph.relationsIn_eq_filter]
  refine ((hmoves.relations_perm hbefore hafter).filter _).trans (List.Perm.of_eq ?_)
  rw [List.filter_map]
  refine congrArg (List.map _) (List.filter_congr fun relation hrelation => ?_)
  rw [Function.comp_apply, source_inRelation, Bool.eq_iff_iff, beq_iff_eq, beq_iff_eq]
  exact hmoves.tables_injOn.eq_iff (hbefore.names_source hrelation) ⟨table, htable, rfl⟩

theorem sources_perm (hmoves : relabelling.Moves before after) (hbefore : before.Sound)
    (hafter : after.Sound) : after.relationGraph.sources.Perm
      (before.relationGraph.sources.map relabelling.tableName) := by
  -- no source is listed twice, before or after, so it is enough that both lists have the same ones
  have hnodup : (before.relationGraph.sources.map relabelling.tableName).Nodup := by
    refine List.Nodup.map_on (fun first hfirst second hsecond => ?_)
      (RelationGraph.nodup_sources _)
    obtain ⟨_, hone, rfl⟩ := RelationGraph.mem_sources_iff.mp hfirst
    obtain ⟨_, hother, rfl⟩ := RelationGraph.mem_sources_iff.mp hsecond
    exact hmoves.tables_injOn (hbefore.names_source hone) (hbefore.names_source hother)
  refine (List.perm_ext_iff_of_nodup (RelationGraph.nodup_sources _) hnodup).mpr fun source => ?_
  simp only [RelationGraph.mem_sources_iff, (hmoves.relations_perm hbefore hafter).mem_iff,
    List.mem_map]
  constructor
  · rintro ⟨_, ⟨relation, hrelation, rfl⟩, rfl⟩
    exact ⟨relation.source, ⟨relation, hrelation, rfl⟩, rfl⟩
  · rintro ⟨_, ⟨relation, hrelation, rfl⟩, rfl⟩
    exact ⟨relabelling.inRelation relation, ⟨relation, hrelation, rfl⟩, rfl⟩

theorem joins_perm (hmoves : relabelling.Moves before after) (hbefore : before.Sound) :
    ((after.tables.filter fun table => table.IsJoin).map Table.identity).Perm
      ((before.tables.filter fun table => table.IsJoin).map
        (relabelling.tableName ·.identity)) := by
  refine ((hmoves.tables_perm.filter _).map _).trans (List.Perm.of_eq ?_)
  rw [List.filter_map, List.map_map]
  have hjoins : before.tables.filter ((fun table => decide table.IsJoin) ∘ relabelling.inTable) =
      before.tables.filter fun table => table.IsJoin :=
    List.filter_congr fun table htable =>
      decide_eq_decide.mpr (hmoves.separates hbefore htable).isJoin_inTable
  rw [hjoins]
  exact List.map_congr_left fun table _ => relabelling.identity_inTable table

/-- Moved tables have the old graph under the new names. -/
theorem relabels (hmoves : relabelling.Moves before after) (hbefore : before.Sound)
    (hafter : after.Sound) : relabelling.Relabels before after where
  relations_perm := hmoves.relations_perm hbefore hafter
  relationsIn_perm := fun _ htable => hmoves.relationsIn_perm hbefore hafter htable
  sources_perm := hmoves.sources_perm hbefore hafter
  joins_perm := hmoves.joins_perm hbefore

/-- Where all names stay, so do the tables. -/
theorem of_names (htables : ∀ identity, relabelling.tableName identity = identity)
    (hcolumns : ∀ identity column, relabelling.columnName identity column = column)
    (catalog : Catalog) : relabelling.Moves catalog catalog where
  tables_perm := by
    rw [List.map_congr_left fun table _ => inTable_eq_self htables hcolumns table, List.map_id']
  tables_injOn := fun first _ second _ hsame => by rwa [htables, htables] at hsame
  columns_injOn := fun table _ first _ second _ hsame => by rwa [hcolumns, hcolumns] at hsame

end Moves

end Relabelling

/-! ## Renamed tables -/

/-- A name that is not in use can take the place of another. -/
theorem injOn_replace {α : Type} [DecidableEq α] {known : Set α} {source target : α}
    (hfree : target ∉ known) : known.InjOn fun name => if name = source then target else name := by
  intro first hfirst second hsecond hsame
  dsimp only at hsame
  split at hsame
  · rename_i hone
    split at hsame
    · rename_i hother
      rw [hone, hother]
    · exact absurd (hsame ▸ hsecond) hfree
  · split at hsame
    · exact absurd (hsame ▸ hfirst) hfree
    · exact hsame

namespace Table

variable {table : Table} {schema name source target : String}

/-- The keys of a table follow a renamed table. -/
theorem retargetTable_eq_inTable (table : Table) (schema source target : String) :
    { table with name := ((Relabelling.ofTable schema source target).tableName
      table.identity).2 }.retargetTable schema source target =
        (Relabelling.ofTable schema source target).inTable table := by
  rw [Relabelling.inTable_of_columnName fun _ => rfl, retargetTable]
  refine congrArg (fun keys => { table with
    name := ((Relabelling.ofTable schema source target).tableName table.identity).2
    foreignKeys := keys }) (List.map_congr_left fun key _ => ?_)
  simp only [Relabelling.inKey, Relabelling.tableName, Relabelling.columnName, targetOf_eq_iff]
  split <;> rfl

/-- The renamed table itself under the new names. -/
theorem retargetTable_own (hown : table.identity = (schema, source)) :
    { table with name := target }.retargetTable schema source target =
      (Relabelling.ofTable schema source target).inTable table := by
  rw [← retargetTable_eq_inTable, Relabelling.tableName, if_pos hown]

/-- Another table whose keys follow a renamed table. -/
theorem retargetTable_other (hother : table.identity ≠ (schema, source)) :
    table.retargetTable schema source target =
      (Relabelling.ofTable schema source target).inTable table := by
  rw [← retargetTable_eq_inTable, Relabelling.tableName, if_neg hother]
  rfl

end Table

namespace Catalog

variable {catalog after : Catalog} {schema source target : String}

/-- A table can only be renamed to a name that is not in use. -/
theorem Sound.not_names_of_renameTable (hsound : catalog.Sound) (hne : source ≠ target)
    (hrename : catalog.renameTable schema source target = .ok after) :
    ¬catalog.Names (schema, target) := by
  obtain ⟨-, -, ⟨hsame, -⟩ | ⟨-, hnone, -⟩⟩ := renameTable_eq_ok_iff.mp hrename
  · exact absurd hsame hne
  rintro ⟨old, hold, hidentity⟩
  have hfound := hsound.filed.mem_tables_iff.mp hold
  obtain ⟨hschema, hname⟩ := Table.identity_eq_iff.mp hidentity
  rw [hschema, hname, hnone] at hfound
  cases hfound

/-- Tables whose names stay apart stay apart themselves. -/
theorem Sound.nodup_map_inTable (hsound : catalog.Sound) {relabelling : Relabelling}
    (hnames : Set.InjOn relabelling.tableName {identity | catalog.Names identity}) :
    (catalog.tables.map relabelling.inTable).Nodup := by
  refine List.Nodup.map_on (fun first hfirst second hsecond hsame => ?_)
    hsound.filed.nodup_tables
  have hidentity := congrArg Table.identity hsame
  rw [Relabelling.identity_inTable, Relabelling.identity_inTable] at hidentity
  exact List.inj_on_of_nodup_map hsound.filed.nodup_identities hfirst hsecond
    (hnames ⟨first, hfirst, rfl⟩ ⟨second, hsecond, rfl⟩ hidentity)

/-- After a renaming of a table the tables are the old ones under the new names. -/
theorem Sound.mem_tables_renameTable_iff (hsound : catalog.Sound) (hne : source ≠ target)
    (hrename : catalog.renameTable schema source target = .ok after) {found : Table} :
    found ∈ after.tables ↔
      ∃ old ∈ catalog.tables, (Relabelling.ofTable schema source target).inTable old = found := by
  have hfree := hsound.not_names_of_renameTable hne hrename
  obtain ⟨table, htable, ⟨hsame, -⟩ | ⟨-, -, hrenamed⟩⟩ := renameTable_eq_ok_iff.mp hrename
  · exact absurd hsame hne
  have htables := table?_after_rename htable target
  rw [← hrenamed] at htables
  have hown : table.identity = (schema, source) := Table.identity_eq_iff.mpr (hsound.filed htable)
  rw [mem_tables_iff]
  constructor
  · -- a table found under the new name is the renamed one, and under any other name an old one
    rintro ⟨query, other, hfound⟩
    rw [htables] at hfound
    obtain ⟨base, hbase, rfl⟩ := Option.map_eq_some_iff.mp hfound
    split at hbase
    · cases hbase
      exact ⟨table, mem_tables_iff.mpr ⟨_, _, htable⟩, (Table.retargetTable_own hown).symm⟩
    split at hbase
    · cases hbase
    · rename_i hother
      refine ⟨base, mem_tables_iff.mpr ⟨_, _, hbase⟩,
        (Table.retargetTable_other fun hsame => hother ?_).symm⟩
      obtain ⟨hschema, hname⟩ := hsound.filed hbase
      rw [← hschema, ← hname]
      exact Table.identity_eq_iff.mp hsame
  · -- an old table is found under its own name, unless it is the renamed one
    rintro ⟨old, hold, rfl⟩
    have hfound := hsound.filed.mem_tables_iff.mp hold
    by_cases hsource : old.identity = (schema, source)
    · obtain ⟨hschema, hname⟩ := Table.identity_eq_iff.mp hsource
      rw [hschema, hname, htable] at hfound
      cases hfound
      refine ⟨schema, target, ?_⟩
      rw [htables, if_pos ⟨rfl, rfl⟩, Option.map_some, Table.retargetTable_own hown]
    · have htarget : ¬(old.schema = schema ∧ old.name = target) := fun hsame =>
        hfree ⟨old, hold, Table.identity_eq_iff.mpr hsame⟩
      refine ⟨old.schema, old.name, ?_⟩
      rw [htables, if_neg htarget, if_neg (mt Table.identity_eq_iff.mpr hsource), hfound,
        Option.map_some, Table.retargetTable_other hsource]

/-- A renaming of a table moves the tables. -/
theorem Sound.moves_renameTable (hsound : catalog.Sound)
    (hrename : catalog.renameTable schema source target = .ok after) :
    (Relabelling.ofTable schema source target).Moves catalog after := by
  by_cases hsame : source = target
  · -- a table that keeps its name is left as it is, and so is every other
    subst hsame
    obtain ⟨-, -, ⟨-, rfl⟩ | ⟨hne, -⟩⟩ := renameTable_eq_ok_iff.mp hrename
    · refine .of_names (fun identity => ?_) (fun _ _ => rfl) _
      rw [Relabelling.tableName]
      split
      · rename_i hown
        exact hown.symm
      · rfl
    · exact absurd rfl hne
  have hinj : Set.InjOn (Relabelling.ofTable schema source target).tableName
      {identity | catalog.Names identity} :=
    injOn_replace (hsound.not_names_of_renameTable hsame hrename)
  refine ⟨?_, hinj, fun _ _ _ _ _ _ hsame => hsame⟩
  -- neither list has a table twice, so it is enough that they have the same tables
  refine (List.perm_ext_iff_of_nodup (hsound.renameTable hrename).filed.nodup_tables
    (hsound.nodup_map_inTable hinj)).mpr fun found => ?_
  rw [hsound.mem_tables_renameTable_iff hsame hrename, List.mem_map]

end Catalog

/-! ## Renamed columns -/

/-- The first item of a name is the only one, if names are apart. -/
theorem changeFirst_eq_map {α : Type} {label : α → String} {items : List α}
    (hnodup : (items.map label).Nodup) (name : String) (change : α → α) :
    changeFirst (label · == name) change items =
      items.map fun item => if label item = name then change item else item := by
  induction items with
  | nil => rfl
  | cons item rest ih =>
      obtain ⟨hitem, hrest⟩ := List.nodup_cons.mp hnodup
      rw [changeFirst, List.map_cons]
      by_cases hname : label item = name
      · have hothers : rest.map (fun other => if label other = name then change other else other) =
            rest := by
          refine (List.map_congr_left fun other hother => if_neg ?_).trans (List.map_id rest)
          rintro rfl
          exact hitem (hname ▸ List.mem_map_of_mem hother)
        rw [if_pos (beq_iff_eq.mpr hname), if_pos hname, hothers]
      · rw [if_neg (by simpa using hname), if_neg hname, ih hrest]

namespace Table

variable {table : Table} {schema name source target : String}

theorem columnName_own (table : Table) (source target column : String) :
    (Relabelling.ofColumn table.schema table.name source target).columnName table.identity column =
      if column = source then target else column := by
  simp only [Relabelling.columnName, identity, true_and]

/-- The table of a renamed column under the new names. -/
theorem withColumnRenamed_eq_inTable (hnodup : (table.columns.map Column.name).Nodup)
    (source target : String) : table.withColumnRenamed source target =
      (Relabelling.ofColumn table.schema table.name source target).inTable table := by
  have hcolumns : changeFirst (·.name == source) ({ · with name := target }) table.columns =
      table.columns.map
        ((Relabelling.ofColumn table.schema table.name source target).inColumn table) := by
    rw [changeFirst_eq_map hnodup]
    refine List.map_congr_left fun column _ => ?_
    rw [Relabelling.inColumn, columnName_own]
    split <;> rfl
  -- a key follows with the column that it is on and, if it leads to the table itself, with the one
  -- that it leads to
  have hkeys : table.foreignKeys.map (table.renameColumnInKey source target) =
      table.foreignKeys.map
        ((Relabelling.ofColumn table.schema table.name source target).inKey table) := by
    refine List.map_congr_left fun key _ => ?_
    rw [renameColumnInKey_eq, Relabelling.inKey, columnName_own]
    simp only [Relabelling.columnName, Relabelling.tableName, targetOf_eq_iff]
    rfl
  have hindexes : table.indexes.map (fun index => { index with
        columns := index.columns.map fun column =>
          if column == source then target else column }) =
      table.indexes.map
        ((Relabelling.ofColumn table.schema table.name source target).inIndex table) := by
    refine List.map_congr_left fun index _ => ?_
    simp only [Relabelling.inIndex, funext (columnName_own table source target), beq_iff_eq]
  simp only [withColumnRenamed, Relabelling.inTable, hcolumns, hkeys, hindexes]
  rfl

/-- Another table whose keys follow a renamed column. -/
theorem retargetColumn_eq_inTable (hother : table.identity ≠ (schema, name))
    (source target : String) : table.retargetColumn schema name source target =
      (Relabelling.ofColumn schema name source target).inTable table := by
  have hnames : ∀ column, (Relabelling.ofColumn schema name source target).columnName
      table.identity column = column := fun column => if_neg fun hboth => hother hboth.1
  rw [Relabelling.inTable_of_columnName hnames, retargetColumn]
  refine congrArg (fun keys => { table with foreignKeys := keys })
    (List.map_congr_left fun key _ => ?_)
  rw [Relabelling.inKey, hnames key.column]
  simp only [Relabelling.columnName, Relabelling.tableName, targetOf_eq_iff, Bool.and_eq_true,
    beq_iff_eq]
  split <;> rfl

/-- A renamed column leaves its table under the new names, and the names of columns apart. -/
theorem Edited.eq_inTable {altered : Table}
    (hedited : table.Edited (.renameColumn source target) altered)
    (hnodup : (table.columns.map Column.name).Nodup) :
    altered = (Relabelling.ofColumn table.schema table.name source target).inTable table ∧
      {column | column ∈ table.columns.map Column.name}.InjOn
        ((Relabelling.ofColumn table.schema table.name source target).columnName
          table.identity) := by
  cases hedited with
  | keepColumn hcolumn =>
      -- the old name: no column gets another one
      have hnames : ∀ identity column, (Relabelling.ofColumn table.schema table.name source
          source).columnName identity column = column := by
        intro identity column
        rw [Relabelling.columnName]
        split
        · rename_i hboth
          exact hboth.2.symm
        · rfl
      refine ⟨(Relabelling.inTable_eq_self (fun _ => rfl) hnames table).symm, ?_⟩
      intro first _ second _ hsame
      rwa [hnames, hnames] at hsame
  | renameColumn hcolumn hne hfresh =>
      refine ⟨withColumnRenamed_eq_inTable hnodup source target, ?_⟩
      rw [funext (columnName_own table source target)]
      exact injOn_replace (hasColumn_eq_false_iff.mp hfresh)

end Table

namespace Catalog

variable {catalog after : Catalog} {schema name source target : String}

/-- A renaming of a column moves the tables. -/
theorem Sound.moves_renameColumn (hsound : catalog.Sound)
    (hrename : catalog.alterTable schema name (.renameColumn source target) = .ok after) :
    (Relabelling.ofColumn schema name source target).Moves catalog after := by
  obtain ⟨table, htable⟩ := exists_table?_of_alterTableBatch hrename
  obtain ⟨rfl, rfl⟩ := hsound.filed htable
  rw [alterTable_eq htable, except_map_eq_ok] at hrename
  obtain ⟨altered, halter, rfl⟩ := hrename
  obtain ⟨hedited, -⟩ := Alteration.alter_eq_ok_iff.mp halter
  have hfollowed := Alteration.followIn_of_edited hedited
  obtain ⟨haltered, hcolumns⟩ := hedited.eq_inTable (hsound.wellFormed htable).columns_nodup
  -- tables have different names, so the altered one is known by its name
  have hown : ∀ {old : Table}, old ∈ catalog.tables → old.identity = table.identity →
      old = table := fun hold hidentity =>
    List.inj_on_of_nodup_map hsound.filed.nodup_identities hold
      (mem_tables_iff.mpr ⟨_, _, htable⟩) hidentity
  refine ⟨List.Perm.of_eq ?_, fun _ _ _ _ hsame => hsame, fun old hold => ?_⟩
  · -- the altered table is listed in its place, and every other table has followed
    have hhas : catalog.hasTable table.schema altered.name = true := by
      rw [hedited.name_eq]
      exact (congrArg Option.isSome htable).trans rfl
    rw [tables_mapTables, hsound.filed.tables_putTable hhas, List.map_map]
    refine List.map_congr_left fun old hold => ?_
    rw [Function.comp_apply, hedited.name_eq]
    split
    · rename_i hidentity
      rw [hfollowed, haltered, hown hold (Table.identity_eq_iff.mpr hidentity)]
    · rename_i hother
      have hne := mt Table.identity_eq_iff.mp hother
      rw [← Table.retargetColumn_eq_inTable hne]
      exact if_neg (by simpa using hother)
  · -- only in the altered table can two columns get one name
    by_cases hidentity : old.identity = table.identity
    · rw [hown hold hidentity]
      exact hcolumns
    · intro first _ second _ hsame
      rwa [Relabelling.columnName, Relabelling.columnName, if_neg fun hboth => hidentity hboth.1,
        if_neg fun hboth => hidentity hboth.1] at hsame

/-- In every catalog that can be reached, a renamed table or column changes its name in the
relations and nothing else: the graph afterwards is the graph before under the new names. -/
theorem renamings_relabel_afterCalls (defaultSchema : String) (calls : List Call)
    (schema : String) :
    (∀ source target after,
      (afterCalls defaultSchema calls).renameTable schema source target = .ok after →
        (Relabelling.ofTable schema source target).Relabels (afterCalls defaultSchema calls)
          after) ∧
    ∀ name source target after,
      (afterCalls defaultSchema calls).alterTable schema name (.renameColumn source target) =
        .ok after →
        (Relabelling.ofColumn schema name source target).Relabels (afterCalls defaultSchema calls)
          after := by
  have hsound := sound_of_calls defaultSchema calls
  constructor
  · intro source target after hrename
    exact (hsound.moves_renameTable hrename).relabels hsound (hsound.renameTable hrename)
  · intro name source target after hrename
    exact (hsound.moves_renameColumn hrename).relabels hsound (hsound.alterTable hrename)

/-- Books with a sequel, shelves, and a table that says which book stands on which shelf. -/
def libraryCalls : List Call :=
  [.addTable "public" "book" "" [.addColumn (textColumn "id"), .addColumn (textColumn "sequel"),
      .addForeignKey ⟨"sequel_fkey", "sequel", none, "book", "id", .noAction, .noAction, ""⟩],
    .addTable "public" "shelf" "" [.addColumn (textColumn "id")],
    .addTable "public" "place" "" [.addColumn (textColumn "book"), .addColumn (textColumn "shelf"),
      .addForeignKey ⟨"book_fkey", "book", none, "book", "id", .noAction, .noAction, ""⟩,
      .addForeignKey ⟨"shelf_fkey", "shelf", none, "shelf", "id", .noAction, .noAction, ""⟩]]

/-- The relations from a table, by kind, own column and table at the other end. -/
def relationsFrom (catalog : Catalog) (table : String) : List (RelationKind × String × String) :=
  (catalog.relationGraph.relationsIn "public" table).map fun relation =>
    (relation.kind, relation.sourceColumn, relation.targetTable)

theorem renamings_relabel_afterCalls_library :
    (∃ after, (afterCalls "public" libraryCalls).renameTable "public" "book" "volume" = .ok after ∧
      (Relabelling.ofTable "public" "book" "volume").Relabels (afterCalls "public" libraryCalls)
        after ∧
      relationsFrom after "volume" = [(.oneToMany, "id", "place"), (.manyToMany, "id", "shelf"),
        (.manyToOne, "sequel", "volume"), (.oneToMany, "id", "volume")]) ∧
    ∃ after, (afterCalls "public" libraryCalls).alterTable "public" "book"
        (.renameColumn "id" "number") = .ok after ∧
      (Relabelling.ofColumn "public" "book" "id" "number").Relabels
        (afterCalls "public" libraryCalls) after ∧
      relationsFrom after "book" = [(.manyToOne, "sequel", "book"), (.oneToMany, "number", "book"),
        (.oneToMany, "number", "place"), (.manyToMany, "number", "shelf")] := by
  obtain ⟨htables, hcolumns⟩ := renamings_relabel_afterCalls "public" libraryCalls "public"
  have htable : ((afterCalls "public" libraryCalls).renameTable "public" "book" "volume").map
      (relationsFrom · "volume") = .ok [(.oneToMany, "id", "place"), (.manyToMany, "id", "shelf"),
        (.manyToOne, "sequel", "volume"), (.oneToMany, "id", "volume")] := by
    decide +kernel
  have hcolumn : ((afterCalls "public" libraryCalls).alterTable "public" "book"
      (.renameColumn "id" "number")).map (relationsFrom · "book") =
        .ok [(.manyToOne, "sequel", "book"), (.oneToMany, "number", "book"),
          (.oneToMany, "number", "place"), (.manyToMany, "number", "shelf")] := by
    decide +kernel
  obtain ⟨renamed, hrenamed, hfrom⟩ := except_map_eq_ok.mp htable
  obtain ⟨altered, haltered, hothers⟩ := except_map_eq_ok.mp hcolumn
  exact ⟨⟨renamed, hrenamed, htables _ _ renamed hrenamed, hfrom⟩,
    altered, haltered, hcolumns _ _ _ altered haltered, hothers⟩

end Catalog

end Schemata
