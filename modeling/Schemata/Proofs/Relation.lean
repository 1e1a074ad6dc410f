import Mathlib.Algebra.GroupWithZero.Nat
import Mathlib.Data.List.Nodup
import Schemata.Proofs.Catalog.Reachable
import Schemata.Proofs.RelationFiles

/-!
# Which relations there are

A relation comes from a foreign key, seen from either side, or from a table that joins two others.
`Table.demanded` says for each kind what a table contributes, without the order in which relations
are derived: what counts is whether the column of a key is unique (`Table.IsUnique`) and whether the
table joins two others (`Table.JoinsBy`).

* `reflects_afterCalls`: the graph of a catalog that can be reached holds what its tables demand,
  kind by kind, and nothing else.  No key is skipped, since both its sides exist.
* `ends_known_iff`: of the relations between the tables of arbitrary schemas, those of single keys
  always have both ends among the tables, and all of them have when the two keys of every join table
  lead to tables that exist.  The keys of a join table are not looked up (`ends_not_known`).

The relations are derived table by table, so that a statement about the graph is one about each
table: the relations of one kind that a table gives rise to are the ones that it demands
(`Table.filter_relations`), their number is counted (`Table.length_demanded`), and the graph is the
tables' relations one after the other.  Where the columns of a table have different names, being
unique is a property of the column and not of the place where it is found.

One relation can come from two keys: two tables whose keys have the same name and lead to each other
by the same columns have their one-to-one relations in common.  The statements are therefore about
lists and not about sets.
-/

namespace Schemata

/-! ## What keys and join tables demand -/

/-- The relation from one column to another, under the name of a foreign key. -/
def Relation.between (kind : RelationKind) (source : String × String) (sourceColumn : String)
    (target : String × String) (targetColumn : String) (key : String)
    (join : Option JoinTable) : Relation where
  kind := kind
  sourceSchema := source.1
  sourceTable := source.2
  sourceColumn := sourceColumn
  targetSchema := target.1
  targetTable := target.2
  targetColumn := targetColumn
  foreignKey := key
  selfReferential := decide (source = target)
  join := join

namespace Table

variable {table : Table} {key first second : ForeignKey} {relation : Relation}

theorem identity_eq_iff {schema name : String} : table.identity = (schema, name) ↔
    table.schema = schema ∧ table.name = name := by
  rw [identity, Prod.mk.injEq]

theorem targetOf_eq_iff {schema name : String} :
    table.targetOf key = (schema, name) ↔ key.pointsAt table.schema schema name = true := by
  rw [targetOf, Prod.mk.injEq, ForeignKey.pointsAt_iff]

/-- The relation of a kind from the table of a key to the one that the key refers to. -/
def forward (table : Table) (kind : RelationKind) (key : ForeignKey) : Relation :=
  .between kind table.identity key.column (table.targetOf key) key.referencedColumn key.name none

/-- The relation of a kind from the table that a key refers to back to its own. -/
def backward (table : Table) (kind : RelationKind) (key : ForeignKey) : Relation :=
  .between kind (table.targetOf key) key.referencedColumn table.identity key.column key.name none

/-- The relation through the table from what its first key refers to to what its second does. -/
def across (table : Table) (first second : ForeignKey) : Relation :=
  .between .manyToMany (table.targetOf first) first.referencedColumn (table.targetOf second)
    second.referencedColumn first.name
    (some ⟨table.schema, table.name, first.column, second.column⟩)

/-- The column of the name is unique or is the only column of the primary key. -/
def IsUnique (table : Table) (name : String) : Prop :=
  ∃ column ∈ table.columns, column.name = name ∧ (column.unique = true ∨
    column.primaryKey = true ∧ ∀ other ∈ table.columns, other.primaryKey = true → other = column)

instance (table : Table) (name : String) : Decidable (table.IsUnique name) :=
  inferInstanceAs (Decidable (∃ column ∈ table.columns, _))

/-- The table joins two others: its only keys are on different columns and lead to two tables other
than itself, and every other column is a primary key or has a default. -/
structure JoinsBy (table : Table) (first second : ForeignKey) : Prop where
  keys : table.foreignKeys.Perm [first, second]
  columns_ne : first.column ≠ second.column
  targets_ne : table.targetOf first ≠ table.targetOf second
  first_ne : table.targetOf first ≠ table.identity
  second_ne : table.targetOf second ≠ table.identity
  covered : ∀ column ∈ table.columns, column.name ≠ first.column → column.name ≠ second.column →
    column.primaryKey = true ∨ column.defaultValue.isSome = true

theorem joinsBy_iff : table.JoinsBy first second ↔
    table.foreignKeys.Perm [first, second] ∧ first.column ≠ second.column ∧
      table.targetOf first ≠ table.targetOf second ∧ table.targetOf first ≠ table.identity ∧
      table.targetOf second ≠ table.identity ∧
      ∀ column ∈ table.columns, column.name ≠ first.column → column.name ≠ second.column →
        column.primaryKey = true ∨ column.defaultValue.isSome = true := by
  constructor
  · rintro ⟨hkeys, hcolumns, htargets, hfirst, hsecond, hcovered⟩
    exact ⟨hkeys, hcolumns, htargets, hfirst, hsecond, hcovered⟩
  · rintro ⟨hkeys, hcolumns, htargets, hfirst, hsecond, hcovered⟩
    exact ⟨hkeys, hcolumns, htargets, hfirst, hsecond, hcovered⟩

instance (table : Table) (first second : ForeignKey) : Decidable (table.JoinsBy first second) :=
  decidable_of_iff' _ joinsBy_iff

/-- The pairs of keys by which the table joins two others. -/
def joins (table : Table) : List (ForeignKey × ForeignKey) :=
  table.foreignKeys.flatMap fun first =>
    (table.foreignKeys.filter fun second => table.JoinsBy first second).map fun second =>
      (first, second)

/-- The table joins two others by some keys. -/
def IsJoin (table : Table) : Prop :=
  ∃ first ∈ table.foreignKeys, ∃ second ∈ table.foreignKeys, table.JoinsBy first second

instance (table : Table) : Decidable table.IsJoin :=
  inferInstanceAs (Decidable (∃ first ∈ table.foreignKeys, _))

/-- The relations of a kind that a foreign key of the table demands. -/
def demandedBy (table : Table) (kind : RelationKind) (key : ForeignKey) : List Relation :=
  match kind with
  | .manyToOne => [table.forward .manyToOne key]
  | .oneToMany => [table.backward .oneToMany key]
  | .oneToOne =>
      if table.IsUnique key.column then [table.forward .oneToOne key, table.backward .oneToOne key]
      else []
  | .manyToMany => []

/-- The relations of a kind that the table demands, by its foreign keys and as a join table. -/
def demanded (kind : RelationKind) (table : Table) : List Relation :=
  table.foreignKeys.flatMap (table.demandedBy kind) ++
    if kind = .manyToMany then table.joins.map fun pair => table.across pair.1 pair.2 else []

/-! ## Foreign keys -/

/-- Columns have different names, so the primary key is one column when no other is flagged. -/
theorem primaryKeyColumns_eq_singleton_iff (hwell : table.WellFormed) {column : Column} :
    table.primaryKeyColumns = [column] ↔ column ∈ table.columns ∧ column.primaryKey = true ∧
      ∀ other ∈ table.columns, other.primaryKey = true → other = column := by
  have hkeys : table.primaryKeyColumns.Nodup :=
    List.Nodup.filter _ (List.Nodup.of_map _ hwell.columns_nodup)
  have hmem : ∀ other, other ∈ table.primaryKeyColumns ↔
      other ∈ table.columns ∧ other.primaryKey = true := fun _ => List.mem_filter
  constructor
  · intro hlist
    simp only [hlist, List.mem_singleton] at hmem
    obtain ⟨hcolumn, hkey⟩ := (hmem column).mp rfl
    exact ⟨hcolumn, hkey, fun other hother hprimary => (hmem other).mpr ⟨hother, hprimary⟩⟩
  · rintro ⟨hcolumn, hkey, hsole⟩
    refine List.perm_singleton.mp ((List.perm_ext_iff_of_nodup hkeys
      (List.nodup_singleton column)).mpr fun other => ?_)
    rw [hmem, List.mem_singleton]
    refine ⟨fun hother => hsole other hother.1 hother.2, ?_⟩
    rintro rfl
    exact ⟨hcolumn, hkey⟩

theorem isOneToOne_iff (hwell : table.WellFormed) {name : String} :
    table.isOneToOne name = true ↔ table.IsUnique name := by
  have hinjective := List.inj_on_of_nodup_map hwell.columns_nodup
  rw [isOneToOne, Bool.or_eq_true, Option.any_eq_true]
  constructor
  · rintro (⟨column, hcolumn, hunique⟩ | hsole)
    · obtain ⟨hmem, hname⟩ := column?_mem_name hcolumn
      exact ⟨column, hmem, hname, Or.inl hunique⟩
    · split at hsole
      · rename_i column hcolumn
        obtain ⟨hmem, honly⟩ := (primaryKeyColumns_eq_singleton_iff hwell).mp hcolumn
        exact ⟨column, hmem, eq_of_beq hsole, Or.inr honly⟩
      · cases hsole
  · rintro ⟨column, hmem, rfl, hunique | honly⟩
    · -- the column found under the name is the unique one, for no other has the name
      left
      obtain ⟨found, hfound⟩ := Option.isSome_iff_exists.mp
        (isSome_column?.trans (hasColumn_iff.mpr (List.mem_map_of_mem hmem)))
      obtain ⟨hfoundMem, hname⟩ := column?_mem_name hfound
      exact ⟨found, hfound, hinjective hfoundMem hmem hname ▸ hunique⟩
    · right
      rw [(primaryKeyColumns_eq_singleton_iff hwell).mpr ⟨hmem, honly⟩]
      exact beq_self_eq_true _

theorem keyRelations_eq (table : Table) (key : ForeignKey) : table.keyRelations key =
    [table.forward .manyToOne key, table.backward .oneToMany key] ++
      if table.isOneToOne key.column then
        [table.forward .oneToOne key, table.backward .oneToOne key]
      else [] := by
  -- whether a key leads to its own table is asked in either order, and for the converse too
  have hself : (table.targetOf key == table.identity) =
      decide (table.targetOf key = table.identity) := by
    rw [Bool.eq_iff_iff, beq_iff_eq, decide_eq_true_eq]
  have hswapped : (table.targetOf key == table.identity) =
      decide (table.identity = table.targetOf key) := by
    rw [Bool.eq_iff_iff, beq_iff_eq, decide_eq_true_eq, eq_comm]
  have hforward : ∀ kind, { table.forwardRelation key with kind } = table.forward kind key := by
    intro kind
    rw [forwardRelation, hswapped]
    rfl
  have hbackward : ∀ kind, (table.forwardRelation key).converse kind = table.backward kind key := by
    intro kind
    rw [forwardRelation, hself]
    rfl
  have hmanyToOne := hforward .manyToOne
  rw [keyRelations, hbackward, hbackward, hforward]
  split
  · exact congrArg (· :: _) hmanyToOne
  · exact congrArg (· :: _) hmanyToOne

theorem filter_keyRelations (hwell : table.WellFormed) (kind : RelationKind) (key : ForeignKey) :
    (table.keyRelations key).filter (·.kind == kind) = table.demandedBy kind key := by
  rw [keyRelations_eq]
  by_cases hunique : table.IsUnique key.column
  · rw [if_pos ((isOneToOne_iff hwell).mpr hunique)]
    cases kind <;> simp [demandedBy, hunique, forward, backward, Relation.between]
  · rw [if_neg (mt (isOneToOne_iff hwell).mp hunique)]
    cases kind <;> simp [demandedBy, hunique, forward, backward, Relation.between]

/-- A relation of a key leads from one of its sides to the other. -/
theorem exists_of_mem_keyRelations (hrelation : relation ∈ table.keyRelations key) :
    ∃ kind, relation = table.forward kind key ∨ relation = table.backward kind key := by
  rw [keyRelations_eq, List.mem_append] at hrelation
  rcases hrelation with hrelation | hrelation
  · rcases List.mem_pair.mp hrelation with rfl | rfl
    · exact ⟨_, Or.inl rfl⟩
    · exact ⟨_, Or.inr rfl⟩
  · split at hrelation
    · rcases List.mem_pair.mp hrelation with rfl | rfl
      · exact ⟨_, Or.inl rfl⟩
      · exact ⟨_, Or.inr rfl⟩
    · cases hrelation

/-! ## Join tables -/

theorem JoinsBy.symm (hjoins : table.JoinsBy first second) : table.JoinsBy second first where
  keys := hjoins.keys.trans (List.Perm.swap second first [])
  columns_ne := hjoins.columns_ne.symm
  targets_ne := hjoins.targets_ne.symm
  first_ne := hjoins.second_ne
  second_ne := hjoins.first_ne
  covered := fun column hcolumn hfirst hsecond => hjoins.covered column hcolumn hsecond hfirst

theorem JoinsBy.keys_cases (hjoins : table.JoinsBy first second) :
    table.foreignKeys = [first, second] ∨ table.foreignKeys = [second, first] := by
  have hkeys := hjoins.keys
  obtain ⟨one, other, htwo⟩ := List.length_eq_two.mp hkeys.length_eq
  rw [htwo] at hkeys ⊢
  have hone : one ∈ [first, second] := hkeys.subset List.mem_cons_self
  rcases List.mem_pair.mp hone with rfl | rfl
  · have hother := List.perm_singleton.mp ((List.perm_cons one).mp hkeys)
    exact Or.inl (congrArg (one :: ·) hother)
  · have hswapped := hkeys.trans (List.Perm.swap one first [])
    have hother := List.perm_singleton.mp ((List.perm_cons one).mp hswapped)
    exact Or.inr (congrArg (one :: ·) hother)

theorem joinKeys?_eq_some_iff : table.joinKeys? = some (first, second) ↔
    table.foreignKeys = [first, second] ∧ table.JoinsBy first second := by
  rw [joinsBy_iff, joinKeys?]
  -- by the number of keys; for two, the checks are the conditions one by one
  split
  · rename_i one other hkeys
    dsimp only
    split
    · rename_i hjoin
      simp only [Bool.and_eq_true, bne_iff_ne, List.all_eq_true, List.mem_filter,
        Bool.or_eq_true, and_imp] at hjoin
      obtain ⟨⟨⟨⟨hcolumns, htargets⟩, hfirst⟩, hsecond⟩, hcovered⟩ := hjoin
      constructor
      · intro hpair
        cases hpair
        exact ⟨hkeys, List.Perm.of_eq hkeys, hcolumns, htargets, hfirst, hsecond, hcovered⟩
      · rintro ⟨hpair, -⟩
        cases hkeys.symm.trans hpair
        rfl
    · rename_i hjoin
      constructor
      · intro hnone
        cases hnone
      · rintro ⟨hpair, -, hcolumns, htargets, hfirst, hsecond, hcovered⟩
        cases hkeys.symm.trans hpair
        refine absurd ?_ hjoin
        simp only [Bool.and_eq_true, bne_iff_ne, List.all_eq_true, List.mem_filter,
          Bool.or_eq_true, and_imp]
        exact ⟨⟨⟨⟨hcolumns, htargets⟩, hfirst⟩, hsecond⟩, hcovered⟩
  · rename_i hnot
    constructor
    · intro hnone
      cases hnone
    · rintro ⟨hkeys, -⟩
      exact absurd hkeys (hnot first second)

theorem mem_joins_iff : (first, second) ∈ table.joins ↔ table.JoinsBy first second := by
  simp only [joins, List.mem_flatMap, List.mem_map, List.mem_filter, decide_eq_true_eq,
    Prod.mk.injEq]
  constructor
  · rintro ⟨_, -, _, ⟨-, hjoins⟩, rfl, rfl⟩
    exact hjoins
  · intro hjoins
    have hfirst : first ∈ table.foreignKeys := hjoins.keys.mem_iff.mpr List.mem_cons_self
    have hsecond : second ∈ table.foreignKeys := hjoins.symm.keys.mem_iff.mpr List.mem_cons_self
    exact ⟨first, hfirst, second, ⟨hsecond, hjoins⟩, rfl, rfl⟩

theorem isJoin_iff : table.IsJoin ↔ ∃ first second, table.JoinsBy first second := by
  constructor
  · rintro ⟨first, -, second, -, hjoins⟩
    exact ⟨first, second, hjoins⟩
  · rintro ⟨first, second, hjoins⟩
    exact ⟨first, hjoins.keys.mem_iff.mpr List.mem_cons_self, second,
      hjoins.symm.keys.mem_iff.mpr List.mem_cons_self, hjoins⟩

/-- A table joins two others by one pair of keys, in either order, or by none. -/
theorem joins_cases (table : Table) :
    (∃ first second, table.foreignKeys = [first, second] ∧ table.JoinsBy first second ∧
      table.joins = [(first, second), (second, first)]) ∨ ¬table.IsJoin ∧ table.joins = [] := by
  by_cases hjoin : table.IsJoin
  · left
    have hpairs : ∀ first second, table.JoinsBy first second →
        table.foreignKeys = [first, second] →
          table.joins = [(first, second), (second, first)] := by
      intro first second hjoins hkeys
      have hfirst : ¬table.JoinsBy first first := fun hsame => hsame.columns_ne rfl
      have hsecond : ¬table.JoinsBy second second := fun hsame => hsame.columns_ne rfl
      simp [joins, hkeys, hjoins, hjoins.symm, hfirst, hsecond]
    obtain ⟨first, second, hjoins⟩ := isJoin_iff.mp hjoin
    rcases hjoins.keys_cases with hkeys | hkeys
    · exact ⟨first, second, hkeys, hjoins, hpairs first second hjoins hkeys⟩
    · exact ⟨second, first, hkeys, hjoins.symm, hpairs second first hjoins.symm hkeys⟩
  · right
    refine ⟨hjoin, List.eq_nil_iff_forall_not_mem.mpr ?_⟩
    rintro ⟨first, second⟩ hpair
    exact hjoin (isJoin_iff.mpr ⟨first, second, mem_joins_iff.mp hpair⟩)

theorem joinRelation_eq_across (hjoins : table.JoinsBy first second) :
    table.joinRelation first second = table.across first second := by
  have hself : decide (table.targetOf first = table.targetOf second) = false :=
    decide_eq_false hjoins.targets_ne
  rw [across, Relation.between, hself]
  rfl

theorem joinRelations_eq (table : Table) :
    table.joinRelations = table.joins.map fun pair => table.across pair.1 pair.2 := by
  rw [joinRelations]
  rcases table.joins_cases with ⟨first, second, hkeys, hjoins, hpairs⟩ | ⟨hnot, hpairs⟩
  · rw [joinKeys?_eq_some_iff.mpr ⟨hkeys, hjoins⟩, hpairs]
    dsimp only
    rw [joinRelation_eq_across hjoins, joinRelation_eq_across hjoins.symm]
    rfl
  · rw [hpairs]
    split
    · rename_i first second hpair
      obtain ⟨-, hjoins⟩ := joinKeys?_eq_some_iff.mp hpair
      exact absurd (isJoin_iff.mpr ⟨first, second, hjoins⟩) hnot
    · rfl

theorem length_joins (table : Table) :
    table.joins.length = if table.IsJoin then 2 else 0 := by
  rcases table.joins_cases with ⟨first, second, -, hjoins, hpairs⟩ | ⟨hnot, hpairs⟩
  · rw [hpairs, if_pos (isJoin_iff.mpr ⟨first, second, hjoins⟩)]
    rfl
  · rw [hpairs, if_neg hnot]
    rfl

/-! ## Tables -/

/-- Where all its keys resolve, a table gives rise to the relations that it demands. -/
theorem filter_relations (hwell : table.WellFormed) {known : String × String → Bool}
    (hknown : ∀ key ∈ table.foreignKeys, known (table.targetOf key) = true) (kind : RelationKind) :
    (table.relations known).filter (·.kind == kind) = table.demanded kind := by
  have hkeys : table.foreignKeys.filter (fun key => known (table.targetOf key)) =
      table.foreignKeys := List.filter_eq_self.mpr hknown
  have hjoins : ∀ pair : ForeignKey × ForeignKey,
      ((table.across pair.1 pair.2).kind == kind) = decide (kind = .manyToMany) := by
    intro pair
    cases kind <;> rfl
  rw [relations, hkeys, joinRelations_eq, List.filter_append, List.filter_flatMap, demanded,
    List.filter_map]
  congr 1
  · exact List.flatMap_congr fun key _ => filter_keyRelations hwell kind key
  · simp only [Function.comp_def, hjoins]
    by_cases hkind : kind = .manyToMany
    · simp [hkind]
    · simp [hkind]

theorem length_demanded (table : Table) (kind : RelationKind) :
    (table.demanded kind).length = match kind with
      | .manyToOne => table.foreignKeys.length
      | .oneToMany => table.foreignKeys.length
      | .oneToOne => 2 * table.foreignKeys.countP (table.IsUnique ·.column)
      | .manyToMany => if table.IsJoin then 2 else 0 := by
  rw [demanded, List.length_append]
  cases kind with
  | manyToOne => simp [demandedBy]
  | oneToMany => simp [demandedBy]
  | oneToOne =>
      simp only [reduceCtorEq, if_false, List.length_nil, Nat.add_zero]
      induction table.foreignKeys with
      | nil => rfl
      | cons key rest ih =>
          rw [List.flatMap_cons, List.length_append, ih, List.countP_cons]
          by_cases hunique : table.IsUnique key.column
          · simp only [demandedBy, hunique, if_true, List.length_cons, List.length_nil,
              decide_true]
            omega
          · simp [demandedBy, hunique]
  | manyToMany => simp [demandedBy, length_joins]

end Table

/-! ## The graph of given schemas -/

namespace RelationGraph

variable {schemas : List Schema} {relation : Relation}

/-- The relations of a kind. -/
def ofKind (graph : RelationGraph) (kind : RelationKind) : List Relation :=
  graph.relations.filter (·.kind == kind)

theorem size_eq_ofKind (graph : RelationGraph) :
    graph.size = (graph.ofKind .manyToOne).length + (graph.ofKind .oneToMany).length +
      (graph.ofKind .oneToOne).length + (graph.ofKind .manyToMany).length := by
  rw [size_eq_length]
  simp only [ofKind]
  induction graph.relations with
  | nil => rfl
  | cons relation rest ih =>
      rw [List.length_cons, ih]
      cases hkind : relation.kind <;> simp [hkind] <;> omega

/-- One of the schemas has a table of the schema and name. -/
def Knows (schemas : List Schema) (identity : String × String) : Prop :=
  ∃ schema ∈ schemas, ∃ table ∈ schema.tables.values, table.identity = identity

instance (schemas : List Schema) (identity : String × String) :
    Decidable (Knows schemas identity) :=
  inferInstanceAs (Decidable (∃ schema ∈ schemas, _))

theorem relations_ofSchemas (schemas : List Schema) : (ofSchemas schemas).relations =
    (schemas.flatMap (·.tables.values)).flatMap
      (Table.relations fun identity => Knows schemas identity) := by
  have hknown : (fun target => (schemas.flatMap (·.tables.values)).any (·.identity == target)) =
      fun identity => decide (Knows schemas identity) := by
    funext identity
    rw [Bool.eq_iff_iff, decide_eq_true_eq, List.any_eq_true, Knows]
    simp only [beq_iff_eq, List.mem_flatMap]
    constructor
    · rintro ⟨table, ⟨schema, hschema, htable⟩, hidentity⟩
      exact ⟨schema, hschema, table, htable, hidentity⟩
    · rintro ⟨schema, hschema, table, htable, hidentity⟩
      exact ⟨table, ⟨schema, hschema, htable⟩, hidentity⟩
  rw [← hknown]
  rfl

/-- Where the relations come from. -/
theorem mem_relations_iff : relation ∈ (ofSchemas schemas).relations ↔
    ∃ schema ∈ schemas, ∃ table ∈ schema.tables.values,
      (∃ key ∈ table.foreignKeys, Knows schemas (table.targetOf key) ∧
        relation ∈ table.keyRelations key) ∨
      ∃ first second, table.JoinsBy first second ∧ relation = table.across first second := by
  have hjoins : ∀ table : Table, relation ∈ table.joinRelations ↔
      ∃ first second, table.JoinsBy first second ∧ relation = table.across first second := by
    intro table
    simp only [Table.joinRelations_eq, List.mem_map, Prod.exists, Table.mem_joins_iff, eq_comm]
  simp only [relations_ofSchemas, List.mem_flatMap, Table.relations, List.mem_append, hjoins,
    List.mem_filter, decide_eq_true_eq, and_assoc]
  constructor
  · rintro ⟨table, ⟨schema, hschema, htable⟩, hrelation⟩
    exact ⟨schema, hschema, table, htable, hrelation⟩
  · rintro ⟨schema, hschema, table, htable, hrelation⟩
    exact ⟨table, ⟨schema, hschema, htable⟩, hrelation⟩

theorem selfReferential_iff (hrelation : relation ∈ (ofSchemas schemas).relations) :
    relation.selfReferential = true ↔ relation.source = relation.target := by
  obtain ⟨schema, -, table, -, ⟨key, -, -, hkey⟩ | ⟨first, second, -, rfl⟩⟩ :=
    mem_relations_iff.mp hrelation
  · obtain ⟨kind, rfl | rfl⟩ := Table.exists_of_mem_keyRelations hkey
    · exact decide_eq_true_iff
    · exact decide_eq_true_iff
  · exact decide_eq_true_iff

/-- The relations of single keys have both ends among the tables of the schemas.  All relations have
if and only if every join table leads to tables that exist. -/
theorem ends_known_iff (schemas : List Schema) :
    (∀ relation ∈ (ofSchemas schemas).relations, relation.kind ≠ .manyToMany →
      Knows schemas relation.source ∧ Knows schemas relation.target) ∧
    ((∀ relation ∈ (ofSchemas schemas).relations,
        Knows schemas relation.source ∧ Knows schemas relation.target) ↔
      ∀ schema ∈ schemas, ∀ table ∈ schema.tables.values, ∀ first second,
        table.JoinsBy first second →
          Knows schemas (table.targetOf first) ∧ Knows schemas (table.targetOf second)) := by
  -- Of the two ends of a key, one is its own table and the other was looked up.
  have hkey : ∀ schema ∈ schemas, ∀ table ∈ schema.tables.values, ∀ key,
      Knows schemas (table.targetOf key) → ∀ relation ∈ table.keyRelations key,
        Knows schemas relation.source ∧ Knows schemas relation.target := by
    intro schema hschema table htable key htarget relation hrelation
    have hown : Knows schemas table.identity := ⟨schema, hschema, table, htable, rfl⟩
    obtain ⟨kind, rfl | rfl⟩ := Table.exists_of_mem_keyRelations hrelation
    · exact ⟨hown, htarget⟩
    · exact ⟨htarget, hown⟩
  constructor
  · intro relation hrelation hkind
    obtain ⟨schema, hschema, table, htable, ⟨key, -, htarget, hfrom⟩ | ⟨_, _, -, rfl⟩⟩ :=
      mem_relations_iff.mp hrelation
    · exact hkey schema hschema table htable key htarget relation hfrom
    · exact absurd rfl hkind
  · constructor
    · intro hall schema hschema table htable first second hjoins
      exact hall (table.across first second) (mem_relations_iff.mpr
        ⟨schema, hschema, table, htable, Or.inr ⟨first, second, hjoins, rfl⟩⟩)
    · intro hjoin relation hrelation
      obtain ⟨schema, hschema, table, htable, ⟨key, -, htarget, hfrom⟩ | ⟨_, _, hjoins, rfl⟩⟩ :=
        mem_relations_iff.mp hrelation
      · exact hkey schema hschema table htable key htarget relation hfrom
      · exact hjoin schema hschema table htable _ _ hjoins

/-- A table of posts and tags whose two keys lead nowhere. -/
def postTags : Table where
  schema := "public"
  name := "post_tags"
  columns :=
    [.plain "post_id" ⟨"uuid", none, none, none⟩, .plain "tag_id" ⟨"uuid", none, none, none⟩]
  indexes := []
  foreignKeys :=
    [⟨"post_fkey", "post_id", none, "posts", "id", .noAction, .noAction, ""⟩,
      ⟨"tag_fkey", "tag_id", none, "tags", "id", .noAction, .noAction, ""⟩]
  createdIn := ""

/-- A join table relates the tables that its keys name even if they do not exist. -/
theorem ends_not_known : ¬∀ schemas : List Schema, ∀ relation ∈ (ofSchemas schemas).relations,
    Knows schemas relation.source ∧ Knows schemas relation.target := by
  intro hall
  have hends := hall [⟨"public", NameMap.empty.insert "post_tags" postTags, .empty⟩]
    (.between .manyToMany ("public", "posts") "id" ("public", "tags") "id" "post_fkey"
      (some ⟨"public", "post_tags", "post_id", "tag_id"⟩))
  exact absurd hends (by decide +kernel)

end RelationGraph

/-! ## The graph of a catalog -/

namespace Catalog

open RelationGraph

variable {catalog : Catalog}

/-- The number of foreign keys. -/
def keyCount (catalog : Catalog) : Nat :=
  (catalog.tables.map fun table => table.foreignKeys.length).sum

/-- The number of foreign keys on a unique column. -/
def uniqueKeyCount (catalog : Catalog) : Nat :=
  (catalog.tables.map fun table => table.foreignKeys.countP (table.IsUnique ·.column)).sum

/-- The number of tables that join two others. -/
def joinTableCount (catalog : Catalog) : Nat :=
  catalog.tables.countP Table.IsJoin

theorem Sound.knows_targetOf (hsound : catalog.Sound) {table : Table}
    (htable : table ∈ catalog.tables) {key : ForeignKey} (hkey : key ∈ table.foreignKeys) :
    Knows catalog.schemas.values (table.targetOf key) := by
  obtain ⟨target, htarget, -⟩ :=
    hsound.resolved (hsound.filed.mem_tables_iff.mp htable) key hkey
  obtain ⟨hschema, hname⟩ := hsound.filed htarget
  obtain ⟨holder, hholder, hmem⟩ := List.mem_flatMap.mp (mem_tables_iff.mpr ⟨_, _, htarget⟩)
  exact ⟨holder, hholder, target, hmem, Prod.ext hschema hname⟩

theorem Sound.ofKind_relationGraph (hsound : catalog.Sound) (kind : RelationKind) :
    catalog.relationGraph.ofKind kind = catalog.tables.flatMap (Table.demanded kind) := by
  rw [ofKind, relationGraph, relations_ofSchemas, List.filter_flatMap]
  refine List.flatMap_congr fun table htable => ?_
  have hwell := hsound.wellFormed (hsound.filed.mem_tables_iff.mp htable)
  refine Table.filter_relations hwell (fun key hkey => decide_eq_true ?_) kind
  exact hsound.knows_targetOf htable hkey

theorem Sound.size_relationGraph (hsound : catalog.Sound) : catalog.relationGraph.size =
    2 * (catalog.keyCount + catalog.uniqueKeyCount + catalog.joinTableCount) := by
  rw [size_eq_ofKind]
  simp only [hsound.ofKind_relationGraph, List.length_flatMap, Table.length_demanded,
    keyCount, uniqueKeyCount, joinTableCount]
  induction catalog.tables with
  | nil => rfl
  | cons table rest ih =>
      simp only [List.map_cons, List.sum_cons, List.countP_cons, decide_eq_true_eq] at ih ⊢
      by_cases hjoin : table.IsJoin
      · simp only [hjoin, if_true]
        omega
      · simp only [hjoin, if_false]
        omega

end Catalog

namespace RelationGraph

/-- The graph holds the relations that the tables of the catalog demand and no others. -/
structure Reflects (graph : RelationGraph) (catalog : Catalog) : Prop where
  /-- Every table of the catalog is listed, once. -/
  mem_tables_iff : ∀ table,
    table ∈ catalog.tables ↔ catalog.table? table.schema table.name = some table
  nodup_tables : catalog.tables.Nodup
  /-- Each kind of relation is what the tables demand of it. -/
  ofKind_eq : ∀ kind, graph.ofKind kind = catalog.tables.flatMap (Table.demanded kind)
  /-- A join table demands two relations that lead in opposite directions. -/
  joins_eq : ∀ table ∈ catalog.tables, table.IsJoin → ∃ first second,
    table.JoinsBy first second ∧ table.joins = [(first, second), (second, first)]
  size_eq : graph.size =
    2 * (catalog.keyCount + catalog.uniqueKeyCount + catalog.joinTableCount)
  /-- Relations are filed under their source. -/
  mem_relationsIn_iff : ∀ relation schema name, relation ∈ graph.relationsIn schema name ↔
    relation ∈ graph.relations ∧ relation.source = (schema, name)
  perm_relationsIn : (graph.sources.flatMap fun source =>
    graph.relationsIn source.1 source.2).Perm graph.relations
  selfReferential_iff : ∀ relation ∈ graph.relations,
    relation.selfReferential = true ↔ relation.source = relation.target

end RelationGraph

/-- Whatever calls are made, the graph of the catalog is the one that its foreign keys demand. -/
theorem Catalog.reflects_afterCalls (defaultSchema : String) (calls : List Call) :
    (afterCalls defaultSchema calls).relationGraph.Reflects (afterCalls defaultSchema calls) := by
  have hsound := (sound_of_reaches (afterCalls_reaches defaultSchema calls)
    (sound_new defaultSchema)).1
  constructor
  · exact fun table => hsound.filed.mem_tables_iff
  · exact List.Nodup.of_map _ hsound.filed.nodup_identities
  · exact hsound.ofKind_relationGraph
  · intro table _ hjoin
    obtain ⟨first, second, -, hjoins, hpairs⟩ | ⟨hnot, -⟩ := table.joins_cases
    · exact ⟨first, second, hjoins, hpairs⟩
    · exact absurd hjoin hnot
  · exact hsound.size_relationGraph
  · intro relation schema name
    rw [RelationGraph.relationsIn_eq_filter, List.mem_filter, beq_iff_eq]
  · exact RelationGraph.perm_relationsIn _
  · exact fun relation hrelation => RelationGraph.selfReferential_iff hrelation

end Schemata
