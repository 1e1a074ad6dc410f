import Schemata.Catalog

/-!
# Relations between tables

Every foreign key relates two tables, and a table that only joins two others relates those.  The
relations are derived from the tables each time; nothing is stored.  As they are derived they are
filed one after another, each behind the others that start from the same table
(`RelationFiles.push`), and looked up by table.

* A foreign key is a many-to-one relation from its own table and a one-to-many relation, its
  *converse*, from the table it refers to.  If its column is unique or is the whole primary key,
  both are repeated as one-to-one relations.
* A *join table* has exactly two foreign keys, on different columns, to two different tables other
  than itself, and no other column that a row would have to fill in.  It makes two many-to-many
  relations, one for each direction.

Foreign keys to tables that do not exist are passed over.
-/

namespace Schemata

/-- How many rows can be related, seen from the source. -/
inductive RelationKind where
  | oneToMany
  | manyToOne
  | manyToMany
  | oneToOne
  deriving DecidableEq, Repr, Inhabited

/-- The join table of a many-to-many relation. -/
structure JoinTable where
  schema : String
  table : String
  /-- The column that refers to the source of the relation. -/
  sourceColumn : String
  /-- The column that refers to the target of the relation. -/
  targetColumn : String
  deriving DecidableEq, Repr, Inhabited

/-- A relation from one table to another. -/
structure Relation where
  kind : RelationKind
  sourceSchema : String
  sourceTable : String
  sourceColumn : String
  targetSchema : String
  targetTable : String
  targetColumn : String
  /-- The foreign key that the relation comes from. -/
  foreignKey : String
  /-- Source and target are one table. -/
  selfReferential : Bool
  /-- The join table of a many-to-many relation. -/
  join : Option JoinTable
  deriving DecidableEq, Repr, Inhabited

namespace Relation

/-- The table that the relation starts from, as schema and name. -/
def source (relation : Relation) : String × String :=
  (relation.sourceSchema, relation.sourceTable)

/-- The table that the relation leads to, as schema and name. -/
def target (relation : Relation) : String × String :=
  (relation.targetSchema, relation.targetTable)

/-- The relation with source and target exchanged. -/
def converse (relation : Relation) (kind : RelationKind) : Relation :=
  { relation with
    kind
    sourceSchema := relation.targetSchema
    sourceTable := relation.targetTable
    sourceColumn := relation.targetColumn
    targetSchema := relation.sourceSchema
    targetTable := relation.sourceTable
    targetColumn := relation.sourceColumn }

end Relation

namespace Table

/-- The schema and the name. -/
def identity (table : Table) : String × String :=
  (table.schema, table.name)

/-- The table that a foreign key refers to, as schema and name. -/
def targetOf (table : Table) (key : ForeignKey) : String × String :=
  (key.targetSchema table.schema, key.referencedTable)

/-- No two rows agree on the column: it is unique or is the whole primary key. -/
def isOneToOne (table : Table) (column : String) : Bool :=
  (table.column? column).any (·.unique) ||
    match table.primaryKeyColumns with
    | [key] => key.name == column
    | _ => false

/-- The many-to-one relation of a foreign key. -/
def forwardRelation (table : Table) (key : ForeignKey) : Relation :=
  { kind := .manyToOne
    sourceSchema := table.schema
    sourceTable := table.name
    sourceColumn := key.column
    targetSchema := key.targetSchema table.schema
    targetTable := key.referencedTable
    targetColumn := key.referencedColumn
    foreignKey := key.name
    selfReferential := table.targetOf key == table.identity
    join := none }

/-- The relations of a foreign key. -/
def keyRelations (table : Table) (key : ForeignKey) : List Relation :=
  let forward := table.forwardRelation key
  let both := [forward, forward.converse .oneToMany]
  if table.isOneToOne key.column then
    both ++ [{ forward with kind := .oneToOne }, forward.converse .oneToOne]
  else both

/-- The two foreign keys of a join table. -/
def joinKeys? (table : Table) : Option (ForeignKey × ForeignKey) :=
  match table.foreignKeys with
  | [first, second] =>
      let linked := first.column != second.column
        && table.targetOf first != table.targetOf second
        && table.targetOf first != table.identity && table.targetOf second != table.identity
      let others := table.columns.filter fun column =>
        column.name != first.column && column.name != second.column
      if linked && others.all fun column => column.primaryKey || column.defaultValue.isSome then
        some (first, second)
      else none
  | _ => none

/-- The many-to-many relation through a join table from the target of one of its keys to the target
of the other. -/
def joinRelation (table : Table) (start finish : ForeignKey) : Relation :=
  { kind := .manyToMany
    sourceSchema := start.targetSchema table.schema
    sourceTable := start.referencedTable
    sourceColumn := start.referencedColumn
    targetSchema := finish.targetSchema table.schema
    targetTable := finish.referencedTable
    targetColumn := finish.referencedColumn
    foreignKey := start.name
    selfReferential := false
    join := some ⟨table.schema, table.name, start.column, finish.column⟩ }

/-- The many-to-many relations through the table, if it is a join table. -/
def joinRelations (table : Table) : List Relation :=
  match table.joinKeys? with
  | some (first, second) => [table.joinRelation first second, table.joinRelation second first]
  | none => []

/-- The relations that a table gives rise to, where `known` says which tables exist. -/
def relations (known : String × String → Bool) (table : Table) : List Relation :=
  (table.foreignKeys.filter fun key => known (table.targetOf key)).flatMap table.keyRelations
    ++ table.joinRelations

end Table

/-- Lists of relations, each filed under the table that its relations start from. -/
structure RelationFiles where
  /-- The lists, by schema and then by table. -/
  bySchema : NameMap (NameMap (List Relation))
  deriving DecidableEq, Inhabited

namespace RelationFiles

/-- No relation is filed. -/
def empty : RelationFiles := ⟨.empty⟩

/-- The lists of the tables of a schema. -/
def tablesOf (files : RelationFiles) (schema : String) : NameMap (List Relation) :=
  (files.bySchema.find? schema).getD .empty

/-- The list of a table, if a relation that starts from it was filed. -/
def find? (files : RelationFiles) (source : String × String) : Option (List Relation) :=
  (files.tablesOf source.1).find? source.2

/-- The relations that start from a table. -/
def list (files : RelationFiles) (source : String × String) : List Relation :=
  (files.find? source).getD []

/-- Files a relation behind the others that start from its table. -/
def push (files : RelationFiles) (relation : Relation) : RelationFiles :=
  let filed := files.list relation.source ++ [relation]
  let tables := (files.tablesOf relation.sourceSchema).insert relation.sourceTable filed
  ⟨files.bySchema.insert relation.sourceSchema tables⟩

/-- The tables with their lists, in the order of the schemas and then of the tables. -/
def entries (files : RelationFiles) : List ((String × String) × List Relation) :=
  files.bySchema.entries.flatMap fun schema =>
    schema.2.entries.map fun table => ((schema.1, table.1), table.2)

end RelationFiles

/-- All relations, in the order of the tables and foreign keys they come from. -/
structure RelationGraph where
  relations : List Relation
  deriving DecidableEq, Repr, Inhabited

namespace RelationGraph

/-- The relations between the tables of the given schemas. -/
def ofSchemas (schemas : List Schema) : RelationGraph :=
  let tables := schemas.flatMap (·.tables.values)
  let known := fun target => tables.any (·.identity == target)
  ⟨tables.flatMap (Table.relations known)⟩

/-- The relations as they are filed one after another. -/
def files (graph : RelationGraph) : RelationFiles :=
  graph.relations.foldl RelationFiles.push .empty

/-- The number of relations in all lists. -/
def size (graph : RelationGraph) : Nat :=
  (graph.files.entries.flatMap Prod.snd).length

/-- There are no relations. -/
def isEmpty (graph : RelationGraph) : Bool :=
  graph.files.entries.isEmpty

/-- The relations that start from a table. -/
def relationsIn (graph : RelationGraph) (schema table : String) : List Relation :=
  graph.files.list (schema, table)

/-- The tables that relations start from, in the order of their schemas, then of their names. -/
def sources (graph : RelationGraph) : List (String × String) :=
  graph.files.entries.map Prod.fst

/-- The relations that start from a table of the given name, in the order of their schemas. -/
def relationsFor (graph : RelationGraph) (table : String) : List Relation :=
  (graph.files.entries.filter (·.1.2 == table)).flatMap Prod.snd

end RelationGraph

/-- The relations between the tables of the catalog. -/
def Catalog.relationGraph (catalog : Catalog) : RelationGraph :=
  .ofSchemas catalog.schemas.values

end Schemata
