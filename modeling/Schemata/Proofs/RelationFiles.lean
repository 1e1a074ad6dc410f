import Mathlib.Data.List.Nodup
import Mathlib.Data.Prod.Basic
import Schemata.Proofs.Catalog.Lookup
import Schemata.Relation

/-!
# Relations as they are filed

A graph hands its relations out table by table.  To do so it files them one after another, each
behind the others that start from the same table, and what is filed is never moved or taken out
again.  A push changes a single list, that of the table which the relation starts from, and puts the
relation at its end (`RelationFiles.find?_push`).  By induction over the pushes the list of a table
holds the relations that start from it, in the order in which they were derived, and a table has a
list when there are such relations.

Nothing else about the lists needs an induction over the pushes.  The tables are listed in the order
of a map of maps, so none comes twice, and the lists of all tables are the relations, rearranged by
their sources.

* `RelationGraph.relationsIn_eq_filter`: the list of a table.
* `RelationGraph.mem_sources_iff`, `RelationGraph.nodup_sources`: the tables that have a list.
* `RelationGraph.perm_relationsIn`, `RelationGraph.size_eq_length`: all lists together.
-/

namespace Schemata

namespace RelationFiles

variable {files : RelationFiles} {source : String × String} {filed : List Relation}

/-! ## One push -/

/-- A push adds to the list of the table that the relation starts from, and to no other. -/
theorem find?_push (files : RelationFiles) (relation : Relation) (source : String × String) :
    (files.push relation).find? source =
      if source = relation.source then some (files.list relation.source ++ [relation])
      else files.find? source := by
  rw [find?, tablesOf, push]
  dsimp only
  rw [NameMap.find?_insert]
  by_cases hschema : source.1 = relation.sourceSchema
  · rw [if_pos hschema, Option.getD_some, NameMap.find?_insert]
    by_cases htable : source.2 = relation.sourceTable
    · rw [if_pos htable, if_pos (Prod.ext hschema htable)]
    · -- another table of the same schema keeps its list, beside the changed one
      rw [if_neg htable, if_neg fun hsame => htable (congrArg Prod.snd hsame), find?, hschema]
  · rw [if_neg hschema, if_neg fun hsame => hschema (congrArg Prod.fst hsame)]
    rfl

theorem list_push (files : RelationFiles) (relation : Relation) (source : String × String) :
    (files.push relation).list source =
      files.list source ++ [relation].filter (·.source == source) := by
  rw [list, find?_push]
  by_cases hsource : source = relation.source
  · rw [if_pos hsource, hsource]
    simp
  · rw [if_neg hsource, ← list]
    simp [Ne.symm hsource]

/-! ## All pushes -/

/-- Pushes put the relations that start from a table behind what its list held, in their order. -/
theorem list_foldl_push (relations : List Relation) (files : RelationFiles)
    (source : String × String) :
    (relations.foldl push files).list source =
      files.list source ++ relations.filter (·.source == source) := by
  induction relations generalizing files with
  | nil => exact (List.append_nil _).symm
  | cons relation rest ih =>
      rw [List.foldl_cons, ih, list_push, List.append_assoc, ← List.filter_append,
        List.singleton_append]

theorem isSome_find?_foldl_push (relations : List Relation) (files : RelationFiles)
    (source : String × String) :
    ((relations.foldl push files).find? source).isSome = true ↔
      (files.find? source).isSome = true ∨ ∃ relation ∈ relations, relation.source = source := by
  induction relations generalizing files with
  | nil => simp
  | cons relation rest ih =>
      rw [List.foldl_cons, ih, find?_push]
      by_cases hsource : source = relation.source
      · simp [hsource]
      · simp [hsource, Ne.symm hsource]

/-! ## The lists of all tables -/

theorem mem_entries_iff : (source, filed) ∈ files.entries ↔ files.find? source = some filed := by
  obtain ⟨schema, name⟩ := source
  simp only [entries, List.mem_flatMap, List.mem_map, Prod.mk.injEq, Prod.exists]
  constructor
  · rintro ⟨_, tables, htables, _, _, hfiled, ⟨rfl, rfl⟩, rfl⟩
    rw [find?, tablesOf, NameMap.mem_entries_iff.mp htables]
    exact NameMap.mem_entries_iff.mp hfiled
  · intro hfind
    rw [find?, tablesOf] at hfind
    cases htables : files.bySchema.find? schema with
    | none =>
        -- a schema without lists has none for the table
        rw [htables] at hfind
        cases hfind
    | some tables =>
        rw [htables, Option.getD_some] at hfind
        exact ⟨schema, tables, NameMap.mem_entries_iff.mpr htables, name, filed,
          NameMap.mem_entries_iff.mpr hfind, ⟨rfl, rfl⟩, rfl⟩

theorem nodup_map_entries (files : RelationFiles) : (files.entries.map Prod.fst).Nodup := by
  simp only [entries, List.map_flatMap, List.map_map, Function.comp_def]
  refine List.nodup_flatMap.mpr ⟨fun schema _ => ?_, files.bySchema.ordered.imp fun hlt => ?_⟩
  · have hnames := schema.2.nodup_names.map (Prod.mk_right_injective schema.1)
    rwa [NameMap.names, List.map_map] at hnames
  · -- tables of two schemas differ in the schema
    refine List.disjoint_left.mpr fun source hfirst hsecond => ?_
    obtain ⟨_, -, rfl⟩ := List.mem_map.mp hfirst
    obtain ⟨_, -, hsame⟩ := List.mem_map.mp hsecond
    exact String.lt_irrefl _ ((Prod.mk.inj hsame).1 ▸ hlt)

end RelationFiles

namespace RelationGraph

variable {graph : RelationGraph} {source : String × String}

/-- The relations that start from a table, in the order in which they were derived. -/
theorem relationsIn_eq_filter (graph : RelationGraph) (schema table : String) :
    graph.relationsIn schema table = graph.relations.filter (·.source == (schema, table)) :=
  RelationFiles.list_foldl_push graph.relations .empty (schema, table)

theorem nodup_sources (graph : RelationGraph) : graph.sources.Nodup :=
  graph.files.nodup_map_entries

theorem mem_sources_iff :
    source ∈ graph.sources ↔ ∃ relation ∈ graph.relations, relation.source = source := by
  have hfiled := RelationFiles.isSome_find?_foldl_push graph.relations .empty source
  have hempty : (RelationFiles.empty.find? source).isSome = false := rfl
  rw [hempty, or_iff_right Bool.false_ne_true, ← files, Option.isSome_iff_exists] at hfiled
  rw [← hfiled, sources, List.mem_map]
  constructor
  · rintro ⟨⟨_, filed⟩, hentry, rfl⟩
    exact ⟨filed, RelationFiles.mem_entries_iff.mp hentry⟩
  · rintro ⟨filed, hfind⟩
    exact ⟨(source, filed), RelationFiles.mem_entries_iff.mpr hfind, rfl⟩

/-- Items listed label by label are the items that have one of the labels. -/
theorem perm_flatMap_filter {α β : Type} [BEq β] [LawfulBEq β] (label : α → β) (items : List α)
    {labels : List β} (hnodup : labels.Nodup) :
    (labels.flatMap fun name => items.filter (label · == name)).Perm
      (items.filter (labels.contains <| label ·)) := by
  induction labels with
  | nil => simp
  | cons name rest ih =>
      obtain ⟨hname, hrest⟩ := List.nodup_cons.mp hnodup
      rw [List.flatMap_cons]
      refine ((ih hrest).append_left _).trans ?_
      -- the items of the first label and of the others, taken from the items of either
      have hparts := List.filter_append_perm (label · == name)
        (items.filter ((name :: rest).contains <| label ·))
      have hfirst : ∀ item, ((label item == name) && (name :: rest).contains (label item)) =
          (label item == name) := by
        intro item
        by_cases hitem : label item = name <;> simp [hitem]
      have hothers : ∀ item, ((!label item == name) && (name :: rest).contains (label item)) =
          rest.contains (label item) := by
        intro item
        by_cases hitem : label item = name
        · simp [hitem, hname]
        · simp [hitem]
      simpa only [List.filter_filter, hfirst, hothers] using hparts

/-- Listed under their sources, the relations are all there. -/
theorem perm_relationsIn (graph : RelationGraph) :
    (graph.sources.flatMap fun source => graph.relationsIn source.1 source.2).Perm
      graph.relations := by
  have hall : graph.relations.filter (graph.sources.contains ·.source) = graph.relations := by
    refine List.filter_eq_self.mpr fun relation hrelation => ?_
    rw [List.contains_iff_mem, mem_sources_iff]
    exact ⟨relation, hrelation, rfl⟩
  have hperm := perm_flatMap_filter Relation.source graph.relations graph.nodup_sources
  rw [hall] at hperm
  simpa only [relationsIn_eq_filter] using hperm

/-- The lists together hold as many relations as there are. -/
theorem size_eq_length (graph : RelationGraph) : graph.size = graph.relations.length := by
  have hlists : graph.files.entries.map Prod.snd =
      graph.sources.map fun source => graph.relationsIn source.1 source.2 := by
    rw [sources, List.map_map]
    refine List.map_congr_left fun entry hentry => ?_
    rw [Function.comp_apply, relationsIn, RelationFiles.list,
      RelationFiles.mem_entries_iff.mp hentry, Option.getD_some]
  rw [size, List.flatMap_def, hlists, ← List.flatMap_def]
  exact graph.perm_relationsIn.length_eq

end RelationGraph

end Schemata
