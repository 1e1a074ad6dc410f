import Mathlib.Logic.Relation
import Schemata.Effect
import Schemata.Proofs.Catalog.Lookup
import Schemata.Proofs.Outcome
import Schemata.Proofs.Table.Edit

/-!
# Effects as steps of the catalog

Whatever a text does to the catalog, whether it succeeds or fails part-way, is a sequence of single
steps (`Catalog.Step`), each of which is one successful operation of the catalog.  The new tables
and the alterations among them were read from texts.

* `Change.Reaches`: from a catalog, a change leaves one that is some steps away.
* `Statement.applyText_reaches`: every text changes the catalog by steps.

An invariant of the catalog is therefore proved for each kind of step, and holds along every run.

A change that fails keeps what it has done so far, so the relation is about the catalog that is left
and says nothing of the outcome: what goes on after another change goes on from its catalog, whether
that change fails or not (`Change.reaches_bind`).  Steps that come from a text say in addition which
tables they may add and which alterations they may make, so that an invariant may use what is known
of everything that is read.
-/

namespace Schemata

/-! ## Steps -/

/-- One successful operation of the catalog.  The parameters say which tables may be added and which
alterations may be made to a table. -/
inductive Catalog.Step (admits : Table → Prop) (alters : Table → List Alteration → Prop)
    (before : Catalog) : Catalog → Prop
  | ensureSchema (name : String) : Step admits alters before (before.ensureSchema name)
  | addTable {table : Table} {after : Catalog} (hadmits : admits table)
      (hadd : before.addTable table = .ok after) : Step admits alters before after
  | dropTable {schema name : String} {table : Table} {after : Catalog}
      (hdrop : before.dropTable schema name = .ok (table, after)) : Step admits alters before after
  | renameTable {schema source target : String} {after : Catalog}
      (hrename : before.renameTable schema source target = .ok after) :
      Step admits alters before after
  | alterTable {schema name : String} {table : Table} {alterations : List Alteration}
      {after : Catalog} (htable : before.table? schema name = some table)
      (halters : alters table alterations)
      (halter : before.alterTableBatch schema name alterations = .ok after) :
      Step admits alters before after
  | addEnum {schema : String} {enumType : EnumType} {after : Catalog}
      (hadd : before.addEnum schema enumType = .ok after) : Step admits alters before after
  | dropEnum {schema name : String} {enumType : EnumType} {after : Catalog}
      (hdrop : before.dropEnum schema name = .ok (enumType, after)) :
      Step admits alters before after

/-- More may be allowed. -/
theorem Catalog.Step.mono {admits others : Table → Prop}
    {alters changes : Table → List Alteration → Prop} {before after : Catalog}
    (hstep : Step admits alters before after) (hadmits : ∀ table, admits table → others table)
    (halters : ∀ table alterations, alters table alterations → changes table alterations) :
    Step others changes before after := by
  cases hstep with
  | ensureSchema name => exact .ensureSchema name
  | addTable htable hadd => exact .addTable (hadmits _ htable) hadd
  | dropTable hdrop => exact .dropTable hdrop
  | renameTable hrename => exact .renameTable hrename
  | alterTable htable hlist halter => exact .alterTable htable (halters _ _ hlist) halter
  | addEnum hadd => exact .addEnum hadd
  | dropEnum hdrop => exact .dropEnum hdrop

/-- The table is described by a text of the origin. -/
def Origin.Describes (origin : Origin) (table : Table) : Prop :=
  ∃ text statement schema, CreateTable.read origin text = .ok statement ∧
    statement.table schema origin.file = .ok table

/-- The alterations carry out the operation of a text of the origin on the table. -/
def Origin.Alters (origin : Origin) (table : Table) (alterations : List Alteration) : Prop :=
  ∃ text statement, AlterTable.read origin text = .ok statement ∧
    statement.operation.alterations origin table = .ok alterations

/-- One successful operation of the catalog, as the texts of an origin bring it about. -/
abbrev Origin.Step (origin : Origin) : Catalog → Catalog → Prop :=
  Catalog.Step origin.Describes origin.Alters

/-- A table is made from nothing by adding the columns of the statement and then foreign keys. -/
theorem CreateTable.table_induction {statement : CreateTable} {schema file : String} {table : Table}
    {P : Table → Prop} (hempty : P (Table.empty schema statement.name.base file))
    (hcolumn : ∀ start column next, column ∈ statement.columns → P start →
      start.Edited (.addColumn column) next → P next)
    (hkey : ∀ start key next, P start → start.Edited (.addForeignKey key) next → P next)
    (htable : statement.table schema file = .ok table) : P table := by
  simp only [CreateTable.table, except_bind_eq_ok] at htable
  obtain ⟨middle, hcolumns, hkeys⟩ := htable
  have hmiddle : P middle := by
    refine foldlM_ok_induction (P := P) ?_ hempty hcolumns
    intro start column next hmem hstart hnext
    exact hcolumn start column next hmem hstart (Table.edit_eq_ok_iff.mp hnext)
  refine foldlM_ok_induction (P := P) ?_ hmiddle hkeys
  intro start key next _ hstart hnext
  exact hkey start key next hstart (Table.edit_eq_ok_iff.mp hnext)

namespace Change

variable {α β : Type} {step : Catalog → Catalog → Prop} {catalog : Catalog}

/-- The catalog that a change leaves, whether it succeeds or fails. -/
def after (change : Change α) (catalog : Catalog) : Catalog :=
  match change.run catalog with
  | .ok _ left => left
  | .error _ left => left

/-- The catalog that a change leaves is some steps away. -/
def Reaches (step : Catalog → Catalog → Prop) (change : Change α) (catalog : Catalog) : Prop :=
  Relation.ReflTransGen step catalog (change.after catalog)

theorem reaches_pure (value : α) : Reaches step (pure value) catalog :=
  Relation.ReflTransGen.refl

theorem reaches_throw (error : CatalogError) : Reaches step (throw error : Change α) catalog :=
  Relation.ReflTransGen.refl

/-- What follows a step goes on from the catalog that the step left. -/
theorem reaches_bind {first : Change α} {next : α → Change β} (hfirst : Reaches step first catalog)
    (hnext : ∀ value left, first.run catalog = .ok value left → Reaches step (next value) left) :
    Reaches step (first >>= next) catalog := by
  unfold Reaches after at *
  rw [EStateM.run_bind]
  cases hrun : first.run catalog with
  | ok value left =>
      rw [hrun] at hfirst
      exact hfirst.trans (hnext value left hrun)
  | error error left =>
      rw [hrun] at hfirst
      exact hfirst

theorem reaches_get_bind {next : Catalog → Change β} (hnext : Reaches step (next catalog) catalog) :
    Reaches step (get >>= next) catalog :=
  hnext

theorem reaches_modify {change : Catalog → Catalog}
    (hchange : Relation.ReflTransGen step catalog (change catalog)) :
    Reaches step (modify change) catalog :=
  hchange

theorem reaches_modify_bind {change : Catalog → Catalog} {next : Unit → Change β}
    (hchange : Relation.ReflTransGen step catalog (change catalog))
    (hnext : Reaches step (next ()) (change catalog)) :
    Reaches step (modify change >>= next) catalog :=
  hchange.trans hnext

theorem reaches_ofExcept_bind {result : Except CatalogError α} {next : α → Change β}
    (hnext : ∀ value, result = .ok value → Reaches step (next value) catalog) :
    Reaches step (ofExcept result >>= next) catalog := by
  cases result with
  | error error => exact reaches_throw error
  | ok value => exact hnext value rfl

theorem reaches_attempt {operation : Catalog → Except CatalogError Catalog}
    (hoperation : ∀ result, operation catalog = .ok result → step catalog result) :
    Reaches step (attempt operation) catalog := by
  refine reaches_get_bind ?_
  cases hrun : operation catalog with
  | error error => exact reaches_throw error
  | ok result => exact Relation.ReflTransGen.single (hoperation result hrun)

/-- What every action reaches by steps, a list of actions does. -/
theorem reaches_forM {action : α → Change Unit} {items : List α}
    (haction : ∀ item ∈ items, ∀ catalog, Reaches step (action item) catalog) :
    Reaches step (items.forM action) catalog := by
  induction items generalizing catalog with
  | nil => exact reaches_pure ()
  | cons item rest ih =>
      refine reaches_bind (haction item List.mem_cons_self catalog) fun _ left _ => ?_
      exact ih fun other hother => haction other (List.mem_cons_of_mem _ hother)

/-- Two actions that do the same to each item of a list do the same to the list. -/
theorem forM_congr {action other : α → Change Unit} {items : List α}
    (hsame : ∀ item ∈ items, action item = other item) : items.forM action = items.forM other := by
  induction items with
  | nil => rfl
  | cons item rest ih =>
      show (action item >>= fun _ => rest.forM action) = (other item >>= fun _ => rest.forM other)
      rw [hsame item List.mem_cons_self,
        ih fun item hitem => hsame item (List.mem_cons_of_mem _ hitem)]

theorem ofReading_eq_ok {result : Except ParseError α} {value : α} :
    ofReading result = .ok value ↔ result = .ok value := by
  cases result <;> simp [ofReading]

theorem ofReading_ok_bind (value : α) (next : α → Change β) :
    (ofExcept (ofReading (.ok value)) >>= next) = next value := rfl

theorem ofReading_error_bind (error : ParseError) (next : α → Change β) :
    (ofExcept (ofReading (.error error)) >>= next) = throw (.unreadable error) := rfl

/-- What every step keeps, a change keeps. -/
theorem Reaches.induction {change : Change α} {P : Catalog → Prop}
    (hreaches : Reaches step change catalog)
    (hstep : ∀ before after, P before → step before after → P after) (hstart : P catalog) :
    P (change.after catalog) := by
  unfold Reaches at hreaches
  generalize change.after catalog = left at hreaches
  induction hreaches with
  | refl => exact hstart
  | tail _ hlast ih => exact hstep _ _ ih hlast

end Change

/-! ## Statements -/

open Change

variable {origin : Origin} {catalog : Catalog}

theorem CreateTable.apply_reaches {text : String} {statement : CreateTable}
    (hread : CreateTable.read origin text = .ok statement) :
    Reaches origin.Step (statement.apply origin) catalog := by
  refine reaches_get_bind (reaches_modify_bind (.single (.ensureSchema _)) (reaches_get_bind ?_))
  split
  · exact reaches_pure ()
  · exact reaches_ofExcept_bind fun table htable =>
      reaches_attempt fun result hadd => .addTable ⟨text, statement, _, hread, htable⟩ hadd

theorem dropNamedTable_reaches (ifExists : Bool) (name : ObjectName) :
    Reaches origin.Step (dropNamedTable ifExists name) catalog := by
  refine reaches_get_bind (reaches_get_bind ?_)
  split
  · exact reaches_pure ()
  · refine reaches_attempt fun result hdrop => ?_
    simp only [except_bind_eq_ok, except_pure_eq_ok] at hdrop
    obtain ⟨⟨table, left⟩, hdrop, rfl⟩ := hdrop
    exact .dropTable hdrop

theorem CreateEnum.apply_reaches (statement : CreateEnum) :
    Reaches origin.Step (statement.apply origin) catalog := by
  refine reaches_get_bind (reaches_modify_bind (.single (.ensureSchema _)) (reaches_get_bind ?_))
  split
  · exact reaches_pure ()
  · exact reaches_attempt fun result hadd => .addEnum hadd

theorem Catalog.withoutEnum_reaches (names : List ObjectName) :
    Relation.ReflTransGen origin.Step catalog
      (names.foldl Catalog.withoutEnum catalog) := by
  induction names generalizing catalog with
  | nil => exact .refl
  | cons name rest ih =>
      refine Relation.ReflTransGen.trans ?_ ih
      unfold Catalog.withoutEnum
      split
      · rename_i enumType without hdrop
        exact .single (.dropEnum hdrop)
      · exact .refl

theorem AlterTable.apply_reaches {text : String} {statement : AlterTable}
    {again : String → Change Unit} (hread : AlterTable.read origin text = .ok statement)
    (hagain : ∀ text catalog, Reaches origin.Step (again text) catalog) :
    Reaches origin.Step (statement.apply origin again) catalog := by
  refine reaches_get_bind (reaches_get_bind ?_)
  split
  · exact reaches_pure ()
  refine reaches_get_bind (reaches_ofExcept_bind fun table htable => ?_)
  split
  · exact reaches_attempt fun result hrename => .renameTable hrename
  · exact reaches_forM fun clause _ catalog => hagain _ catalog
  · refine reaches_ofExcept_bind fun alterations halterations => ?_
    exact reaches_attempt fun result halter =>
      .alterTable (Catalog.table_eq_ok_iff.mp htable) ⟨text, statement, hread, halterations⟩ halter

namespace Statement

/-- The definition of a table or the operation on one was read from the text. -/
def WasRead (origin : Origin) (text : String) : Statement → Prop
  | createTable statement => CreateTable.read origin text = .ok statement
  | alterTable statement => AlterTable.read origin text = .ok statement
  | _ => True

theorem wasRead_of_read {text : String} {statement : Statement}
    (hread : read origin text = .ok statement) : statement.WasRead origin (body text) := by
  unfold read at hread
  dsimp only at hread
  -- an empty text is refused, and one of no known kind is kept as it stands
  split at hread
  · cases hread
  split at hread
  · rename_i kind hkind
    cases kind with
    | createTable =>
        simp only [readKind, except_bind_eq_ok, except_pure_eq_ok] at hread
        obtain ⟨inner, hinner, rfl⟩ := hread
        exact hinner
    | alterTable =>
        simp only [readKind, except_bind_eq_ok, except_pure_eq_ok] at hread
        obtain ⟨inner, hinner, rfl⟩ := hread
        exact hinner
    | _ =>
        simp only [readKind, except_bind_eq_ok, except_pure_eq_ok] at hread
        obtain ⟨inner, -, rfl⟩ := hread
        exact trivial
  · cases hread
    exact trivial

/-- A statement that was read changes the catalog by steps, however deep its operations nest. -/
theorem applyNested_reaches {text : String} {statement : Statement}
    (hread : statement.WasRead origin text) (depth : Nat) :
    Reaches origin.Step (applyNested origin depth statement) catalog := by
  -- A nested statement is carried out at a smaller depth.
  induction depth using Nat.strongRecOn generalizing text statement catalog with
  | ind depth ih =>
      cases statement with
      | createTable statement =>
          rw [applyNested]
          exact CreateTable.apply_reaches hread
      | alterTable statement =>
          rw [applyNested]
          refine AlterTable.apply_reaches hread fun clause catalog => ?_
          cases depth with
          | zero => exact reaches_throw _
          | succ depth =>
              refine reaches_ofExcept_bind fun nested hnested => ?_
              exact ih depth (Nat.lt_succ_self depth) (wasRead_of_read (ofReading_eq_ok.mp hnested))
      | dropTables removal =>
          rw [applyNested]
          exact reaches_forM fun name _ catalog => dropNamedTable_reaches removal.ifExists name
      | createSchema statement =>
          rw [applyNested]
          exact reaches_modify (.single (.ensureSchema statement.name))
      | createEnum statement =>
          rw [applyNested]
          exact statement.apply_reaches
      | dropTypes removal =>
          rw [applyNested]
          exact reaches_modify (Catalog.withoutEnum_reaches removal.names)
      | _ =>
          rw [applyNested]
          exact reaches_pure ()

/-- Every text changes the catalog by steps. -/
theorem applyText_reaches (origin : Origin) (text : String) (catalog : Catalog) :
    Reaches origin.Step (applyText origin text) catalog :=
  reaches_ofExcept_bind fun _ hread =>
    applyNested_reaches (wasRead_of_read (ofReading_eq_ok.mp hread)) nestingDepth

end Statement

end Schemata
