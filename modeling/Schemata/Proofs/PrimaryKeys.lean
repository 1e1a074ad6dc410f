import Schemata.Migration
import Schemata.Proofs.Catalog.Reachable
import Schemata.Proofs.Statement.Header
import Schemata.Proofs.Statement.Operation

/-!
# Primary keys along a replay

A column of a primary key is never empty, never an array, and has the type that the database family
demands (`Column.FitsKey`).  The flag, the nullability and the type of a column are set in many
places, and only some of them check: a definition checks the type when all its constraints are read,
a primary key of a table marks its columns and checks each, and an alteration checks the column that
it puts back.  What an unchecked place does is to leave a fit column fit, by setting nothing of the
three or by clearing the flag.  Each of them keeps the columns fit:

* `ColumnDefinition.fitsKey_of_read`: a column as declared, in whatever order its constraints stand;
* `CreateTable.fitsKey_of_read`: the columns of a table, with its table-level primary key;
* `Operation.fitsKeys_alterations`: the alterations that carry out an operation on a table.

So all primary keys fit along every run of a replay (`primaryKeys_afterReplay`).
-/

namespace Schemata

/-! ## Columns, tables and alterations that fit -/

/-- If the column is part of a primary key, it is neither nullable nor an array and has the type
that the family demands. -/
def Column.FitsKey (family : Family) (column : Column) : Prop :=
  column.primaryKey = true →
    column.nullable = false ∧ column.array = false ∧ column.dataType.name = family.primaryKeyType

/-- All columns of the table fit. -/
def Table.FitsKeys (family : Family) (table : Table) : Prop :=
  ∀ column ∈ table.columns, column.FitsKey family

/-- A column that the alteration puts into the table fits. -/
def Alteration.FitsKeys (family : Family) : Alteration → Prop
  | addColumn column => column.FitsKey family
  | modifyColumn column => column.FitsKey family
  | _ => True

/-- A column that the operation adds fits. -/
def Operation.FitsKeys (family : Family) : Operation → Prop
  | addColumn definition _ => definition.column.FitsKey family
  | _ => True

section Columns

variable {family : Family} {origin : Origin} {column : Column}

theorem Column.fitsKey_iff : column.FitsKey family ↔
    (column.primaryKey = true → column.nullable = false) ∧ family.accepts column = true := by
  simp only [FitsKey, Family.accepts, Bool.or_eq_true, Bool.not_eq_true', Bool.and_eq_true,
    beq_iff_eq]
  cases column.primaryKey <;> simp [and_comm]

/-- A column without the flag fits. -/
theorem Column.fitsKey_of_primaryKey_eq_false (hflag : column.primaryKey = false) :
    column.FitsKey family := by
  intro htrue
  rw [hflag] at htrue
  cases htrue

theorem Origin.checkPrimaryKey_eq_ok_iff {table : String} :
    origin.checkPrimaryKey table column = .ok () ↔ origin.family.accepts column = true := by
  unfold checkPrimaryKey
  split
  · simp [*]
  · simp [*]

end Columns

/-! ## Declared columns -/

section Reading

variable {origin : Origin} {text table : String}

/-- Constraints keep primary keys from being nullable, in whatever order they stand. -/
theorem ColumnDraft.nullable_foldl_add (constraints : List ColumnConstraint) (draft : ColumnDraft)
    (hdraft : draft.column.primaryKey = true → draft.column.nullable = false) :
    (constraints.foldl add draft).column.primaryKey = true →
      (constraints.foldl add draft).column.nullable = false := by
  induction constraints generalizing draft with
  | nil => exact hdraft
  | cons constraint rest ih =>
      refine ih (draft.add constraint) ?_
      cases constraint with
      | notNull => exact fun _ => rfl
      | null =>
          -- Behind the key, `NULL` does nothing; in front of it, the key has the last word.
          rw [add]
          split
          · exact hdraft
          · rename_i hflag
            exact fun hkey => absurd hkey hflag
      | primaryKey => exact fun _ => rfl
      | _ => exact hdraft

theorem ColumnDefinition.readColumn_returns (file : String) :
    Reading.Returns (fun column : Column => column.primaryKey = false) (readColumn file) := by
  refine Reading.returns_bind fun name => Reading.returns_bind fun words => ?_
  split
  · exact Reading.returns_fail _
  split
  · exact Reading.returns_fail _
  · exact Reading.returns_pure rfl

theorem ColumnDefinition.readWords_returns (file : String) :
    Reading.Returns (fun definition : ColumnDefinition =>
      definition.column.primaryKey = true → definition.column.nullable = false)
      (readWords file) := by
  refine (readColumn_returns file).bind fun column hflag => ?_
  refine Reading.returns_bind fun constraints => Reading.returns_pure ?_
  exact ColumnDraft.nullable_foldl_add constraints ⟨column, none, none⟩
    fun hkey => absurd hkey (by simp [hflag])

/-- A declared column fits. -/
theorem ColumnDefinition.fitsKey_of_read {definition : ColumnDefinition}
    (hread : read origin table text = .ok definition) :
    definition.column.FitsKey origin.family := by
  simp only [read, except_bind_eq_ok, except_pure_eq_ok] at hread
  obtain ⟨declared, hwords, ⟨⟩, hcheck, rfl⟩ := hread
  exact Column.fitsKey_iff.mpr
    ⟨(readWords_returns origin.file).ofText hwords, Origin.checkPrimaryKey_eq_ok_iff.mp hcheck⟩

/-! ## Tables as declared -/

/-- The columns gathered so far have different names, and all of them fit. -/
structure ColumnsFit (family : Family) (columns : List Column) : Prop where
  nodup : (columns.map Column.name).Nodup
  fits : ∀ column ∈ columns, column.FitsKey family

theorem CreateTable.blame_eq_ok_iff {α : Type} {result : Except Fault α} {value : α} :
    blame origin text result = .ok value ↔ result = .ok value := by
  cases result <;> simp [blame]

theorem TableBody.columns_addConstraint {body next : TableBody} {constraint : TableConstraint}
    (hadd : body.addConstraint constraint = .ok next) : next.columns = body.columns := by
  unfold addConstraint at hadd
  split at hadd
  · split at hadd
    · cases hadd
      rfl
    · cases hadd
  · cases hadd
    rfl
  · cases hadd
    rfl
  · cases hadd
    rfl

/-- A column is added behind the others if its name is new. -/
theorem TableBody.addColumn_eq_ok_iff {body next : TableBody} {definition : ColumnDefinition} :
    body.addColumn definition = .ok next ↔
      definition.column.name ∉ body.columns.map Column.name ∧ { body with
        columns := body.columns ++ [definition.column]
        foreignKeys := body.foreignKeys ++ definition.foreignKey.toList } = next := by
  have hused : body.columns.any (·.name == definition.column.name) = true ↔
      definition.column.name ∈ body.columns.map Column.name := by
    simp [List.mem_map]
  rw [addColumn]
  split
  · rename_i hname
    exact ⟨fun herror => (nomatch herror), fun hnew => absurd (hused.mp hname) hnew.1⟩
  · rename_i hname
    rw [Except.ok.injEq]
    exact (and_iff_right (mt hused.mpr hname)).symm

/-- Every clause keeps the columns fit. -/
theorem CreateTable.fits_readClause {body next : TableBody} {clause : String}
    (hbody : ColumnsFit origin.family body.columns)
    (hclause : readClause origin text table body clause = .ok next) :
    ColumnsFit origin.family next.columns := by
  simp only [readClause, except_bind_eq_ok] at hclause
  obtain ⟨constraint?, -, hclause⟩ := hclause
  cases constraint? with
  | some constraint =>
      rw [TableBody.columns_addConstraint (blame_eq_ok_iff.mp hclause)]
      exact hbody
  | none =>
      simp only [except_bind_eq_ok, blame_eq_ok_iff] at hclause
      obtain ⟨definition, hread, hadd⟩ := hclause
      obtain ⟨hfresh, rfl⟩ := TableBody.addColumn_eq_ok_iff.mp hadd
      refine ⟨nodup_map_concat hbody.nodup hfresh, fun column hcolumn => ?_⟩
      rcases List.mem_append.mp hcolumn with hold | hnew
      · exact hbody.fits column hold
      · rw [List.mem_singleton.mp hnew]
        exact ColumnDefinition.fitsKey_of_read hread

/-- Making a column part of the primary key keeps the columns fit: no other column has its name, and
its type is checked. -/
theorem CreateTable.fits_markKey {columns next : List Column} {key : String}
    (hcolumns : ColumnsFit origin.family columns)
    (hmark : markKey origin text table columns key = .ok next) :
    ColumnsFit origin.family next := by
  unfold markKey at hmark
  split at hmark
  · cases hmark
  · rename_i found hfound
    simp only [except_bind_eq_ok, except_pure_eq_ok] at hmark
    obtain ⟨⟨⟩, hcheck, rfl⟩ := hmark
    constructor
    · have hnames : (mapColumn Column.asPrimaryKey key columns).map Column.name =
          columns.map Column.name := by
        rw [mapColumn, List.map_map]
        refine List.map_congr_left fun column _ => ?_
        rw [Function.comp_apply]
        split <;> rfl
      rw [hnames]
      exact hcolumns.nodup
    · intro column hcolumn
      obtain ⟨old, hold, rfl⟩ := List.mem_map.mp hcolumn
      split
      · rename_i hname
        have hfoundName : found.name = key := by simpa using List.find?_some hfound
        -- Names are apart, so the marked column is the one that was checked.
        have hsame : old = found := List.inj_on_of_nodup_map hcolumns.nodup hold
          (List.mem_of_find?_eq_some hfound) ((beq_iff_eq.mp hname).trans hfoundName.symm)
        rw [hsame]
        exact Column.fitsKey_iff.mpr
          ⟨fun _ => rfl, Origin.checkPrimaryKey_eq_ok_iff.mp hcheck⟩
      · exact hcolumns.fits old hold

/-- The flag of a uniqueness constraint does not matter. -/
theorem CreateTable.fits_foldl_unique {family : Family} (names : List String)
    {columns : List Column} (hcolumns : ∀ column ∈ columns, column.FitsKey family) :
    ∀ column ∈ names.foldl
      (fun columns name => mapColumn ({ · with unique := true }) name columns) columns,
        column.FitsKey family := by
  induction names generalizing columns with
  | nil => exact hcolumns
  | cons name rest ih =>
      refine ih fun column hcolumn => ?_
      obtain ⟨old, hold, rfl⟩ := List.mem_map.mp hcolumn
      split
      · exact hcolumns old hold
      · exact hcolumns old hold

/-- The columns of a declared table fit. -/
theorem CreateTable.fitsKey_of_read {statement : CreateTable}
    (hread : read origin text = .ok statement) :
    ∀ column ∈ statement.columns, column.FitsKey origin.family := by
  simp only [read, except_bind_eq_ok] at hread
  obtain ⟨header, -, hread⟩ := hread
  split at hread
  · cases blame_eq_ok_iff.mp hread
  · simp only [except_bind_eq_ok, except_pure_eq_ok] at hread
    obtain ⟨body, hclauses, columns, hmark, rfl⟩ := hread
    have hempty : ColumnsFit origin.family TableBody.empty.columns :=
      ⟨List.nodup_nil, fun _ hcolumn => absurd hcolumn List.not_mem_nil⟩
    have hbody : ColumnsFit origin.family body.columns :=
      foldlM_ok_induction (P := fun body => ColumnsFit origin.family body.columns)
        (fun _ _ _ _ hstart hnext => fits_readClause hstart hnext) hempty hclauses
    simp only [markColumns, except_bind_eq_ok, except_pure_eq_ok] at hmark
    obtain ⟨keyed, hkeyed, rfl⟩ := hmark
    have hfits : ColumnsFit origin.family keyed :=
      foldlM_ok_induction (P := ColumnsFit origin.family)
        (fun _ _ _ _ hstart hnext => fits_markKey hstart hnext) hbody hkeyed
    exact fits_foldl_unique body.unique hfits.fits

/-! ## Operations -/

/-- A column that an operation adds was declared. -/
theorem Operation.fitsKeys_of_read {operation : Operation}
    (hread : read origin table text = .ok operation) : operation.FitsKeys origin.family := by
  obtain ⟨-, hdirect | ⟨constraint, rfl⟩ | ⟨added, definition, ifNotExists, hcolumn, rfl⟩⟩ | rfl :=
    read_cases hread
  · cases operation <;> first | exact trivial | cases hdirect
  · exact trivial
  · exact ColumnDefinition.fitsKey_of_read hcolumn
  · exact trivial

theorem AlterTable.fitsKeys_of_read {statement : AlterTable}
    (hread : read origin text = .ok statement) :
    statement.operation.FitsKeys origin.family := by
  obtain ⟨clauses, -, ⟨clause, -, hoperation⟩ | ⟨-, hseveral⟩⟩ := read_cases hread
  · exact Operation.fitsKeys_of_read hoperation
  · rw [hseveral]
    exact trivial

end Reading

/-! ## Operations as alterations -/

section Alterations

variable {origin : Origin} {family : Family} {table edited : Table} {column changed : Column}
  {alteration : Alteration} {alterations : List Alteration}

/-- A column found in a table that fits is fit. -/
theorem Table.FitsKeys.of_column (hfits : table.FitsKeys family) {name : String}
    (hcolumn : table.column name = .ok column) : column.FitsKey family :=
  hfits column (column?_mem_name (column_eq_ok_iff.mp hcolumn)).1

/-- No change makes a primary key nullable. -/
theorem ColumnChange.nullable_change {change : ColumnChange}
    (hfits : column.FitsKey family)
    (hchange : change.change origin table column = .ok changed) :
    changed.primaryKey = true → changed.nullable = false := by
  have hnullable := (Column.fitsKey_iff.mp hfits).1
  cases change with
  | dropNotNull =>
      simp only [ColumnChange.change] at hchange
      split at hchange
      · cases hchange
      · rename_i hflag
        cases hchange
        exact fun hkey => absurd hkey hflag
  | setNotNull =>
      cases hchange
      exact fun _ => rfl
  | unsupported text => cases hchange
  | _ =>
      cases hchange
      exact hnullable

/-- A column is put back only if it fits. -/
theorem Alteration.fitsKeys_putBack
    (hnullable : column.primaryKey = true → column.nullable = false)
    (hput : putBack origin table column = .ok alteration) :
    alteration.FitsKeys origin.family := by
  simp only [putBack, except_bind_eq_ok, except_pure_eq_ok] at hput
  obtain ⟨⟨⟩, hcheck, rfl⟩ := hput
  exact Column.fitsKey_iff.mpr
    ⟨hnullable, Origin.checkPrimaryKey_eq_ok_iff.mp (Change.ofReading_eq_ok.mp hcheck)⟩

theorem TableConstraint.fitsKeys_alterations {constraint : TableConstraint}
    (hfits : table.FitsKeys origin.family)
    (halterations : constraint.alterations origin table = .ok alterations) :
    ∀ alteration ∈ alterations, alteration.FitsKeys origin.family := by
  unfold TableConstraint.alterations at halterations
  split at halterations
  · -- the columns of a primary key are put back flagged, after a check
    intro alteration halteration
    obtain ⟨name, -, hput⟩ := mem_of_mapM_eq_ok halterations halteration
    simp only [except_bind_eq_ok] at hput
    obtain ⟨column, -, hput⟩ := hput
    exact Alteration.fitsKeys_putBack (fun _ => rfl) hput
  · cases halterations
    intro alteration halteration
    obtain ⟨key, -, rfl⟩ := List.mem_map.mp halteration
    exact trivial
  · -- a unique column is put back without a check, and was fit before
    simp only [except_bind_eq_ok, except_pure_eq_ok] at halterations
    obtain ⟨column, hcolumn, rfl⟩ := halterations
    intro alteration halteration
    rw [List.mem_singleton.mp halteration]
    have hold : column.FitsKey origin.family := hfits.of_column hcolumn
    exact hold
  · cases halterations
    exact fun _ halteration => absurd halteration List.not_mem_nil

/-- Dropping a constraint never flags a column. -/
theorem Table.fitsKeys_constraintRemoval (table : Table) (file name : String) :
    ∀ alteration ∈ table.constraintRemoval file name, alteration.FitsKeys family := by
  unfold constraintRemoval
  intro alteration halteration
  split at halteration
  · rw [List.mem_singleton.mp halteration]
    exact trivial
  split at halteration
  · obtain ⟨column, -, rfl⟩ := List.mem_map.mp halteration
    exact Column.fitsKey_of_primaryKey_eq_false rfl
  · cases halteration

/-- The alterations that carry out an operation keep the columns of a table fit. -/
theorem Operation.fitsKeys_alterations {operation : Operation}
    (hoperation : operation.FitsKeys origin.family) (hfits : table.FitsKeys origin.family)
    (halterations : operation.alterations origin table = .ok alterations) :
    ∀ alteration ∈ alterations, alteration.FitsKeys origin.family := by
  -- by the operation; only a new column and one that is put back can break anything
  cases operation with
  | addColumn definition ifNotExists =>
      simp only [Operation.alterations] at halterations
      split at halterations
      · cases halterations
        exact List.forall_mem_nil _
      · cases halterations
        refine List.forall_mem_cons.mpr ⟨hoperation, fun alteration halteration => ?_⟩
        obtain ⟨key, -, rfl⟩ := List.mem_map.mp halteration
        exact trivial
  | dropColumn name ifExists =>
      simp only [Operation.alterations] at halterations
      split at halterations
      · cases halterations
        exact List.forall_mem_nil _
      · cases halterations
        exact List.forall_mem_singleton.mpr trivial
  | alterColumn name change =>
      simp only [Operation.alterations, except_bind_eq_ok, except_pure_eq_ok] at halterations
      obtain ⟨column, hcolumn, changed, hchange, putBack, hput, rfl⟩ := halterations
      exact List.forall_mem_singleton.mpr (Alteration.fitsKeys_putBack
        (ColumnChange.nullable_change (hfits.of_column hcolumn) hchange) hput)
  | renameColumn source target =>
      cases halterations
      exact List.forall_mem_singleton.mpr trivial
  | addConstraint constraint => exact constraint.fitsKeys_alterations hfits halterations
  | dropConstraint name ifExists =>
      cases halterations
      exact table.fitsKeys_constraintRemoval origin.file name
  | renameConstraint source target =>
      cases halterations
      split
      · exact List.forall_mem_singleton.mpr trivial
      · exact List.forall_mem_nil _
  | unsupported text => cases halterations
  | _ =>
      cases halterations
      exact List.forall_mem_nil _

/-- An alteration that keeps the columns of a table fit. -/
theorem Table.Edited.fitsKeys (hedited : table.Edited alteration edited)
    (hfits : table.FitsKeys family) (halteration : alteration.FitsKeys family) :
    edited.FitsKeys family := by
  -- by what the edit can do: a column is an old one, perhaps with another name, or the new one
  cases hedited with
  | @addColumn added hfresh =>
      intro column hcolumn
      rcases List.mem_append.mp hcolumn with hold | hnew
      · exact hfits column hold
      · rw [List.mem_singleton.mp hnew]
        exact halteration
  | dropColumn hdropped =>
      intro column hcolumn
      exact hfits column (List.mem_of_mem_eraseP hcolumn)
  | modifyColumn hchanged =>
      intro column hcolumn
      rcases mem_changeFirst hcolumn with hold | ⟨old, -, -, rfl⟩
      · exact hfits column hold
      · exact halteration
  | renameColumn hcolumn hne hfresh =>
      intro column hcolumn
      rcases mem_changeFirst hcolumn with hold | ⟨old, hold, -, rfl⟩
      · exact hfits column hold
      · exact hfits old hold
  | _ => exact hfits

end Alterations

/-! ## Along a replay -/

/-- All columns of all tables fit. -/
def Catalog.FitsKeys (family : Family) (catalog : Catalog) : Prop :=
  ∀ ⦃schema name : String⦄ ⦃table : Table⦄, catalog.table? schema name = some table →
    table.FitsKeys family

section Steps

variable {origin : Origin} {family : Family} {before after : Catalog}

/-- A table that a text describes fits. -/
theorem Origin.Describes.fitsKeys {table : Table} (h : origin.Describes table) :
    table.FitsKeys origin.family := by
  obtain ⟨text, statement, schema, hread, htable⟩ := h
  have hcolumns := CreateTable.fitsKey_of_read hread
  have hempty : (Table.empty schema statement.name.base origin.file).FitsKeys origin.family :=
    fun _ hcolumn => nomatch hcolumn
  refine CreateTable.table_induction hempty ?_ ?_ htable
  · exact fun start column next hcolumn hstart hedited =>
      hedited.fitsKeys hstart (hcolumns column hcolumn)
  · exact fun start key next hstart hedited => hedited.fitsKeys hstart trivial

/-- Every step that a text brings about keeps the columns fit. -/
theorem Origin.Step.fitsKeys (hstep : origin.Step before after)
    (hfits : before.FitsKeys origin.family) : after.FitsKeys origin.family := by
  refine Catalog.Step.everyTable hstep hfits (fun _ _ _ hmoved => hmoved)
    (fun _ => Origin.Describes.fitsKeys) fun table alterations altered htable halters hcopy => ?_
  obtain ⟨text, statement, hread, halterations⟩ := halters
  have hfit :=
    Operation.fitsKeys_alterations (AlterTable.fitsKeys_of_read hread) htable halterations
  refine foldlM_ok_induction (P := Table.FitsKeys origin.family) ?_ htable hcopy
  intro start alteration next halteration hstart hnext
  obtain ⟨hedited, -⟩ := Alteration.alter_eq_ok_iff.mp hnext
  exact hedited.fitsKeys hstart (hfit alteration halteration)

end Steps

/-- A call that carries out part of a replay. -/
inductive ReplayCall where
  | statement (file text : String)
  | migration (single : Migration)
  | migrations (list : List Migration)
  deriving DecidableEq, Repr, Inhabited

/-- The change that a call of a replay makes. -/
def ReplayCall.change (family : Family) : ReplayCall → Change Unit
  | statement file text => Migration.applyStatement family file text
  | migration single => single.apply family
  | migrations list => Migration.applyAll family list

/-- The catalog that calls of a replay leave, one after the other, each whether it succeeds or
fails. -/
def afterReplay (family : Family) (start : Catalog) (calls : List ReplayCall) : Catalog :=
  calls.foldl (fun catalog call => (call.change family).after catalog) start

section Replay

variable {family : Family} {catalog : Catalog}

/-- Naming the file and the statement in an error does not change what is left. -/
theorem Migration.after_applyStatement (family : Family) (file text : String) (catalog : Catalog) :
    (applyStatement family file text).after catalog =
      (Statement.applyText ⟨file, family⟩ text).after catalog := by
  unfold applyStatement
  generalize Statement.applyText ⟨file, family⟩ text = change
  unfold Change.after EStateM.run
  dsimp only
  cases change catalog <;> rfl

/-- One successful operation of the catalog, as a text of any file brings it about. -/
abbrev Family.Step (family : Family) (before after : Catalog) : Prop :=
  ∃ file, Origin.Step ⟨file, family⟩ before after

theorem Migration.applyStatement_reaches (file text : String) :
    Change.Reaches family.Step (applyStatement family file text) catalog := by
  unfold Change.Reaches
  rw [after_applyStatement]
  exact Relation.ReflTransGen.mono (fun _ _ hstep => ⟨file, hstep⟩) _ _
    (Statement.applyText_reaches ⟨file, family⟩ text catalog)

theorem Migration.apply_reaches (migration : Migration) :
    Change.Reaches family.Step (migration.apply family) catalog := by
  unfold apply
  exact Change.reaches_forM fun text _ _ => applyStatement_reaches migration.file text

theorem ReplayCall.change_reaches (call : ReplayCall) :
    Change.Reaches family.Step (call.change family) catalog := by
  cases call with
  | statement file text => exact Migration.applyStatement_reaches file text
  | migration single => exact single.apply_reaches
  | migrations list =>
      unfold change Migration.applyAll
      exact Change.reaches_forM fun migration _ _ => migration.apply_reaches

/-- What every step of a replay keeps holds along the replay. -/
theorem afterReplay_induction {P : Catalog → Prop}
    (hstep : ∀ file before after, P before → Origin.Step ⟨file, family⟩ before after → P after)
    (hstart : P catalog) (calls : List ReplayCall) : P (afterReplay family catalog calls) := by
  induction calls generalizing catalog with
  | nil => exact hstart
  | cons call rest ih =>
      refine ih (call.change_reaches.induction (P := P) ?_ hstart)
      rintro before after hbefore ⟨file, horigin⟩
      exact hstep file before after hbefore horigin

theorem fitsKeys_afterReplay (calls : List ReplayCall) (hfits : catalog.FitsKeys family) :
    (afterReplay family catalog calls).FitsKeys family :=
  afterReplay_induction (fun _ _ _ hbefore hstep => hstep.fitsKeys hbefore) hfits calls

end Replay

/-- From every catalog that a replay may start with, whatever is carried out and whether it succeeds
or fails part-way, every column of a primary key is neither nullable nor an array and has the type
that the family demands. -/
theorem primaryKeys_afterReplay {settings : Settings} {start : Catalog}
    (hstart : settings.catalog = .ok start) (calls : List ReplayCall) {schema name : String}
    {table : Table}
    (htable : (afterReplay settings.family start calls).table? schema name = some table) :
    ∀ column ∈ table.columns, column.primaryKey = true →
      column.nullable = false ∧ column.array = false ∧
        column.dataType.name = settings.family.primaryKeyType := by
  have hempty : start.FitsKeys settings.family := by
    simp only [Settings.catalog, except_bind_eq_ok, except_pure_eq_ok] at hstart
    obtain ⟨⟨⟩, -, rfl⟩ := hstart
    intro query other found hfound
    rw [Catalog.table?_new] at hfound
    cases hfound
  exact fitsKeys_afterReplay calls hempty htable

/-- The word `NULL` behind `PRIMARY KEY` does not make the column nullable. -/
theorem primaryKeys_afterReplay_inline :
    ∃ start table, Settings.standard.catalog = .ok start ∧
      (afterReplay Settings.standard.family start
        [.statement "1.sql" "CREATE TABLE t (id uuid PRIMARY KEY NULL)"]).table? "public" "t" =
          some table ∧
      ∃ column ∈ table.columns, column.primaryKey = true ∧ column.nullable = false ∧
        column.array = false ∧
        column.dataType.name = Settings.standard.family.primaryKeyType := by
  have hstart : Settings.standard.catalog = .ok (Catalog.new "public") := by decide +kernel
  have hkey : ((afterReplay Settings.standard.family (Catalog.new "public")
      [.statement "1.sql" "CREATE TABLE t (id uuid PRIMARY KEY NULL)"]).table? "public" "t").any
        (·.columns.any (·.primaryKey)) = true := by
    decide +kernel
  obtain ⟨table, htable, hcolumns⟩ := (Option.any_eq_true _ _).mp hkey
  obtain ⟨column, hcolumn, hflag⟩ := List.any_eq_true.mp hcolumns
  exact ⟨_, table, hstart, htable, column, hcolumn, hflag,
    primaryKeys_afterReplay hstart _ htable column hcolumn hflag⟩

end Schemata
