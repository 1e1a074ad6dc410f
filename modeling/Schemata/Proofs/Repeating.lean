import Schemata.Proofs.Catalog.Renaming
import Schemata.Proofs.Statement.EnumDeclaration
import Schemata.Proofs.Statement.Success

/-!
# Statements carried out twice

Some statements guard themselves, and some say how a thing is to be and not what to do to it.  Such
a statement (`Statement.isSettling`) may be carried out twice: the second time it finds everything
as it wants it.

The shape of the argument is the same on every level.  There is a condition under which a step
leaves the state alone; the step itself brings the condition about; and what comes later does not
undo it.  For a list of names the condition is one per name, and a name may come twice.  For an
operation on a table it is about the alterations that it asks for: of the altered table it asks for
none, or for columns to be put in the place of equal ones (`Alteration.IsHeld`).  That is seen from
the altered copy before the foreign keys of the table have followed, and following changes no
column, so the columns of the two tables are all that is compared.

* `foldl_foldl_of_settled`: a list of steps that settle their items, for names that repeat.
* `Operation.alterations_settled`: what a second run asks of the altered table is there already.
* `Catalog.operate_again`, `Statement.run_apply_again`: the same for catalogs and for statements.

So the text of such a statement changes nothing when it comes again
(`settling_again_afterReplay`).
-/

namespace Schemata

/-! ## Lists of steps that settle -/

section Settling

variable {σ α : Type} {step : σ → α → σ}

theorem foldl_eq_self {items : List α} {state : σ}
    (hsame : ∀ item ∈ items, step state item = state) : items.foldl step state = state := by
  induction items with
  | nil => rfl
  | cons item rest ih =>
      rw [List.foldl_cons, hsame item List.mem_cons_self]
      exact ih fun other hother => hsame other (List.mem_cons_of_mem _ hother)

/-- A second run over a list finds every item settled, if a step settles its own item and no step
unsettles another. -/
theorem foldl_foldl_of_settled (Settled : σ → α → Prop)
    (hsettles : ∀ state item, Settled (step state item) item)
    (hkeeps : ∀ state item other, Settled state item → Settled (step state other) item)
    (hsame : ∀ state item, Settled state item → step state item = state)
    (items : List α) (state : σ) :
    items.foldl step (items.foldl step state) = items.foldl step state := by
  have hkept : ∀ (others : List α) state item, Settled state item →
      Settled (others.foldl step state) item := by
    intro others
    induction others with
    | nil => exact fun _ _ hsettled => hsettled
    | cons other rest ih =>
        exact fun state item hsettled => ih _ item (hkeeps state item other hsettled)
  refine foldl_eq_self fun item hitem => hsame _ item ?_
  induction items generalizing state with
  | nil => cases hitem
  | cons first rest ih =>
      rcases List.mem_cons.mp hitem with rfl | hitem
      · exact hkept rest _ item (hsettles state item)
      · exact ih (step state first) hitem

end Settling

section Results

variable {α β ε : Type} {step other : α → Except ε β} {items : List α} {results : List β}

theorem exists_mem_of_mapM_eq_ok (hrun : items.mapM step = .ok results) {item : α}
    (hitem : item ∈ items) : ∃ result ∈ results, step item = .ok result := by
  induction items generalizing results with
  | nil => cases hitem
  | cons first rest ih =>
      rw [List.mapM_cons] at hrun
      simp only [except_bind_eq_ok, except_pure_eq_ok] at hrun
      obtain ⟨result, hfirst, others, hothers, rfl⟩ := hrun
      rcases List.mem_cons.mp hitem with rfl | hitem
      · exact ⟨result, List.mem_cons_self, hfirst⟩
      · obtain ⟨found, hfound, hstep⟩ := ih hothers hitem
        exact ⟨found, List.mem_cons_of_mem _ hfound, hstep⟩

theorem mapM_eq_ok_of_forall (hrun : items.mapM step = .ok results)
    (hsame : ∀ item ∈ items, ∀ result, step item = .ok result → other item = .ok result) :
    items.mapM other = .ok results := by
  induction items generalizing results with
  | nil => exact hrun
  | cons first rest ih =>
      obtain ⟨hfirst, hrest⟩ := List.forall_mem_cons.mp hsame
      rw [List.mapM_cons] at hrun ⊢
      simp only [except_bind_eq_ok, except_pure_eq_ok] at hrun ⊢
      obtain ⟨result, hresult, others, hothers, rfl⟩ := hrun
      exact ⟨result, hfirst result hresult, others, ih hothers hrest, rfl⟩

theorem mapM_map_result {γ : Type} (change : β → γ) :
    (items.mapM fun item => (step item).map change) = (items.mapM step).map (List.map change) := by
  induction items with
  | nil => rfl
  | cons first rest ih =>
      rw [List.mapM_cons, List.mapM_cons, ih]
      cases step first with
      | error error => rfl
      | ok result =>
          cases rest.mapM step <;> rfl

end Results

/-! ## Columns that stand as they are put back -/

section Replacing

variable {α : Type} {label : α → String} {source : String} {items : List α} {new : α}

/-- Where the new item stands and where nothing has changed. -/
theorem find?_changeFirst_const (hnew : label new = source) (query : String) :
    (changeFirst (label · == source) (fun _ => new) items).find? (label · == query) =
      if query = source then (items.find? (label · == source)).map fun _ => new
      else items.find? (label · == query) := by
  induction items with
  | nil => simp [changeFirst]
  | cons item rest ih =>
      rw [changeFirst]
      by_cases hitem : label item = source
      · by_cases hquery : query = source
        · simp [hitem, hquery, hnew]
        · simp [hitem, hquery, hnew, Ne.symm hquery]
      · by_cases hquery : query = source
        · subst hquery
          simp only [if_true] at ih ⊢
          simp [hitem, ih]
        · rw [if_neg hquery] at ih ⊢
          simp [hitem, List.find?_cons, ih]

theorem changeFirst_eq_self (hfound : items.find? (label · == source) = some new) :
    changeFirst (label · == source) (fun _ => new) items = items := by
  induction items with
  | nil => rfl
  | cons item rest ih =>
      rw [changeFirst]
      by_cases hitem : label item = source
      · have hsame : item = new := by simpa [hitem] using hfound
        rw [hsame] at hitem ⊢
        simp [hitem]
      · have hrest : rest.find? (label · == source) = some new := by simpa [hitem] using hfound
        simp [hitem, ih hrest]

end Replacing

/-- The alteration puts a column of the table back as it stands. -/
def Alteration.IsHeld (table : Table) (alteration : Alteration) : Prop :=
  ∃ column, alteration = .modifyColumn column ∧ table.column? column.name = some column

namespace Table

variable {catalog : Catalog} {table altered : Table} {columns : List Column} {column : Column}

theorem column?_modifyColumn (hmodify : table.modifyColumn column = .ok altered) (name : String) :
    altered.column? name = if name = column.name then some column else table.column? name := by
  obtain ⟨hcolumn, rfl⟩ := modifyColumn_eq_ok_iff.mp hmodify
  rw [column?, find?_changeFirst_const rfl, ← column?]
  split
  · obtain ⟨old, hold⟩ := Option.isSome_iff_exists.mp (isSome_column?.trans hcolumn)
    rw [hold, Option.map_some]
  · rfl

theorem modifyColumn_eq_self (hcolumn : table.column? column.name = some column) :
    table.modifyColumn column = .ok table := by
  have hhas : table.hasColumn column.name = true := by
    rw [← isSome_column?, hcolumn]
    rfl
  rw [modifyColumn_eq_ok_iff, changeFirst_eq_self hcolumn]
  exact ⟨hhas, rfl⟩

/-- Alterations that are held leave the table as it is. -/
theorem foldlM_alter_of_held {alterations : List Alteration}
    (hheld : ∀ alteration ∈ alterations, alteration.IsHeld table) :
    alterations.foldlM (Alteration.alter catalog) table = .ok table := by
  induction alterations with
  | nil => rfl
  | cons alteration rest ih =>
      obtain ⟨⟨column, rfl, hcolumn⟩, hrest⟩ := List.forall_mem_cons.mp hheld
      have hstep : Alteration.alter catalog table (.modifyColumn column) = .ok table :=
        modifyColumn_eq_self hcolumn
      rw [List.foldlM_cons, hstep]
      exact ih hrest

/-- A column found after others were put back is an old one or was put back under its name. -/
theorem column?_of_foldlM_modifyColumn
    (hrun : (columns.map Alteration.modifyColumn).foldlM (Alteration.alter catalog) table =
      .ok altered) (name : String) :
    altered.column? name = table.column? name ∨
      ∃ column ∈ columns, column.name = name ∧ altered.column? name = some column := by
  induction columns generalizing table with
  | nil =>
      cases hrun
      exact Or.inl rfl
  | cons first rest ih =>
      rw [List.map_cons, List.foldlM_cons, except_bind_eq_ok] at hrun
      obtain ⟨next, hnext, hrun⟩ := hrun
      rcases ih hrun with hsame | ⟨column, hcolumn, hname, hfound⟩
      · rw [column?_modifyColumn hnext] at hsame
        split at hsame
        · rename_i hfirst
          exact Or.inr ⟨first, List.mem_cons_self, hfirst.symm, hsame⟩
        · exact Or.inl hsame
      · exact Or.inr ⟨column, List.mem_cons_of_mem _ hcolumn, hname, hfound⟩

/-- Columns that are put back are found under their names, if no two of them differ and share a
name. -/
theorem column?_of_mem_foldlM_modifyColumn
    (hrun : (columns.map Alteration.modifyColumn).foldlM (Alteration.alter catalog) table =
      .ok altered)
    (hsame : ∀ first ∈ columns, ∀ second ∈ columns, first.name = second.name → first = second)
    (hcolumn : column ∈ columns) : altered.column? column.name = some column := by
  induction columns generalizing table with
  | nil => cases hcolumn
  | cons first rest ih =>
      rw [List.map_cons, List.foldlM_cons, except_bind_eq_ok] at hrun
      obtain ⟨next, hnext, hrun⟩ := hrun
      have hrest : column ∈ rest → altered.column? column.name = some column := fun hcolumn =>
        ih hrun (fun one hone other hother =>
          hsame one (List.mem_cons_of_mem _ hone) other (List.mem_cons_of_mem _ hother)) hcolumn
      rcases List.mem_cons.mp hcolumn with rfl | hcolumn
      · rcases column?_of_foldlM_modifyColumn hrun column.name with
          hkept | ⟨other, hother, hname, -⟩
        · rw [hkept, column?_modifyColumn hnext, if_pos rfl]
        · exact hrest (hsame other (List.mem_cons_of_mem _ hother) column List.mem_cons_self hname ▸
            hother)
      · exact hrest hcolumn

/-! ### Changes that leave nothing to do -/

/-- The columns of the given names, each with a change made to it. -/
def changed (table : Table) (change : Column → Except CatalogError Column) (names : List String) :
    Except CatalogError (List Column) :=
  names.mapM fun name => do change (← table.column name)

/-- The change keeps names and has nothing left to do to a column that it made. -/
def Settles (change : Table → Column → Except CatalogError Column) : Prop :=
  ∀ ⦃table column new⦄, change table column = .ok new →
    new.name = column.name ∧ ∀ other, change other new = .ok new

/-- In a table with the changed columns, the same columns are found and need no change. -/
theorem changed_settled {change : Table → Column → Except CatalogError Column}
    (hsettles : Settles change) {names : List String}
    (hchanged : table.changed (change table) names = .ok columns)
    (hrun : (columns.map Alteration.modifyColumn).foldlM (Alteration.alter catalog) table =
      .ok altered)
    {settled : Table} (hcolumns : settled.columns = altered.columns) :
    settled.changed (change settled) names = .ok columns ∧
      ∀ column ∈ columns, settled.column? column.name = some column := by
  have hstep : ∀ {name new}, (do change table (← table.column name)) = .ok new →
      ∃ old, table.column? name = some old ∧ change table old = .ok new ∧ new.name = name := by
    intro name new hnew
    obtain ⟨old, hold, hnew⟩ := except_bind_eq_ok.mp hnew
    have hold := column_eq_ok_iff.mp hold
    exact ⟨old, hold, hnew, (hsettles hnew).1.trans (column?_mem_name hold).2⟩
  -- One name stands for one column, so columns of the same name are the same.
  have hsame : ∀ first ∈ columns, ∀ second ∈ columns, first.name = second.name →
      first = second := by
    intro first hfirst second hsecond hnames
    obtain ⟨one, -, hone⟩ := mem_of_mapM_eq_ok hchanged hfirst
    obtain ⟨two, -, htwo⟩ := mem_of_mapM_eq_ok hchanged hsecond
    obtain ⟨-, -, -, rfl⟩ := hstep hone
    obtain ⟨-, -, -, rfl⟩ := hstep htwo
    rw [hnames] at hone
    exact Except.ok.inj (hone.symm.trans htwo)
  have hfound : ∀ column ∈ columns, settled.column? column.name = some column := by
    intro column hcolumn
    have haltered := column?_of_mem_foldlM_modifyColumn hrun hsame hcolumn
    rwa [column?, ← hcolumns] at haltered
  refine ⟨mapM_eq_ok_of_forall hchanged fun name hname new hnew => ?_, hfound⟩
  obtain ⟨found, hmem, hfoundNew⟩ := exists_mem_of_mapM_eq_ok hchanged hname
  obtain rfl : found = new := Except.ok.inj (hfoundNew.symm.trans hnew)
  obtain ⟨old, -, hchange, rfl⟩ := hstep hnew
  rw [except_bind_eq_ok]
  exact ⟨found, column_eq_ok_iff.mpr (hfound found hmem), (hsettles hchange).2 settled⟩

end Table

/-! ## Operations -/

/-- The changed column as it is put back, if its type is allowed. -/
def Origin.checked (origin : Origin) (table : Table) (column : Column) :
    Except CatalogError Column := do
  Change.ofReading (origin.checkPrimaryKey table.name (column.touchedBy origin.file))
  return column.touchedBy origin.file

theorem Alteration.putBack_eq (origin : Origin) (table : Table) (column : Column) :
    Alteration.putBack origin table column =
      (origin.checked table column).map .modifyColumn := by
  rw [Alteration.putBack, Origin.checked]
  cases Change.ofReading (origin.checkPrimaryKey table.name (column.touchedBy origin.file)) <;> rfl

theorem Origin.checked_eq_ok_iff {origin : Origin} {table : Table} {column new : Column} :
    origin.checked table column = .ok new ↔
      origin.family.accepts (column.touchedBy origin.file) = true ∧
        new = column.touchedBy origin.file := by
  rw [Origin.checked, Origin.checkPrimaryKey]
  cases origin.family.accepts (column.touchedBy origin.file) <;>
    simp [Change.ofReading, eq_comm]

/-- A change made once finds its column as it is to be, whoever has touched it since. -/
theorem ColumnChange.change_again {origin : Origin} {table : Table} {column new : Column}
    (change : ColumnChange) (hchange : change.change origin table column = .ok new) :
    new.name = column.name ∧
      ∀ other file, change.change origin other (new.touchedBy file) =
        .ok (new.touchedBy file) := by
  cases change with
  | dropNotNull =>
      rw [ColumnChange.change] at hchange
      split at hchange
      · cases hchange
      · rename_i hkey
        cases hchange
        exact ⟨rfl, fun other file => if_neg hkey⟩
  | unsupported text => cases hchange
  | _ =>
      cases hchange
      exact ⟨rfl, fun other file => rfl⟩

namespace Operation

variable {origin : Origin}

/-- The columns that an operation puts back and what it makes of each, if it does nothing else. -/
def replacement? (origin : Origin) : Operation →
    Option (List String × (Table → Column → Except CatalogError Column))
  | alterColumn name change =>
      some ([name], fun table column => do
        origin.checked table (← change.change origin table column))
  | addConstraint (.primaryKey _ columns) =>
      some (columns, fun table column => origin.checked table column.asPrimaryKey)
  | addConstraint (.unique _ [name]) =>
      some ([name], fun _ column => .ok ({ column with unique := true }.touchedBy origin.file))
  | _ => none

/-- A second run of the operation finds nothing to do. -/
def isSettling : Operation → Bool
  | addColumn _ ifNotExists => ifNotExists
  | dropColumn _ ifExists => ifExists
  | alterColumn _ _ => true
  | addConstraint (.primaryKey _ _) => true
  | addConstraint (.unique _ _) => true
  | _ => false

section Settling

variable {operation : Operation} {table : Table}

theorem alterations_of_replacement? {names : List String}
    {change : Table → Column → Except CatalogError Column}
    (hreplacement : operation.replacement? origin = some (names, change)) :
    operation.alterations origin table =
      (table.changed (change table) names).map (·.map .modifyColumn) := by
  rw [Table.changed, ← mapM_map_result]
  cases operation with
  | alterColumn name columnChange =>
      cases hreplacement
      rw [alterations, List.mapM_cons, List.mapM_nil]
      cases table.column name with
      | error error => rfl
      | ok column =>
          simp only [except_ok_bind, Alteration.putBack_eq]
          cases columnChange.change origin table column with
          | error error => rfl
          | ok changed =>
              simp only [except_ok_bind]
              cases origin.checked table changed <;> rfl
  | addConstraint constraint =>
      cases constraint with
      | primaryKey key columns =>
          cases hreplacement
          rw [alterations, TableConstraint.alterations]
          congr 1
          funext name
          cases table.column name with
          | error error => rfl
          | ok column => exact Alteration.putBack_eq origin table column.asPrimaryKey
      | unique key columns =>
          -- Only the constraint of a single column replaces it.
          rcases columns with _ | ⟨name, _ | ⟨second, others⟩⟩
          · cases hreplacement
          · cases hreplacement
            rw [alterations, TableConstraint.alterations, List.mapM_cons, List.mapM_nil]
            cases table.column name <;> rfl
          · cases hreplacement
      | _ => cases hreplacement
  | _ => cases hreplacement

theorem settles_replacement? {names : List String}
    {change : Table → Column → Except CatalogError Column}
    (hreplacement : operation.replacement? origin = some (names, change)) :
    Table.Settles change := by
  intro table column new hnew
  -- the name stays, and neither the change nor the check of the result depends on the other columns
  cases operation with
  | alterColumn name columnChange =>
      cases hreplacement
      obtain ⟨made, hmade, hchecked⟩ := except_bind_eq_ok.mp hnew
      obtain ⟨haccepts, rfl⟩ := Origin.checked_eq_ok_iff.mp hchecked
      obtain ⟨hname, hagain⟩ := columnChange.change_again hmade
      exact ⟨hname, fun other => except_bind_eq_ok.mpr
        ⟨_, hagain other origin.file, Origin.checked_eq_ok_iff.mpr ⟨haccepts, rfl⟩⟩⟩
  | addConstraint constraint =>
      cases constraint with
      | primaryKey key columns =>
          cases hreplacement
          obtain ⟨haccepts, rfl⟩ := Origin.checked_eq_ok_iff.mp hnew
          exact ⟨rfl, fun other => Origin.checked_eq_ok_iff.mpr ⟨haccepts, rfl⟩⟩
      | unique key columns =>
          rcases columns with _ | ⟨name, _ | ⟨second, others⟩⟩
          · cases hreplacement
          · cases hreplacement
            cases hnew
            exact ⟨rfl, fun other => rfl⟩
          · cases hreplacement
      | _ => cases hreplacement
  | _ => cases hreplacement

variable {catalog : Catalog} {altered : Table} {alterations : List Alteration}

/-- Once `ADD COLUMN IF NOT EXISTS` is carried out, the table has the column. -/
theorem hasColumn_of_addColumn {definition : ColumnDefinition}
    (halterations : (addColumn definition true).alterations origin table = .ok alterations)
    (hrun : alterations.foldlM (Alteration.alter catalog) table = .ok altered) :
    altered.hasColumn definition.column.name = true := by
  by_cases hold : table.hasColumn definition.column.name = true
  · rw [Operation.alterations, hold, Bool.true_and, if_pos rfl] at halterations
    cases halterations
    cases hrun
    exact hold
  · rw [Operation.alterations, Bool.eq_false_iff.mpr hold] at halterations
    cases halterations
    have hadded : altered = table.extend [definition.column]
        (definition.keys table.name origin.file) :=
      (Catalog.foldlM_additions_iff.mp hrun).2
    rw [hadded, Table.hasColumn_extend]
    simp

/-- Once `DROP COLUMN IF EXISTS` is carried out, the table has no such column. -/
theorem hasColumn_of_dropColumn {column : String}
    (hnodup : (table.columns.map Column.name).Nodup)
    (halterations : (dropColumn column true).alterations origin table = .ok alterations)
    (hrun : alterations.foldlM (Alteration.alter catalog) table = .ok altered) :
    altered.hasColumn column = false := by
  by_cases hold : table.hasColumn column = true
  · rw [Operation.alterations, hold] at halterations
    cases halterations
    rw [List.foldlM_cons, except_bind_eq_ok] at hrun
    obtain ⟨dropped, hdrop, hrun⟩ := hrun
    cases hrun
    obtain ⟨hedited, -⟩ := Alteration.alter_eq_ok_iff.mp hdrop
    cases hedited
    refine Bool.eq_false_iff.mpr fun hkept => ?_
    exact ((Table.hasColumn_withoutColumn hnodup).mp hkept).2 rfl
  · rw [Operation.alterations, Bool.eq_false_iff.mpr hold] at halterations
    cases halterations
    cases hrun
    exact Bool.eq_false_iff.mpr hold

/-- What asks only whether a column is there asks for nothing once it is. -/
theorem alterations_addColumn_of_hasColumn {definition : ColumnDefinition}
    (hhas : table.hasColumn definition.column.name = true) :
    (addColumn definition true).alterations origin table = .ok [] := by
  rw [Operation.alterations, hhas]
  rfl

theorem alterations_dropColumn_of_not_hasColumn {column : String}
    (hhas : table.hasColumn column = false) :
    (dropColumn column true).alterations origin table = .ok [] := by
  rw [Operation.alterations, hhas]
  rfl

variable {settled : Table}

/-- An operation that puts columns in place of others asks for the same columns again, and these
stand in the table. -/
theorem alterations_settled_of_replacement? {names : List String}
    {change : Table → Column → Except CatalogError Column}
    (hreplacement : operation.replacement? origin = some (names, change))
    (halterations : operation.alterations origin table = .ok alterations)
    (hrun : alterations.foldlM (Alteration.alter catalog) table = .ok altered)
    (hcolumns : settled.columns = altered.columns) :
    ∃ held, operation.alterations origin settled = .ok held ∧
      ∀ alteration ∈ held, alteration.IsHeld settled := by
  rw [alterations_of_replacement? hreplacement, except_map_eq_ok] at halterations
  obtain ⟨columns, hchanged, rfl⟩ := halterations
  obtain ⟨hagain, hfound⟩ := Table.changed_settled (settles_replacement? hreplacement)
    hchanged hrun hcolumns
  refine ⟨columns.map .modifyColumn, ?_, fun alteration hmem => ?_⟩
  · rw [alterations_of_replacement? hreplacement, hagain, except_map_ok]
  · obtain ⟨column, hcolumn, rfl⟩ := List.mem_map.mp hmem
    exact ⟨column, rfl, hfound column hcolumn⟩

/-- An operation that settles asks nothing more of the table with the altered columns. -/
theorem alterations_settled (hsettling : operation.isSettling = true)
    (hnodup : (table.columns.map Column.name).Nodup)
    (halterations : operation.alterations origin table = .ok alterations)
    (hrun : alterations.foldlM (Alteration.alter catalog) table = .ok altered)
    (hcolumns : settled.columns = altered.columns) :
    ∃ held, operation.alterations origin settled = .ok held ∧
      ∀ alteration ∈ held, alteration.IsHeld settled := by
  cases hreplacement : operation.replacement? origin with
  | some replacement =>
      exact alterations_settled_of_replacement? hreplacement halterations hrun hcolumns
  | none =>
      -- what puts no column in place of another asks for nothing at all the second time; it looks
      -- at the columns only, so that it does not matter which of the two tables is asked
      have hsame : ∀ column, settled.hasColumn column = altered.hasColumn column := fun column => by
        rw [Table.hasColumn, hcolumns, Table.hasColumn]
      refine ⟨[], ?_, List.forall_mem_nil _⟩
      cases operation with
      | addColumn definition ifNotExists =>
          obtain rfl : ifNotExists = true := hsettling
          exact alterations_addColumn_of_hasColumn
            ((hsame _).trans (hasColumn_of_addColumn halterations hrun))
      | dropColumn column ifExists =>
          obtain rfl : ifExists = true := hsettling
          exact alterations_dropColumn_of_not_hasColumn
            ((hsame _).trans (hasColumn_of_dropColumn hnodup halterations hrun))
      | addConstraint constraint =>
          -- a constraint over one column is a replacement, and nothing is kept of a longer one
          cases constraint with
          | unique key columns =>
              rcases columns with _ | ⟨name, _ | ⟨second, others⟩⟩
              · rfl
              · cases hreplacement
              · rfl
          | primaryKey key columns => cases hreplacement
          | _ => cases hsettling
      | alterColumn name change => cases hreplacement
      | _ => cases hsettling

end Settling

end Operation

/-! ## Catalogs -/

namespace Catalog

variable {catalog before after : Catalog} {schema : String} {name : ObjectName}

/-- A batch of alterations that are held leaves the catalog as it is. -/
theorem alterTableBatch_of_held {table : Table} {alterations : List Alteration}
    (htable : catalog.table? schema table.name = some table)
    (hheld : ∀ alteration ∈ alterations, alteration.IsHeld table) :
    catalog.alterTableBatch schema table.name alterations = .ok catalog := by
  have hfollow : alterations.foldl (Alteration.follow schema table.name) catalog = catalog := by
    refine foldl_eq_self fun alteration hmem => ?_
    obtain ⟨column, rfl, -⟩ := hheld alteration hmem
    rfl
  rw [alterTableBatch, table_eq_ok_iff.mpr htable, except_ok_bind,
    Table.foldlM_alter_of_held hheld, except_ok_bind, putTable_eq_self htable, hfollow]
  rfl

/-- An operation that settles does nothing to a catalog that it has made. -/
theorem operate_again {origin : Origin} {operation : Operation} (hsound : before.Sound)
    (hsettling : operation.isSettling = true)
    (hoperate : before.operate origin name operation = .ok after) :
    after.operate origin name operation = .ok after ∧
      after.hasTable (name.schemaOr after.defaultSchema) name.base = true := by
  simp only [operate, except_bind_eq_ok, table_eq_ok_iff] at hoperate
  obtain ⟨table, htable, alterations, halterations, hbatch⟩ := hoperate
  rw [alterTableBatch_eq_putTable htable, except_map_eq_ok] at hbatch
  obtain ⟨altered, hrun, rfl⟩ := hbatch
  generalize hplace : name.schemaOr before.defaultSchema = place at htable
  -- What becomes of the altered table afterwards concerns its foreign keys only.
  have hcolumns : (Alteration.followAll place name.base alterations altered).columns =
      altered.columns :=
    Alteration.columns_followAll
  have hname : (Alteration.followAll place name.base alterations altered).name = name.base := by
    rw [Alteration.name_followAll, (foldlM_alter_keeps hrun).2, (hsound.filed htable).2]
  obtain ⟨held, hagain, hheld⟩ := Operation.alterations_settled hsettling
    (hsound.wellFormed htable).columns_nodup halterations hrun hcolumns
  have hhas : (before.mapTables (Alteration.followAll place name.base alterations)).hasSchema
      place = true := by
    rw [hasSchema_mapTables]
    exact hasSchema_of_table? htable
  have hdefault : (before.mapTables
      (Alteration.followAll place name.base alterations)).defaultSchema =
        before.defaultSchema := rfl
  generalize Alteration.followAll place name.base alterations altered = settled
    at hcolumns hname hagain hheld ⊢
  generalize before.mapTables (Alteration.followAll place name.base alterations) = moved
    at hhas hdefault ⊢
  have hfound : (moved.putTable place settled).table? place name.base = some settled :=
    table?_putTable_self hhas hname
  have hbatch := alterTableBatch_of_held (hname ▸ hfound) hheld
  rw [hname] at hbatch
  simp only [operate, except_bind_eq_ok, table_eq_ok_iff, defaultSchema_putTable, hdefault, hplace]
  refine ⟨⟨settled, hfound, held, hagain, hbatch⟩, ?_⟩
  rw [hasTable, hfound]
  rfl

theorem ensureSchema_eq_self (hschema : catalog.hasSchema schema = true) :
    catalog.ensureSchema schema = catalog := by
  rw [ensureSchema, if_pos hschema]

/-! ### Dropping by name -/

/-- Dropping by name and dropping the same names again, for any sort of thing that has names. -/
theorem foldl_foldl_of_dropping {β : Type} (look? : Catalog → String → String → Option β)
    {without : Catalog → ObjectName → Catalog}
    (hdefault : ∀ catalog name, (without catalog name).defaultSchema = catalog.defaultSchema)
    (hnone : ∀ catalog name query other, look? (without catalog name) query other = none ↔
      query = name.schemaOr catalog.defaultSchema ∧ other = name.base ∨
        look? catalog query other = none)
    (hsame : ∀ catalog name,
      look? catalog (name.schemaOr catalog.defaultSchema) name.base = none →
        without catalog name = catalog)
    (names : List ObjectName) (catalog : Catalog) :
    names.foldl without (names.foldl without catalog) = names.foldl without catalog := by
  refine foldl_foldl_of_settled
    (fun catalog name => look? catalog (name.schemaOr catalog.defaultSchema) name.base = none)
    (fun catalog name => ?_) (fun catalog name other hsettled => ?_) hsame names catalog
  · rw [hdefault, hnone]
    exact Or.inl ⟨rfl, rfl⟩
  · rw [hdefault, hnone]
    exact Or.inr hsettled

/-- The catalog without a table, if it had it. -/
def withoutTable (catalog : Catalog) (name : ObjectName) : Catalog :=
  match catalog.dropTable (name.schemaOr catalog.defaultSchema) name.base with
  | .ok (_, without) => without
  | .error _ => catalog

theorem withoutTable_eq_self
    (hnone : catalog.table? (name.schemaOr catalog.defaultSchema) name.base = none) :
    catalog.withoutTable name = catalog := by
  rw [withoutTable, dropTable, Catalog.table, hnone]
  rfl

theorem withoutTable_of_table? {table : Table}
    (htable : catalog.table? (name.schemaOr catalog.defaultSchema) name.base = some table) :
    catalog.withoutTable name =
      (catalog.changeTables (name.schemaOr catalog.defaultSchema) (·.erase name.base)).mapTables
        (·.dropReferences (name.schemaOr catalog.defaultSchema) name.base none) := by
  rw [withoutTable, dropTable_eq_ok_iff.mpr ⟨htable, rfl⟩]

theorem defaultSchema_withoutTable (catalog : Catalog) (name : ObjectName) :
    (catalog.withoutTable name).defaultSchema = catalog.defaultSchema := by
  cases htable : catalog.table? (name.schemaOr catalog.defaultSchema) name.base with
  | none => rw [withoutTable_eq_self htable]
  | some table =>
      rw [withoutTable_of_table? htable]
      rfl

theorem table?_withoutTable_eq_none_iff (catalog : Catalog) (name : ObjectName)
    (query other : String) : (catalog.withoutTable name).table? query other = none ↔
      query = name.schemaOr catalog.defaultSchema ∧ other = name.base ∨
        catalog.table? query other = none := by
  cases htable : catalog.table? (name.schemaOr catalog.defaultSchema) name.base with
  | none =>
      rw [withoutTable_eq_self htable]
      refine ⟨Or.inr, ?_⟩
      rintro (⟨rfl, rfl⟩ | hnone)
      · exact htable
      · exact hnone
  | some table =>
      rw [withoutTable_of_table? htable, table?_mapTables, Option.map_eq_none_iff,
        table?_eraseTable, ite_eq_left_iff, imp_iff_or_not, or_comm, not_not]

theorem foldl_withoutTable_again (names : List ObjectName) (catalog : Catalog) :
    names.foldl withoutTable (names.foldl withoutTable catalog) =
      names.foldl withoutTable catalog :=
  foldl_foldl_of_dropping table? defaultSchema_withoutTable table?_withoutTable_eq_none_iff
    (fun _ _ => withoutTable_eq_self) names catalog

/-- Dropping a table under a guard never fails. -/
theorem run_dropNamedTable (name : ObjectName) (catalog : Catalog) :
    (dropNamedTable true name).run catalog = .ok () (catalog.withoutTable name) := by
  unfold dropNamedTable
  rw [Change.run_get_bind, Change.run_get_bind, Bool.true_and, hasTable]
  cases htable : catalog.table? (name.schemaOr catalog.defaultSchema) name.base with
  | none =>
      rw [withoutTable_eq_self htable]
      rfl
  | some table =>
      rw [Option.isSome_some, Bool.not_true, if_neg Bool.false_ne_true, Change.run_attempt_iff,
        withoutTable_of_table? htable]
      simp only [except_bind_eq_ok, except_pure_eq_ok]
      exact ⟨_, dropTable_eq_ok_iff.mpr ⟨htable, rfl⟩, rfl⟩

theorem run_forM_dropNamedTable (names : List ObjectName) (catalog : Catalog) :
    (names.forM (dropNamedTable true)).run catalog = .ok () (names.foldl withoutTable catalog) := by
  induction names generalizing catalog with
  | nil => rfl
  | cons name rest ih =>
      rw [Change.run_forM_cons, run_dropNamedTable, List.foldl_cons]
      exact ih (catalog.withoutTable name)

theorem withoutEnum_eq_self
    (hnone : catalog.enum? (name.schemaOr catalog.defaultSchema) name.base = none) :
    catalog.withoutEnum name = catalog := by
  rw [withoutEnum, dropEnum, hnone]

theorem withoutEnum_of_enum? {enumType : EnumType}
    (henum : catalog.enum? (name.schemaOr catalog.defaultSchema) name.base = some enumType) :
    catalog.withoutEnum name =
      catalog.changeEnums (name.schemaOr catalog.defaultSchema) (·.erase name.base) := by
  rw [withoutEnum, dropEnum, henum]
  rfl

theorem defaultSchema_withoutEnum (catalog : Catalog) (name : ObjectName) :
    (catalog.withoutEnum name).defaultSchema = catalog.defaultSchema := by
  cases henum : catalog.enum? (name.schemaOr catalog.defaultSchema) name.base with
  | none => rw [withoutEnum_eq_self henum]
  | some enumType =>
      rw [withoutEnum_of_enum? henum]
      rfl

theorem enum?_withoutEnum_eq_none_iff (catalog : Catalog) (name : ObjectName)
    (query other : String) : (catalog.withoutEnum name).enum? query other = none ↔
      query = name.schemaOr catalog.defaultSchema ∧ other = name.base ∨
        catalog.enum? query other = none := by
  cases henum : catalog.enum? (name.schemaOr catalog.defaultSchema) name.base with
  | none =>
      rw [withoutEnum_eq_self henum]
      refine ⟨Or.inr, ?_⟩
      rintro (⟨rfl, rfl⟩ | hnone)
      · exact henum
      · exact hnone
  | some enumType =>
      rw [withoutEnum_of_enum? henum, enum?_eq_outline?, enum?_eq_outline?, outline?_changeEnums]
      by_cases hquery : query = name.schemaOr catalog.defaultSchema
      · cases catalog.outline? query <;> simp [hquery, NameMap.find?_erase, imp_iff_not_or]
      · simp [hquery]

theorem foldl_withoutEnum_again (names : List ObjectName) (catalog : Catalog) :
    names.foldl withoutEnum (names.foldl withoutEnum catalog) =
      names.foldl withoutEnum catalog :=
  foldl_foldl_of_dropping enum? defaultSchema_withoutEnum enum?_withoutEnum_eq_none_iff
    (fun _ _ => withoutEnum_eq_self) names catalog

end Catalog

/-! ## Statements -/

open Catalog

/-- A second run of the statement finds nothing to do. -/
def Statement.isSettling : Statement → Bool
  | createTable statement => statement.ifNotExists
  | createSchema _ => true
  | createEnum _ => true
  | dropTables removal => removal.ifExists
  | dropTypes _ => true
  | alterTable statement => statement.operation.isSettling
  | _ => false

section Statements

variable {origin : Origin} {before after : Catalog}

theorem Change.run_pure_iff :
    (pure () : Change Unit).run before = .ok () after ↔ before = after := by
  show EStateM.Result.ok () before = .ok () after ↔ before = after
  rw [EStateM.Result.ok.injEq, and_iff_right rfl]

/-- A guarded alteration is carried out unless the table is missing. -/
theorem AlterTable.run_apply_guarded_iff {name : ObjectName} {guard : Bool} {operation : Operation}
    (halteration : operation.isAlteration = true) {again : String → Change Unit} :
    (AlterTable.apply ⟨name, guard, operation⟩ origin again).run before = .ok () after ↔
      if guard && !before.hasTable (name.schemaOr before.defaultSchema) name.base then
        before = after
      else before.operate origin name operation = .ok after := by
  split
  · rename_i hguard
    unfold AlterTable.apply
    rw [Change.run_get_bind, Change.run_get_bind, if_pos hguard]
    exact Change.run_pure_iff
  · rename_i hguard
    have hunguarded : (AlterTable.apply ⟨name, guard, operation⟩ origin again).run before =
        (AlterTable.apply ⟨name, false, operation⟩ origin again).run before := by
      unfold AlterTable.apply
      rw [Change.run_get_bind, Change.run_get_bind, if_neg hguard]
      conv_rhs => rw [Change.run_get_bind, Change.run_get_bind, Bool.false_and,
        if_neg Bool.false_ne_true]
    rw [hunguarded, AlterTable.run_apply_iff halteration]

/-- A guarded declaration is carried out unless the table is there. -/
theorem CreateTable.run_apply_guarded_iff {statement : CreateTable}
    (hguard : statement.ifNotExists = true) :
    (statement.apply origin).run before = .ok () after ↔
      if before.hasTable (statement.name.schemaOr before.defaultSchema) statement.name.base then
        before.ensureSchema (statement.name.schemaOr before.defaultSchema) = after
      else before.declare origin statement = .ok after := by
  have htable : (before.ensureSchema (statement.name.schemaOr before.defaultSchema)).hasTable
      (statement.name.schemaOr before.defaultSchema) statement.name.base =
        before.hasTable (statement.name.schemaOr before.defaultSchema) statement.name.base := by
    rw [hasTable, table?_ensureSchema, hasTable]
  unfold CreateTable.apply
  rw [Change.run_get_bind, Change.run_modify_bind, Change.run_get_bind, hguard, Bool.true_and,
    htable]
  split
  · exact Change.run_pure_iff
  · rw [Change.run_ofExcept_bind_iff, Catalog.declare, except_bind_eq_ok]
    simp only [Change.run_attempt_iff]

theorem CreateTable.run_apply_again {statement : CreateTable}
    (hguard : statement.ifNotExists = true)
    (hrun : (statement.apply origin).run before = .ok () after) :
    (statement.apply origin).run after = .ok () after := by
  obtain ⟨hdefault, hschema, htable⟩ : after.defaultSchema = before.defaultSchema ∧
      after.hasSchema (statement.name.schemaOr before.defaultSchema) = true ∧
      after.hasTable (statement.name.schemaOr before.defaultSchema) statement.name.base = true := by
    have hplace := hasSchema_ensureSchema before (statement.name.schemaOr before.defaultSchema)
    have hdefault := defaultSchema_ensureSchema before
      (statement.name.schemaOr before.defaultSchema)
    rw [CreateTable.run_apply_guarded_iff hguard] at hrun
    split at hrun
    · rename_i hexists
      subst hrun
      rw [hasTable, table?_ensureSchema]
      exact ⟨hdefault, hplace, hexists⟩
    · obtain ⟨-, -, rfl⟩ := declare_iff.mp hrun
      rw [defaultSchema_putTable, hasSchema_putTable, hasTable,
        table?_putTable_self hplace (by rfl)]
      exact ⟨hdefault, hplace, rfl⟩
  rw [CreateTable.run_apply_guarded_iff hguard, hdefault, if_pos htable]
  exact ensureSchema_eq_self hschema

theorem CreateEnum.run_apply_iff {statement : CreateEnum} :
    (statement.apply origin).run before = .ok () after ↔
      if (before.enum? (statement.name.schemaOr before.defaultSchema) statement.name.base).isSome
      then before.ensureSchema (statement.name.schemaOr before.defaultSchema) = after
      else (before.ensureSchema (statement.name.schemaOr before.defaultSchema)).addEnum
        (statement.name.schemaOr before.defaultSchema)
        ⟨statement.name.base, statement.values, origin.file⟩ = .ok after := by
  unfold CreateEnum.apply
  rw [Change.run_get_bind, Change.run_modify_bind, Change.run_get_bind, enum?_ensureSchema]
  split
  · exact Change.run_pure_iff
  · exact Change.run_attempt_iff

/-- What a declaration of an enum type that is carried out leaves behind. -/
theorem CreateEnum.enum?_after_apply {statement : CreateEnum}
    (hrun : (statement.apply origin).run before = .ok () after) :
    after.defaultSchema = before.defaultSchema ∧
      after.hasSchema (statement.name.schemaOr before.defaultSchema) = true ∧
      (after.enum? (statement.name.schemaOr before.defaultSchema)
        statement.name.base).isSome = true := by
  have hplace := hasSchema_ensureSchema before (statement.name.schemaOr before.defaultSchema)
  have hdefault := defaultSchema_ensureSchema before (statement.name.schemaOr before.defaultSchema)
  rw [CreateEnum.run_apply_iff] at hrun
  split at hrun
  · -- the type was there, and the statement only made sure of the schema
    rename_i hexists
    subst hrun
    rw [enum?_ensureSchema]
    exact ⟨hdefault, hplace, hexists⟩
  · have hfound := enum?_of_addEnum hrun hplace
      (statement.name.schemaOr before.defaultSchema) statement.name.base
    rw [if_pos ⟨rfl, rfl⟩] at hfound
    rw [hfound]
    obtain rfl := eq_of_addEnum hrun
    refine ⟨hdefault, ?_, rfl⟩
    rw [hasSchema_eq_isSome_outline?] at hplace ⊢
    rw [outline?_changeEnums, if_pos rfl, Option.isSome_map]
    exact hplace

theorem CreateEnum.run_apply_again {statement : CreateEnum}
    (hrun : (statement.apply origin).run before = .ok () after) :
    (statement.apply origin).run after = .ok () after := by
  obtain ⟨hdefault, hschema, henum⟩ := CreateEnum.enum?_after_apply hrun
  rw [CreateEnum.run_apply_iff, hdefault, if_pos henum]
  exact ensureSchema_eq_self hschema

theorem Operation.isAlteration_of_isSettling {operation : Operation}
    (hsettling : operation.isSettling = true) : operation.isAlteration = true := by
  cases operation with
  | renameTable target => cases hsettling
  | several clauses => cases hsettling
  | _ => rfl

theorem AlterTable.run_apply_again {statement : AlterTable} {again : String → Change Unit}
    (hsound : before.Sound) (hsettling : statement.operation.isSettling = true)
    (hrun : (statement.apply origin again).run before = .ok () after) :
    (statement.apply origin again).run after = .ok () after := by
  obtain ⟨name, guard, operation⟩ := statement
  have halteration := Operation.isAlteration_of_isSettling hsettling
  rw [AlterTable.run_apply_guarded_iff halteration] at hrun ⊢
  split at hrun
  · rename_i hmissing
    subst hrun
    rw [if_pos hmissing]
  · obtain ⟨hagain, htable⟩ := operate_again hsound hsettling hrun
    rw [htable, Bool.not_true, Bool.and_false, if_neg Bool.false_ne_true]
    exact hagain

/-- What a statement that settles has made, it leaves alone. -/
theorem Statement.run_apply_again {statement : Statement} (hsound : before.Sound)
    (hsettling : statement.isSettling = true)
    (hrun : (statement.apply origin).run before = .ok () after) :
    (statement.apply origin).run after = .ok () after := by
  rw [Statement.apply] at hrun ⊢
  -- by the kind of the statement; a list of names may name a thing twice, so that the drops are
  -- compared as lists of steps
  cases statement with
  | createTable statement =>
      rw [applyNested] at hrun ⊢
      exact statement.run_apply_again hsettling hrun
  | alterTable statement =>
      rw [applyNested] at hrun ⊢
      exact statement.run_apply_again hsound hsettling hrun
  | dropTables removal =>
      have hguard : removal.ifExists = true := hsettling
      rw [applyNested, hguard, run_forM_dropNamedTable] at hrun ⊢
      cases hrun
      rw [foldl_withoutTable_again]
  | createSchema statement =>
      rw [applyNested] at hrun ⊢
      cases hrun
      exact congrArg (EStateM.Result.ok ())
        (ensureSchema_eq_self (hasSchema_ensureSchema before statement.name))
  | createEnum statement =>
      rw [applyNested] at hrun ⊢
      exact statement.run_apply_again hrun
  | dropTypes removal =>
      rw [applyNested] at hrun ⊢
      cases hrun
      exact congrArg (EStateM.Result.ok ()) (foldl_withoutEnum_again removal.names before)
  | _ => cases hsettling

end Statements

/-- In every catalog that a replay leaves, a statement that settles and succeeds can be carried out
again, by the same text of the same file, and changes nothing. -/
theorem settling_again_afterReplay {settings : Settings} {start catalog after : Catalog}
    (hstart : settings.catalog = .ok start) {calls : List ReplayCall}
    (hcatalog : afterReplay settings.family start calls = catalog)
    {family : Family} {file text : String} {statement : Statement}
    (hread : Statement.read ⟨file, family⟩ text = .ok statement)
    (hsettling : statement.isSettling = true)
    (hrun : (Migration.applyStatement family file text).run catalog = .ok () after) :
    (Migration.applyStatement family file text).run after = .ok () after := by
  obtain ⟨hsound, -⟩ := sound_afterReplay settings.family settings.defaultSchema calls
  rw [← Settings.eq_new_of_catalog hstart, hcatalog] at hsound
  obtain ⟨found, hfound, happly⟩ := Migration.applyStatement_iff.mp hrun
  obtain rfl := Except.ok.inj (hread.symm.trans hfound)
  exact Migration.applyStatement_iff.mpr
    ⟨statement, hread, statement.run_apply_again hsound hsettling happly⟩

/-- One table with two columns that may be empty. -/
def keyless : Catalog :=
  afterReplay .postgres (.new "public") [.statement "1.sql" "CREATE TABLE t (a uuid, b uuid)"]

/-- A guarded key on two columns, one of which is named twice. -/
def addKey : String :=
  "ALTER TABLE IF EXISTS t ADD PRIMARY KEY (a, b, a)"

theorem settling_again_afterReplay_key :
    ∃ after, (Migration.applyStatement .postgres "2.sql" addKey).run keyless = .ok () after ∧
      after ≠ keyless ∧
      (Migration.applyStatement .postgres "2.sql" addKey).run after = .ok () after := by
  have hstart : Settings.standard.catalog = .ok (.new "public") := by decide +kernel
  have hread : Statement.read ⟨"2.sql", .postgres⟩ addKey =
      .ok (.alterTable ⟨⟨none, "t"⟩, true, .addConstraint (.primaryKey none ["a", "b", "a"])⟩) := by
    decide +kernel
  have hrun : (Migration.applyStatement .postgres "2.sql" addKey).run keyless =
      .ok () ((Migration.applyStatement .postgres "2.sql" addKey).after keyless) ∧
      (Migration.applyStatement .postgres "2.sql" addKey).after keyless ≠ keyless := by
    decide +kernel
  exact ⟨_, hrun.1, hrun.2, settling_again_afterReplay hstart (rfl : afterReplay _ _ _ = keyless)
    hread rfl hrun.1⟩

end Schemata
