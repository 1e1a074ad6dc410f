import Schemata.Effect
import Schemata.Proofs.Outcome

/-!
# Forgetting which file it was

Columns, indexes, keys, tables and enum types keep the names of migration files, and so do errors.
`forgetFiles` puts the empty name in place of each; a column that was never changed still shows
that.  A computation *forgets* files when it makes no difference whether they are forgotten before
it or after it:

* `blurred`, for what a step in `Except` gives;
* `Forgets`, for a step with a state, which is the reader of a text or the catalog.

Each way to build a computation keeps this (`blurred_bind`, `Forgets.bind` and the lemmas for
lists), so that it has to be shown for single operations only.  The step without files may be
another one than the step with them: where a file is an argument, it gets the empty name.

Two runs over the same texts in different files are then compared through the run without files:
both are that one, once their files are forgotten.
-/

namespace Schemata

/-! ## Data without files -/

/-- The column without the files that created and changed it. -/
def Column.forgetFiles (column : Column) : Column :=
  { column with createdIn := "", modifiedIn := column.modifiedIn.map fun _ => "" }

/-- The index without the file that created it. -/
def Index.forgetFiles (index : Index) : Index :=
  { index with createdIn := "" }

/-- The foreign key without the file that created it. -/
def ForeignKey.forgetFiles (key : ForeignKey) : ForeignKey :=
  { key with createdIn := "" }

/-- The enum type without the file that created it. -/
def EnumType.forgetFiles (enumType : EnumType) : EnumType :=
  { enumType with createdIn := "" }

/-- The table without the files that created it and its parts. -/
def Table.forgetFiles (table : Table) : Table :=
  { table with
    columns := table.columns.map Column.forgetFiles
    indexes := table.indexes.map Index.forgetFiles
    foreignKeys := table.foreignKeys.map ForeignKey.forgetFiles
    createdIn := "" }

/-- The schema without the files that created its tables and enum types. -/
def Schema.forgetFiles (schema : Schema) : Schema :=
  { schema with
    tables := schema.tables.map Table.forgetFiles
    enums := schema.enums.map EnumType.forgetFiles }

/-- The catalog without the files that created and changed what it holds. -/
def Catalog.forgetFiles (catalog : Catalog) : Catalog :=
  { catalog with schemas := catalog.schemas.map Schema.forgetFiles }

/-- The error without the file of the text. -/
def ParseError.forgetFiles : ParseError → ParseError
  | malformed _ statement fault => malformed "" statement fault
  | primaryKeyType _ table column found required family =>
      primaryKeyType "" table column found required family
  | unknownFamily text => unknownFamily text

/-- The error without the files of the statements that it is about. -/
def CatalogError.forgetFiles : CatalogError → CatalogError
  | unreadable error => unreadable error.forgetFiles
  | unsupported _ operation => unsupported "" operation
  | failedStatement _ statement cause => failedStatement "" statement cause.forgetFiles
  | error => error

/-- The alteration without the files of what it adds. -/
def Alteration.forgetFiles : Alteration → Alteration
  | addColumn column => addColumn column.forgetFiles
  | modifyColumn column => modifyColumn column.forgetFiles
  | addIndex index => addIndex index.forgetFiles
  | addForeignKey key => addForeignKey key.forgetFiles
  | alteration => alteration

/-- The origin without its file. -/
def Origin.forgetFiles (origin : Origin) : Origin :=
  { origin with file := "" }

namespace CatalogError

/-- Without its files an error is of the same kind. -/
theorem kind_forgetFiles (error : CatalogError) : error.forgetFiles.kind = error.kind := by
  induction error with
  | unreadable error => cases error <;> rfl
  | failedStatement file statement cause ih => exact ih
  | _ => rfl

theorem root_forgetFiles (error : CatalogError) :
    error.forgetFiles.root = error.root.forgetFiles := by
  induction error with
  | failedStatement file statement cause ih => exact ih
  | _ => rfl

theorem ctorIdx_forgetFiles (error : CatalogError) : error.forgetFiles.ctorIdx = error.ctorIdx := by
  cases error <;> rfl

end CatalogError

/-! ## Outcomes without files -/

section Outcomes

variable {α β γ δ ε : Type}

/-- What a step gives, with its value and its error as they are seen. -/
def blurred (hide : ε → ε) (view : α → β) : Except ε α → Except ε β
  | .ok value => .ok (view value)
  | .error error => .error (hide error)

variable {hide : ε → ε} {view : α → β} {see : γ → δ}

@[simp] theorem blurred_ok (value : α) : blurred hide view (.ok value) = .ok (view value) := rfl

@[simp] theorem blurred_error (error : ε) :
    blurred hide view (.error error) = .error (hide error) := rfl

/-- What follows a step goes on from its value as it is seen. -/
theorem blurred_bind {first : Except ε α} {next : α → Except ε γ} {plain : Except ε β}
    {after : β → Except ε δ} (hfirst : plain = blurred hide view first)
    (hnext : ∀ value, first = .ok value → after (view value) = blurred hide see (next value)) :
    plain >>= after = blurred hide see (first >>= next) := by
  subst hfirst
  cases hvalue : first with
  | error error => rfl
  | ok value => exact hnext value hvalue

theorem blurred_foldlM {step : α → γ → Except ε α} {plain : β → δ → Except ε β}
    (hstep : ∀ start item, plain (view start) (see item) = blurred hide view (step start item))
    (items : List γ) (start : α) :
    (items.map see).foldlM plain (view start) = blurred hide view (items.foldlM step start) := by
  induction items generalizing start with
  | nil => rfl
  | cons item rest ih =>
      rw [List.map_cons, List.foldlM_cons, List.foldlM_cons]
      exact blurred_bind (hstep start item) fun next _ => ih next

theorem blurred_foldlM_same {step : α → γ → Except ε α} {plain : β → γ → Except ε β}
    (hstep : ∀ start item, plain (view start) item = blurred hide view (step start item))
    (items : List γ) (start : α) :
    items.foldlM plain (view start) = blurred hide view (items.foldlM step start) := by
  have hfold := @blurred_foldlM _ _ _ _ _ hide view id step plain hstep items start
  rwa [List.map_id] at hfold

theorem blurred_mapM {step : γ → Except ε α} {plain : γ → Except ε β}
    (hstep : ∀ item, plain item = blurred hide view (step item)) (items : List γ) :
    items.mapM plain = blurred hide (List.map view) (items.mapM step) := by
  induction items with
  | nil => rfl
  | cons item rest ih =>
      rw [List.mapM_cons, List.mapM_cons]
      exact blurred_bind (hstep item) fun value _ => blurred_bind ih fun values _ => rfl

theorem blurred_forM {check : γ → Except ε Unit} {plain : δ → Except ε Unit}
    (hcheck : ∀ item, plain (see item) = blurred hide id (check item)) (items : List γ) :
    (items.map see).forM plain = blurred hide id (items.forM check) := by
  rw [List.forM_eq_forM, List.forM_eq_forM]
  induction items with
  | nil => rfl
  | cons item rest ih =>
      rw [List.map_cons, List.forM_cons, List.forM_cons]
      exact blurred_bind (hcheck item) fun _ _ => ih

end Outcomes

/-! ## Runs without files -/

section Runs

variable {α β γ δ ε σ : Type}

/-- What a run gives, with its value, its error and its state as they are seen. -/
def blurredRun (hide : ε → ε) (seen : σ → σ) (view : α → β) :
    EStateM.Result ε σ α → EStateM.Result ε σ β
  | .ok value state => .ok (view value) (seen state)
  | .error error state => .error (hide error) (seen state)

/-- The plain action does with the state as it is seen what the action does with the state. -/
def Forgets (hide : ε → ε) (seen : σ → σ) (view : α → β) (action : EStateM ε σ α)
    (plain : EStateM ε σ β) : Prop :=
  ∀ state, plain.run (seen state) = blurredRun hide seen view (action.run state)

variable {hide : ε → ε} {seen : σ → σ} {view : α → β} {see : γ → δ}

theorem forgets_pure (value : α) :
    Forgets hide seen view (pure value) (pure (view value)) :=
  fun _ => rfl

theorem forgets_throw (error : ε) :
    Forgets hide seen view (throw error) (throw (hide error)) :=
  fun _ => rfl

theorem forgets_modify {change plain : σ → σ} (hchange : ∀ state, plain (seen state) =
    seen (change state)) : Forgets hide seen id (modify change) (modify plain) :=
  fun state => congrArg (EStateM.Result.ok ()) (hchange state)

theorem Forgets.bind {first : EStateM ε σ α} {next : α → EStateM ε σ γ} {plain : EStateM ε σ β}
    {after : β → EStateM ε σ δ} (hfirst : Forgets hide seen view first plain)
    (hnext : ∀ value, Forgets hide seen see (next value) (after (view value))) :
    Forgets hide seen see (first >>= next) (plain >>= after) := by
  intro state
  rw [EStateM.run_bind, EStateM.run_bind, hfirst state]
  cases first.run state with
  | error error left => rfl
  | ok value left => exact hnext value left

/-- A step may look at the state if it sees the same without files. -/
theorem forgets_get_bind {next : σ → EStateM ε σ γ} {after : σ → EStateM ε σ δ}
    (hnext : ∀ state, Forgets hide seen see (next state) (after (seen state))) :
    Forgets hide seen see (get >>= next) (get >>= after) :=
  fun state => hnext state state

/-- A choice that does not depend on files. -/
theorem forgets_ite {condition : Prop} [Decidable condition] {first other : EStateM ε σ α}
    {plain plainOther : EStateM ε σ β} (hfirst : Forgets hide seen view first plain)
    (hother : Forgets hide seen view other plainOther) :
    Forgets hide seen view (if condition then first else other)
      (if condition then plain else plainOther) := by
  split
  · exact hfirst
  · exact hother

theorem forgets_forM {action plain : γ → EStateM ε σ Unit}
    (haction : ∀ item, Forgets hide seen id (action item) (plain item)) (items : List γ) :
    Forgets hide seen id (items.forM action) (items.forM plain) := by
  rw [List.forM_eq_forM]
  induction items with
  | nil => exact forgets_pure ()
  | cons item rest ih =>
      rw [List.forM_cons, List.forM_cons]
      exact (haction item).bind fun _ => ih

end Runs

end Schemata
