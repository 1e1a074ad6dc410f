import Mathlib.Data.List.Basic
import Schemata.Proofs.Provenance.Erasure
import Schemata.Proofs.Statement.Operation
import Schemata.Proofs.Statement.Steps

/-!
# Readers forget files

The file of a text stands in the errors of its readers and in the columns and keys that they make,
and nowhere else: what is read does not depend on it.  Most readers make nothing that names a file,
so that they are their own readers without files (`Reading.IsBlind`); this holds of every reader
that is made of steps (`Reading.Stepwise.isBlind`).

* `ColumnDefinition.blurred_read`, `CreateTable.blurred_read`, `Operation.blurred_read`: readings of
  what does name a file;
* `Statement.blurred_read`: the reading of any statement, which forgets files.
-/

namespace Schemata

/-! ## Readings -/

/-- The reader without the file of its text. -/
def Reader.forgetFiles (reader : Reader) : Reader :=
  { reader with file := "" }

namespace Reading

variable {α β γ : Type}

/-- The reading with the file of its text forgotten is the plain one. -/
abbrev ForgetsFiles (view : α → β) (action : Reading α) (plain : Reading β) : Prop :=
  Forgets ParseError.forgetFiles Reader.forgetFiles view action plain

/-- The file of the text makes no difference to the reading. -/
abbrev IsBlind (action : Reading α) : Prop :=
  ForgetsFiles id action action

/-- Steps do not look at the file. -/
theorem Stepwise.isBlind {action : Reading α} (hsteps : Stepwise action) : IsBlind action := by
  induction hsteps with
  | pure value => exact forgets_pure value
  | fail fault => exact fun _ => rfl
  | bind _ _ ihfirst ihnext => exact Forgets.bind ihfirst ihnext
  | look hsame _ ih =>
      exact forgets_get_bind fun reader => (hsame reader "").symm ▸ ih reader
  | skip count => exact forgets_modify fun _ => rfl

/-- What is read of a text without files. -/
theorem ForgetsFiles.ofText {view : α → β} {action : Reading α} {plain : Reading β}
    (hforgets : ForgetsFiles view action plain) (file text : String) :
    plain.ofText "" text = blurred ParseError.forgetFiles view (action.ofText file text) := by
  have hrun := hforgets (Reader.start file text)
  rw [Reading.ofText_eq_outcome, Reading.ofText_eq_outcome]
  refine (congrArg Reading.outcome hrun).trans ?_
  cases action.run (Reader.start file text) <;> rfl

theorem IsBlind.ofText {action : Reading α} (hblind : IsBlind action) (file text : String) :
    action.ofText "" text = blurred ParseError.forgetFiles id (action.ofText file text) :=
  ForgetsFiles.ofText hblind file text

end Reading

open Reading

/-! ## Columns -/

/-- The draft without the file that created its column. -/
def ColumnDraft.forgetFiles (draft : ColumnDraft) : ColumnDraft :=
  { draft with column := draft.column.forgetFiles }

/-- The definition without the file that created its column. -/
def ColumnDefinition.forgetFiles (definition : ColumnDefinition) : ColumnDefinition :=
  { definition with column := definition.column.forgetFiles }

theorem ColumnDraft.add_forgetFiles (draft : ColumnDraft) (constraint : ColumnConstraint) :
    draft.forgetFiles.add constraint = (draft.add constraint).forgetFiles := by
  cases constraint with
  | null => cases hkey : draft.column.primaryKey <;>
      simp [add, forgetFiles, Column.forgetFiles, hkey]
  | _ => rfl

namespace ColumnDefinition

theorem forgets_readColumn (file : String) :
    ForgetsFiles Column.forgetFiles (readColumn file) (readColumn "") := by
  refine Forgets.bind (stepwise_expectIdentifier _).isBlind fun name =>
    Forgets.bind (stepwise_takeWhile _).isBlind fun words => ?_
  dsimp only [id_eq]
  split
  · exact fun _ => rfl
  split
  · exact fun _ => rfl
  · exact forgets_pure _

theorem forgets_readWords (file : String) :
    ForgetsFiles forgetFiles (readWords file) (readWords "") := by
  refine (forgets_readColumn file).bind fun column => ?_
  refine Forgets.bind (stepwise_many (ColumnConstraint.stepwise_read? column.name)).isBlind
    fun constraints => ?_
  have hdraft : constraints.foldl ColumnDraft.add (ColumnDraft.forgetFiles ⟨column, none, none⟩) =
      (constraints.foldl ColumnDraft.add ⟨column, none, none⟩).forgetFiles :=
    List.foldl_hom ColumnDraft.forgetFiles ColumnDraft.add_forgetFiles
  exact fun reader => congrArg
    (fun draft => EStateM.Result.ok (ColumnDraft.definition draft) reader.forgetFiles) hdraft

end ColumnDefinition

/-! ## Checks of primary keys -/

section Checks

variable {origin : Origin} {text table : String}

theorem Origin.blurred_checkPrimaryKey (origin : Origin) (table : String) (column : Column) :
    origin.forgetFiles.checkPrimaryKey table column.forgetFiles =
      blurred ParseError.forgetFiles id (origin.checkPrimaryKey table column) := by
  have haccepts : origin.forgetFiles.family.accepts column.forgetFiles =
      origin.family.accepts column := rfl
  rw [checkPrimaryKey, checkPrimaryKey, haccepts]
  split <;> rfl

theorem ColumnDefinition.blurred_read :
    read origin.forgetFiles table text =
      blurred ParseError.forgetFiles forgetFiles (read origin table text) :=
  blurred_bind ((forgets_readWords origin.file).ofText origin.file text) fun definition _ =>
    blurred_bind (origin.blurred_checkPrimaryKey table definition.column) fun _ _ => rfl

theorem TableConstraint.blurred_read? :
    read? origin.forgetFiles text = blurred ParseError.forgetFiles id (read? origin text) :=
  stepwise_readWords?.isBlind.ofText origin.file text

end Checks

/-! ## Tables -/

/-- The body without the file that created its columns. -/
def TableBody.forgetFiles (body : TableBody) : TableBody :=
  { body with columns := body.columns.map Column.forgetFiles }

/-- The statement without the file that it stands in. -/
def CreateTable.forgetFiles (statement : CreateTable) : CreateTable :=
  { statement with
    columns := statement.columns.map Column.forgetFiles
    foreignKeys := statement.foreignKeys.map ForeignKey.forgetFiles }

theorem ForeignKeyConstraint.expand_forgetFiles (constraint : ForeignKeyConstraint)
    (table file : String) :
    constraint.expand table "" = (constraint.expand table file).map ForeignKey.forgetFiles := by
  rw [expand, expand, List.map_map]
  rfl

theorem ForeignKeyConstraint.flatMap_expand_forgetFiles (constraints : List ForeignKeyConstraint)
    (table file : String) :
    constraints.flatMap (·.expand table "") =
      (constraints.flatMap (·.expand table file)).map ForeignKey.forgetFiles := by
  rw [List.map_flatMap]
  exact List.flatMap_congr fun constraint _ => constraint.expand_forgetFiles table file

theorem TableBody.blurred_addConstraint (body : TableBody) (constraint : TableConstraint) :
    body.forgetFiles.addConstraint constraint =
      blurred id forgetFiles (body.addConstraint constraint) := by
  unfold addConstraint
  split
  · rw [show body.forgetFiles.primaryKey = body.primaryKey from rfl]
    split <;> rfl
  · rfl
  · rfl
  · rfl

theorem TableBody.blurred_addColumn (body : TableBody) (definition : ColumnDefinition) :
    body.forgetFiles.addColumn definition.forgetFiles =
      blurred id forgetFiles (body.addColumn definition) := by
  have hnames : body.forgetFiles.columns.any (·.name == definition.forgetFiles.column.name) =
      body.columns.any (·.name == definition.column.name) := List.any_map
  rw [addColumn, addColumn, hnames]
  split
  · rfl
  · rw [blurred_ok]
    congr 1
    simp only [forgetFiles, ColumnDefinition.forgetFiles, List.map_append, List.map_cons,
      List.map_nil]

/-- A change that forgets files can be made to a column of a list. -/
theorem mapColumn_forgetFiles (change : Column → Column)
    (hchange : ∀ column : Column, change column.forgetFiles = (change column).forgetFiles)
    (name : String) (columns : List Column) :
    mapColumn change name (columns.map Column.forgetFiles) =
      (mapColumn change name columns).map Column.forgetFiles := by
  rw [mapColumn, mapColumn, List.map_map, List.map_map]
  refine List.map_congr_left fun column _ => ?_
  rw [Function.comp_apply, Function.comp_apply]
  show (if column.name == name then _ else _) = _
  split
  · exact hchange column
  · rfl

namespace CreateTable

variable {origin : Origin} {text table : String}

theorem blurred_blame {α β : Type} {view : α → β} (result : Except Fault α) :
    blame origin.forgetFiles text (blurred id view result) =
      blurred ParseError.forgetFiles view (blame origin text result) := by
  cases result <;> rfl

theorem blurred_readClause (body : TableBody) (clause : String) :
    readClause origin.forgetFiles text table body.forgetFiles clause =
      blurred ParseError.forgetFiles TableBody.forgetFiles
        (readClause origin text table body clause) := by
  refine blurred_bind TableConstraint.blurred_read? fun constraint? _ => ?_
  cases constraint? with
  | some constraint =>
      exact (congrArg (blame _ text) (body.blurred_addConstraint constraint)).trans
        (blurred_blame _)
  | none =>
      refine blurred_bind ColumnDefinition.blurred_read fun definition _ => ?_
      exact (congrArg (blame _ text) (body.blurred_addColumn definition)).trans (blurred_blame _)

theorem blurred_markKey (columns : List Column) (key : String) :
    markKey origin.forgetFiles text table (columns.map Column.forgetFiles) key =
      blurred ParseError.forgetFiles (List.map Column.forgetFiles)
        (markKey origin text table columns key) := by
  have hfound : (columns.map Column.forgetFiles).find? (·.name == key) =
      (columns.find? (·.name == key)).map Column.forgetFiles := List.find?_map
  rw [markKey, markKey, hfound]
  cases columns.find? (·.name == key) with
  | none => rfl
  | some column =>
      refine blurred_bind (origin.blurred_checkPrimaryKey table column.asPrimaryKey) fun _ _ => ?_
      exact congrArg Except.ok
        (mapColumn_forgetFiles Column.asPrimaryKey (fun _ => rfl) key columns)

theorem blurred_markColumns (body : TableBody) :
    markColumns origin.forgetFiles text table body.forgetFiles =
      blurred ParseError.forgetFiles (List.map Column.forgetFiles)
        (markColumns origin text table body) := by
  refine blurred_bind (blurred_foldlM_same blurred_markKey body.primaryKey body.columns)
    fun columns _ => congrArg Except.ok ?_
  refine List.foldl_hom (List.map Column.forgetFiles) fun columns name => ?_
  exact mapColumn_forgetFiles ({ · with unique := true }) (fun _ => rfl) name columns

theorem blurred_read :
    read origin.forgetFiles text =
      blurred ParseError.forgetFiles forgetFiles (read origin text) := by
  refine blurred_bind (stepwise_readHeader.isBlind.ofText origin.file text) fun header _ => ?_
  dsimp only [id_eq]
  split
  · rfl
  · refine blurred_bind (blurred_foldlM_same blurred_readClause _ TableBody.empty) fun body _ =>
      blurred_bind (blurred_markColumns body) fun columns _ => ?_
    have hkeys : body.forgetFiles.foreignKeys.flatMap (·.expand header.name.base "") =
        (body.foreignKeys.flatMap (·.expand header.name.base origin.file)).map
          ForeignKey.forgetFiles :=
      ForeignKeyConstraint.flatMap_expand_forgetFiles _ _ _
    exact congrArg (fun keys => Except.ok (⟨header.name, header.ifNotExists,
      columns.map Column.forgetFiles, keys, body.primaryKey⟩ : CreateTable)) hkeys

end CreateTable

/-! ## Statements -/

/-- The operation without the file that creates what it adds. -/
def Operation.forgetFiles : Operation → Operation
  | addColumn definition ifNotExists => addColumn definition.forgetFiles ifNotExists
  | operation => operation

/-- The statement without the file that it stands in. -/
def AlterTable.forgetFiles (statement : AlterTable) : AlterTable :=
  { statement with operation := statement.operation.forgetFiles }

/-- The statement without the file that it stands in. -/
def Statement.forgetFiles : Statement → Statement
  | createTable statement => createTable statement.forgetFiles
  | alterTable statement => alterTable statement.forgetFiles
  | statement => statement

section Statements

variable {origin : Origin} {text table : String}

theorem Operation.blurred_read :
    read origin.forgetFiles table text =
      blurred ParseError.forgetFiles forgetFiles (read origin table text) := by
  refine blurred_bind (stepwise_readOutline.isBlind.ofText origin.file text)
    fun outline houtline => ?_
  cases outline with
  | whole operation =>
      -- What is read in place is no addition.
      have hsame : operation.forgetFiles = operation := by
        obtain ⟨-, hdirect⟩ | hkept := readOutline_cases houtline
        · cases operation <;> first | rfl | cases hdirect
        · cases hkept
          rfl
      exact congrArg Except.ok hsame.symm
  | constraint added => exact blurred_bind TableConstraint.blurred_read? fun constraint _ => rfl
  | column added ifNotExists =>
      exact blurred_bind ColumnDefinition.blurred_read fun definition _ => rfl

theorem AlterTable.blurred_read :
    read origin.forgetFiles text =
      blurred ParseError.forgetFiles forgetFiles (read origin text) := by
  refine blurred_bind (stepwise_readHeader.isBlind.ofText origin.file text) fun header _ => ?_
  dsimp only [id_eq]
  split
  · exact blurred_bind Operation.blurred_read fun operation _ => rfl
  · rfl

theorem Statement.blurred_readKind (kind : Statement.Kind) :
    readKind origin.forgetFiles text kind =
      blurred ParseError.forgetFiles forgetFiles (readKind origin text kind) := by
  -- tables and operations on tables name their file; every other kind is read by steps
  cases kind with
  | createTable => exact blurred_bind CreateTable.blurred_read fun statement _ => rfl
  | alterTable => exact blurred_bind AlterTable.blurred_read fun statement _ => rfl
  | createIndex =>
      exact blurred_bind (CreateIndex.stepwise_readWords.isBlind.ofText origin.file text)
        fun _ _ => rfl
  | createSchema =>
      exact blurred_bind (CreateSchema.stepwise_readWords.isBlind.ofText origin.file text)
        fun _ _ => rfl
  | createEnum =>
      exact blurred_bind (CreateEnum.stepwise_readWords.isBlind.ofText origin.file text)
        fun _ _ => rfl
  | dropTables =>
      exact blurred_bind ((Removal.stepwise_readKindNames _ _ _).isBlind.ofText origin.file text)
        fun _ _ => rfl
  | dropIndexes =>
      exact blurred_bind (Removal.stepwise_readIndexNames.isBlind.ofText origin.file text)
        fun _ _ => rfl
  | dropSchemas =>
      exact blurred_bind ((Removal.stepwise_readKindNames _ _ _).isBlind.ofText origin.file text)
        fun _ _ => rfl
  | dropTypes =>
      exact blurred_bind ((Removal.stepwise_readKindNames _ _ _).isBlind.ofText origin.file text)
        fun _ _ => rfl

/-- A statement is read the same in every file. -/
theorem Statement.blurred_read :
    read origin.forgetFiles text =
      blurred ParseError.forgetFiles forgetFiles (read origin text) := by
  unfold read
  dsimp only
  split
  · rfl
  split
  · exact blurred_readKind _
  · rfl

end Statements

end Schemata
