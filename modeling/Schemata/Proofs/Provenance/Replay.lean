import Mathlib.Data.Nat.Find
import Schemata.Migration
import Schemata.Proofs.Provenance.Catalog
import Schemata.Proofs.Provenance.Reading

/-!
# Replays forget files

What migrations build does not depend on the names of their files.

* `Operation.blurred_alterations`: an operation is carried out by the same alterations;
* `Statement.forgets_applyText`, `Migration.forgets_applyStatement`: a statement does the same to
  the catalog, also through the clauses that it reads again;
* `Migration.forgets_applyAll`: migrations do what one file with all their statements does, so that
  only the texts count and not how they are spread over files.

A replay without its files is therefore the replay of one file without a name (`blurred_replay`),
and two replays of the same texts have this one in common (`replay_alike_of_texts_eq`).  The same
holds of the first statements alone, so that they also fail at the same statement (`FailsAt`).
-/

namespace Schemata

/-! ## Changes -/

namespace Change

variable {α β : Type}

/-- The change with files forgotten is the plain one. -/
abbrev ForgetsFiles (view : α → β) (change : Change α) (plain : Change β) : Prop :=
  Forgets CatalogError.forgetFiles Catalog.forgetFiles view change plain

theorem forgets_attempt {operation plain : Catalog → Except CatalogError Catalog}
    (hoperation : ∀ catalog : Catalog, plain catalog.forgetFiles =
      blurred CatalogError.forgetFiles Catalog.forgetFiles (operation catalog)) :
    ForgetsFiles id (attempt operation) (attempt plain) := by
  refine forgets_get_bind fun catalog => ?_
  rw [hoperation]
  cases operation catalog with
  | error error => exact forgets_throw error
  | ok left => exact fun _ => rfl

theorem forgets_ofExcept {view : α → β} {result : Except CatalogError α}
    {plain : Except CatalogError β}
    (hresult : plain = blurred CatalogError.forgetFiles view result) :
    ForgetsFiles view (ofExcept result) (ofExcept plain) := by
  subst hresult
  cases result <;> exact fun _ => rfl

theorem blurred_ofReading {view : α → β} {result : Except ParseError α}
    {plain : Except ParseError β} (hresult : plain = blurred ParseError.forgetFiles view result) :
    ofReading plain = blurred CatalogError.forgetFiles view (ofReading result) := by
  subst hresult
  cases result <;> rfl

end Change

/-! ## Operations as alterations -/

section Alterations

variable (origin : Origin) (table : Table)

theorem ColumnChange.blurred_change (column : Column) (change : ColumnChange) :
    change.change origin.forgetFiles table.forgetFiles column.forgetFiles =
      blurred CatalogError.forgetFiles Column.forgetFiles (change.change origin table column) := by
  cases change with
  | dropNotNull =>
      show (if column.primaryKey then _ else _) = blurred _ _ (if column.primaryKey then _ else _)
      split <;> rfl
  | _ => rfl

theorem Alteration.blurred_putBack (column : Column) :
    putBack origin.forgetFiles table.forgetFiles column.forgetFiles =
      blurred CatalogError.forgetFiles forgetFiles (putBack origin table column) := by
  have hcheck : origin.forgetFiles.checkPrimaryKey table.name
      (column.forgetFiles.touchedBy "") =
        blurred ParseError.forgetFiles id
          (origin.checkPrimaryKey table.name (column.touchedBy origin.file)) :=
    origin.blurred_checkPrimaryKey table.name (column.touchedBy origin.file)
  exact blurred_bind (Change.blurred_ofReading hcheck) fun _ _ => rfl

theorem addForeignKeys_forgetFiles (keys : List ForeignKey) :
    (keys.map ForeignKey.forgetFiles).map Alteration.addForeignKey =
      (keys.map Alteration.addForeignKey).map Alteration.forgetFiles := by
  rw [List.map_map, List.map_map]
  rfl

theorem TableConstraint.blurred_alterations (constraint : TableConstraint) :
    constraint.alterations origin.forgetFiles table.forgetFiles =
      blurred CatalogError.forgetFiles (List.map Alteration.forgetFiles)
        (constraint.alterations origin table) := by
  unfold TableConstraint.alterations
  split
  · refine blurred_mapM (fun name => ?_) _
    exact blurred_bind (table.blurred_column name) fun column _ =>
      Alteration.blurred_putBack origin table column.asPrimaryKey
  · rename_i constraint
    exact congrArg Except.ok
      (constraint.expand_forgetFiles table.name origin.file ▸ addForeignKeys_forgetFiles _)
  · rename_i name
    exact blurred_bind (table.blurred_column name) fun column _ => rfl
  · rfl

theorem Table.constraintRemoval_forgetFiles (file name : String) :
    table.forgetFiles.constraintRemoval "" name =
      (table.constraintRemoval file name).map Alteration.forgetFiles := by
  rw [constraintRemoval, constraintRemoval, hasForeignKey_forgetFiles, name_forgetFiles,
    primaryKeyColumns_forgetFiles]
  split
  · rfl
  split
  · rw [List.map_map, List.map_map]
    rfl
  · rfl

/-- An operation is carried out by the same alterations in every file. -/
theorem Operation.blurred_alterations (operation : Operation) :
    operation.forgetFiles.alterations origin.forgetFiles table.forgetFiles =
      blurred CatalogError.forgetFiles (List.map Alteration.forgetFiles)
        (operation.alterations origin table) := by
  cases operation with
  | addColumn definition ifNotExists =>
      -- the keys of the definition are made with the file, and lose it
      have hkeys : definition.foreignKey.toList.flatMap (·.expand table.name "") =
          (definition.foreignKey.toList.flatMap (·.expand table.name origin.file)).map
            ForeignKey.forgetFiles :=
        ForeignKeyConstraint.flatMap_expand_forgetFiles _ _ _
      have hexists : table.forgetFiles.hasColumn definition.forgetFiles.column.name =
          table.hasColumn definition.column.name := table.hasColumn_forgetFiles _
      rw [forgetFiles, Operation.alterations, Operation.alterations, hexists]
      split
      · rfl
      · refine congrArg (fun alterations =>
          Except.ok (Alteration.addColumn definition.column.forgetFiles :: alterations)) ?_
        exact (congrArg (List.map Alteration.addForeignKey) hkeys).trans
          (addForeignKeys_forgetFiles _)
  | dropColumn name ifExists =>
      simp only [forgetFiles, Operation.alterations, Table.hasColumn_forgetFiles]
      split <;> rfl
  | alterColumn name change =>
      refine blurred_bind (table.blurred_column name) fun column _ => ?_
      refine blurred_bind (change.blurred_change origin table column) fun changed _ => ?_
      exact blurred_bind (Alteration.blurred_putBack origin table changed) fun _ _ => rfl
  | addConstraint constraint => exact constraint.blurred_alterations origin table
  | dropConstraint name ifExists =>
      exact congrArg Except.ok (table.constraintRemoval_forgetFiles origin.file name)
  | renameConstraint source target =>
      simp only [forgetFiles, Operation.alterations, Table.hasForeignKey_forgetFiles]
      split <;> rfl
  | _ => rfl

end Alterations

/-! ## Statements -/

section Statements

variable (origin : Origin)

theorem CreateTable.blurred_table (statement : CreateTable) (schema file : String) :
    statement.forgetFiles.table schema "" =
      blurred CatalogError.forgetFiles Table.forgetFiles (statement.table schema file) := by
  refine blurred_bind (blurred_foldlM Table.blurred_addColumn statement.columns
    (Table.empty schema statement.name.base file)) fun table _ => ?_
  exact blurred_foldlM Table.blurred_addForeignKey statement.foreignKeys table

theorem CreateTable.forgets_apply (statement : CreateTable) :
    Change.ForgetsFiles id (statement.apply origin)
      (statement.forgetFiles.apply origin.forgetFiles) := by
  refine forgets_get_bind fun catalog => ?_
  refine (forgets_modify (fun state => state.ensureSchema_forgetFiles _)).bind fun _ => ?_
  refine forgets_get_bind fun prepared => ?_
  rw [Catalog.hasTable_forgetFiles]
  refine forgets_ite (forgets_pure ()) ?_
  refine (Change.forgets_ofExcept (statement.blurred_table _ origin.file)).bind fun table => ?_
  exact Change.forgets_attempt (·.blurred_addTable table)

theorem forgets_dropNamedTable (ifExists : Bool) (name : ObjectName) :
    Change.ForgetsFiles id (dropNamedTable ifExists name) (dropNamedTable ifExists name) := by
  refine forgets_get_bind fun catalog => forgets_get_bind fun same => ?_
  rw [Catalog.hasTable_forgetFiles]
  refine forgets_ite (forgets_pure ()) (Change.forgets_attempt fun state => ?_)
  exact blurred_bind (state.blurred_dropTable _ name.base) fun _ _ => rfl

theorem CreateEnum.forgets_apply (statement : CreateEnum) :
    Change.ForgetsFiles id (statement.apply origin) (statement.apply origin.forgetFiles) := by
  refine forgets_get_bind fun catalog => ?_
  refine (forgets_modify (fun state => state.ensureSchema_forgetFiles _)).bind fun _ => ?_
  refine forgets_get_bind fun prepared => ?_
  rw [Catalog.enum?_forgetFiles, Option.isSome_map]
  refine forgets_ite (forgets_pure ()) (Change.forgets_attempt fun state => ?_)
  exact state.blurred_addEnum _ ⟨statement.name.base, statement.values, origin.file⟩

/-- An alteration forgets files if the statements that its clauses are read as do. -/
theorem AlterTable.forgets_apply (statement : AlterTable) {again plain : String → Change Unit}
    (hagain : ∀ text, Change.ForgetsFiles id (again text) (plain text)) :
    Change.ForgetsFiles id (statement.apply origin again)
      (statement.forgetFiles.apply origin.forgetFiles plain) := by
  refine forgets_get_bind fun catalog => forgets_get_bind fun same => ?_
  rw [Catalog.hasTable_forgetFiles]
  refine forgets_ite (forgets_pure ()) (forgets_get_bind fun state => ?_)
  refine (Change.forgets_ofExcept (state.blurred_table _ _)).bind fun table => ?_
  obtain ⟨name, ifExists, operation⟩ := statement
  cases operation with
  | renameTable target => exact Change.forgets_attempt (·.blurred_renameTable ..)
  | several clauses =>
      exact forgets_forM (fun clause => hagain (clauseText name clause)) clauses
  | _ =>
      refine (Change.forgets_ofExcept (Operation.blurred_alterations origin table _)).bind
        fun alterations => ?_
      exact Change.forgets_attempt (·.blurred_alterTableBatch ..)

/-- A statement does the same in every file, at every depth. -/
theorem Statement.forgets_applyNested (depth : Nat) (statement : Statement) :
    Change.ForgetsFiles id (applyNested origin depth statement)
      (applyNested origin.forgetFiles depth statement.forgetFiles) := by
  -- A nested statement is carried out at a smaller depth.
  induction depth using Nat.strongRecOn generalizing statement with
  | ind depth ih =>
      cases statement with
      | createTable statement =>
          simp only [forgetFiles, applyNested]
          exact statement.forgets_apply origin
      | alterTable statement =>
          simp only [forgetFiles, applyNested]
          refine statement.forgets_apply origin fun text => ?_
          cases depth with
          | zero => exact forgets_throw _
          | succ depth =>
              refine (Change.forgets_ofExcept (Change.blurred_ofReading blurred_read)).bind ?_
              exact ih depth (Nat.lt_succ_self depth)
      | dropTables removal =>
          simp only [forgetFiles, applyNested]
          exact forgets_forM (forgets_dropNamedTable removal.ifExists) removal.names
      | createSchema statement =>
          simp only [forgetFiles, applyNested]
          exact forgets_modify fun catalog => catalog.ensureSchema_forgetFiles statement.name
      | createEnum statement =>
          simp only [forgetFiles, applyNested]
          exact statement.forgets_apply origin
      | dropTypes removal =>
          simp only [forgetFiles, applyNested]
          exact forgets_modify fun catalog =>
            List.foldl_hom Catalog.forgetFiles Catalog.withoutEnum_forgetFiles
      | _ =>
          simp only [forgetFiles, applyNested]
          exact forgets_pure ()

/-- A text does the same in every file. -/
theorem Statement.forgets_applyText (text : String) :
    Change.ForgetsFiles id (applyText origin text) (applyText origin.forgetFiles text) :=
  (Change.forgets_ofExcept (Change.blurred_ofReading blurred_read)).bind
    (forgets_applyNested origin nestingDepth)

end Statements

/-! ## Migrations -/

namespace Migration

/-- The error of a failed statement names its file, and nothing else depends on it. -/
theorem forgets_applyStatement (family : Family) (file text : String) :
    Change.ForgetsFiles id (applyStatement family file text) (applyStatement family "" text) := by
  intro catalog
  have htext := Statement.forgets_applyText ⟨file, family⟩ text catalog
  unfold applyStatement
  unfold EStateM.run at htext ⊢
  dsimp only [Origin.forgetFiles] at htext ⊢
  rw [htext]
  cases Statement.applyText ⟨file, family⟩ text catalog <;> rfl

/-- The texts of migrations in order. -/
def texts (migrations : List Migration) : List String :=
  migrations.flatMap statements

/-- Migrations without their files are one file with all their statements. -/
theorem forgets_applyAll (family : Family) (migrations : List Migration) :
    Change.ForgetsFiles id (applyAll family migrations) (apply family ⟨"", texts migrations⟩) := by
  unfold applyAll apply texts
  rw [List.forM_eq_forM, List.forM_eq_forM]
  induction migrations with
  | nil => exact forgets_pure ()
  | cons migration rest ih =>
      rw [List.flatMap_cons, List.forM_cons, List.forM_append]
      exact (forgets_forM (forgets_applyStatement family migration.file) _).bind fun _ => ih

/-- The migrations with a file for each of their statements. -/
def singles (migrations : List Migration) : List Migration :=
  migrations.flatMap fun migration => migration.statements.map fun text => ⟨migration.file, [text]⟩

theorem texts_singles (migrations : List Migration) :
    texts (singles migrations) = texts migrations := by
  induction migrations with
  | nil => rfl
  | cons migration rest ih =>
      have hfile : texts (migration.statements.map fun text => ⟨migration.file, [text]⟩) =
          migration.statements := by
        rw [texts, List.flatMap_map, List.flatMap_singleton']
      unfold texts singles at *
      rw [List.flatMap_cons, List.flatMap_cons, List.flatMap_append, hfile, ih]

/-- Where each file has one statement, the first statements are those of the first files. -/
theorem texts_take {migrations : List Migration}
    (hone : ∀ migration ∈ migrations, ∃ text, migration.statements = [text]) (count : Nat) :
    texts (migrations.take count) = (texts migrations).take count := by
  induction migrations generalizing count with
  | nil => simp only [texts, List.take_nil, List.flatMap_nil]
  | cons migration rest ih =>
      cases count with
      | zero => rfl
      | succ count =>
          obtain ⟨text, htext⟩ := hone migration List.mem_cons_self
          have hrest := ih (fun other hother => hone other (List.mem_cons_of_mem _ hother)) count
          unfold texts at *
          rw [List.take_succ_cons, List.flatMap_cons, List.flatMap_cons, htext, hrest]
          rfl

theorem texts_take_singles (migrations : List Migration) (count : Nat) :
    texts ((singles migrations).take count) = (texts migrations).take count := by
  have hone : ∀ single ∈ singles migrations, ∃ text, single.statements = [text] := by
    intro single hsingle
    obtain ⟨migration, -, hsingle⟩ := List.mem_flatMap.mp hsingle
    obtain ⟨text, -, rfl⟩ := List.mem_map.mp hsingle
    exact ⟨text, rfl⟩
  rw [texts_take hone, texts_singles]

/-- It does not matter how statements are spread over files of one name. -/
theorem applyAll_singles (family : Family) (migrations : List Migration) :
    applyAll family (singles migrations) = applyAll family migrations := by
  unfold applyAll singles
  rw [List.forM_eq_forM]
  induction migrations with
  | nil => rfl
  | cons migration rest ih =>
      rw [List.flatMap_cons, List.forM_append, List.forM_cons, ih, List.forM_map]
      refine congrArg (· >>= _) ?_
      simp only [apply, List.forM_eq_forM, List.forM_cons, List.forM_nil, bind_pure_unit]

end Migration

/-! ## Replays -/

open Migration

/-- The first catalog has nothing from a file. -/
theorem Settings.blurred_catalog (settings : Settings) :
    settings.catalog =
      blurred CatalogError.forgetFiles Catalog.forgetFiles settings.catalog := by
  unfold Settings.catalog Settings.validate
  split <;> rfl

/-- A replay without its files is the replay of one file without a name. -/
theorem blurred_replay (settings : Settings) (migrations : List Migration) :
    replay settings [⟨"", texts migrations⟩] =
      blurred CatalogError.forgetFiles Catalog.forgetFiles (replay settings migrations) := by
  refine blurred_bind settings.blurred_catalog fun start _ => ?_
  have hfile : applyAll settings.family [⟨"", texts migrations⟩] =
      apply settings.family ⟨"", texts migrations⟩ := by
    rw [applyAll, List.forM_eq_forM, List.forM_cons, List.forM_nil, bind_pure_unit]
  rw [hfile, forgets_applyAll settings.family migrations start]
  cases (applyAll settings.family migrations).run start <;> rfl

section Failures

variable {settings : Settings} {migrations first second : List Migration}
  {error other : CatalogError} {number : Nat}

/-- A replay that has failed goes no further. -/
theorem replay_append_of_error (hfirst : replay settings first = .error error) :
    replay settings (first ++ second) = .error error := by
  unfold replay at hfirst ⊢
  cases hstart : settings.catalog with
  | error refused =>
      rw [hstart] at hfirst
      exact hfirst
  | ok start =>
      rw [hstart] at hfirst
      simp only [except_ok_bind] at hfirst ⊢
      rw [applyAll, List.forM_eq_forM] at hfirst ⊢
      rw [List.forM_append, EStateM.run_bind]
      cases hrun : (forM first (apply settings.family)).run start with
      | ok _ left =>
          rw [hrun] at hfirst
          cases hfirst
      | error found left =>
          rw [hrun] at hfirst
          exact hfirst

/-- The replay fails with its statement of this number, counted from one, and not before.  The
number is zero where the settings are refused and no statement is carried out. -/
def FailsAt (settings : Settings) (migrations : List Migration) (number : Nat)
    (error : CatalogError) : Prop :=
  replay settings ((singles migrations).take number) = .error error ∧
    ∀ fewer < number, ∃ catalog, replay settings ((singles migrations).take fewer) = .ok catalog

theorem replay_singles (settings : Settings) (migrations : List Migration) :
    replay settings (singles migrations) = replay settings migrations := by
  unfold replay
  rw [applyAll_singles]

/-- The error of a statement is the error of the whole replay. -/
theorem replay_eq_error_of_take
    (htake : replay settings ((singles migrations).take number) = .error error) :
    replay settings migrations = .error error := by
  rw [← replay_singles, ← List.take_append_drop number (singles migrations)]
  exact replay_append_of_error htake

/-- A replay that fails does so at one of its statements. -/
theorem exists_failsAt (herror : replay settings migrations = .error error) :
    ∃ number, FailsAt settings migrations number error := by
  classical
  have hfails : ∃ number found,
      replay settings ((singles migrations).take number) = .error found := by
    refine ⟨(singles migrations).length, error, ?_⟩
    rw [List.take_length, replay_singles, herror]
  obtain ⟨found, hfound⟩ := Nat.find_spec hfails
  have hwhole : replay settings migrations = .error found := replay_eq_error_of_take hfound
  rw [herror] at hwhole
  cases hwhole
  refine ⟨Nat.find hfails, hfound, fun fewer hfewer => ?_⟩
  cases hrun : replay settings ((singles migrations).take fewer) with
  | ok catalog => exact ⟨catalog, rfl⟩
  | error earlier => exact absurd ⟨earlier, hrun⟩ (Nat.find_min hfails hfewer)

/-- Without their files, replays of the same texts are the same. -/
theorem blurred_replay_congr (settings : Settings) (htexts : texts first = texts second) :
    blurred CatalogError.forgetFiles Catalog.forgetFiles (replay settings first) =
      blurred CatalogError.forgetFiles Catalog.forgetFiles (replay settings second) := by
  rw [← blurred_replay, ← blurred_replay, htexts]

/-- Replays of the same texts fail at the same statement. -/
theorem FailsAt.of_texts_eq (hfails : FailsAt settings first number error)
    (htexts : texts first = texts second) (hother : replay settings second = .error other) :
    FailsAt settings second number other := by
  -- the first statements of both are the same texts, however many are taken
  have htake : ∀ count, blurred CatalogError.forgetFiles Catalog.forgetFiles
      (replay settings ((singles first).take count)) =
        blurred CatalogError.forgetFiles Catalog.forgetFiles
          (replay settings ((singles second).take count)) := by
    intro count
    refine blurred_replay_congr settings ?_
    rw [texts_take_singles, texts_take_singles, htexts]
  constructor
  · have hnumber := htake number
    rw [hfails.1] at hnumber
    cases hrun : replay settings ((singles second).take number) with
    | ok catalog =>
        rw [hrun] at hnumber
        cases hnumber
    | error found =>
        have hwhole := replay_eq_error_of_take hrun
        rw [hother] at hwhole
        exact hwhole.symm
  · intro fewer hfewer
    obtain ⟨catalog, hcatalog⟩ := hfails.2 fewer hfewer
    have hcount := htake fewer
    rw [hcatalog] at hcount
    cases hrun : replay settings ((singles second).take fewer) with
    | ok left => exact ⟨left, rfl⟩
    | error found =>
        rw [hrun] at hcount
        cases hcount

end Failures

/-- Errors that differ in files alone have roots of one variant, and are of one kind. -/
theorem CatalogError.alike_of_forgetFiles_eq {error other : CatalogError}
    (hsame : error.forgetFiles = other.forgetFiles) :
    error.root.ctorIdx = other.root.ctorIdx ∧ error.kind = other.kind := by
  constructor
  · rw [← error.root.ctorIdx_forgetFiles, ← error.root_forgetFiles, hsame,
      other.root_forgetFiles, other.root.ctorIdx_forgetFiles]
  · rw [← error.kind_forgetFiles, hsame, other.kind_forgetFiles]

/-- Migrations with the same texts do the same, whatever their files are called and however the
texts are spread over them.  Either both replays succeed, with catalogs that are the same but for
files, or both fail at the same statement, with errors that are the same but for files: of one
variant at the root and of one kind. -/
theorem replay_alike_of_texts_eq (settings : Settings) {first second : List Migration}
    (htexts : texts first = texts second) :
    (∃ catalog other, replay settings first = .ok catalog ∧ replay settings second = .ok other ∧
      catalog.forgetFiles = other.forgetFiles) ∨
    (∃ error other number, replay settings first = .error error ∧
      replay settings second = .error other ∧ FailsAt settings first number error ∧
      FailsAt settings second number other ∧ error.forgetFiles = other.forgetFiles ∧
      error.root.ctorIdx = other.root.ctorIdx ∧ error.kind = other.kind) := by
  have hblurred := blurred_replay_congr settings htexts
  -- both replays give the same without their files, so that they succeed together or fail together
  cases hfirst : replay settings first with
  | ok catalog =>
      cases hsecond : replay settings second with
      | ok other =>
          rw [hfirst, hsecond] at hblurred
          exact .inl ⟨catalog, other, rfl, rfl, Except.ok.inj hblurred⟩
      | error other =>
          rw [hfirst, hsecond] at hblurred
          cases hblurred
  | error error =>
      cases hsecond : replay settings second with
      | ok other =>
          rw [hfirst, hsecond] at hblurred
          cases hblurred
      | error other =>
          rw [hfirst, hsecond] at hblurred
          have hsame : error.forgetFiles = other.forgetFiles := Except.error.inj hblurred
          obtain ⟨number, hfails⟩ := exists_failsAt hfirst
          refine .inr ⟨error, other, number, rfl, rfl, hfails, hfails.of_texts_eq htexts hsecond,
            hsame, CatalogError.alike_of_forgetFiles_eq hsame⟩

/-- A table and the removal of a column that it does not have, in one file. -/
def removalInOneFile : List Migration :=
  [⟨"1.sql", ["CREATE TABLE a (x int)", "ALTER TABLE a DROP y"]⟩]

/-- The same in two files. -/
def removalInTwoFiles : List Migration :=
  [⟨"up.sql", ["CREATE TABLE a (x int)"]⟩, ⟨"down.sql", ["ALTER TABLE a DROP y"]⟩]

theorem replay_alike_of_texts_eq_removal :
    texts removalInOneFile = texts removalInTwoFiles ∧
      replay .standard removalInOneFile ≠ replay .standard removalInTwoFiles ∧
      ∃ error other number, replay .standard removalInOneFile = .error error ∧
        replay .standard removalInTwoFiles = .error other ∧
        FailsAt .standard removalInOneFile number error ∧
        FailsAt .standard removalInTwoFiles number other ∧
        error.forgetFiles = other.forgetFiles ∧ error.root.ctorIdx = other.root.ctorIdx ∧
        error.kind = other.kind := by
  have htexts : texts removalInOneFile = texts removalInTwoFiles := rfl
  have hfails : ((replay .standard removalInOneFile).map fun _ => ()) ≠ .ok () := by
    decide +kernel
  refine ⟨htexts, by decide +kernel, ?_⟩
  rcases replay_alike_of_texts_eq .standard htexts with ⟨catalog, other, hcatalog, -⟩ | halike
  · rw [hcatalog] at hfails
    exact absurd rfl hfails
  · exact halike

end Schemata
